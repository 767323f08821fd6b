import BridgeFinder.Json.Fault
import BridgeFinder.Text.Ascii

/-!
# Reading the pieces of a JSON document

A reader takes the rest of a document and gives a value and what follows it, or
a fault.  This module reads blanks, the three words, strings and numbers, and it
skips values of any shape.  A skipped value is checked for its brackets, commas,
strings and the spelling of its numbers, but neither for the range of a number
nor for the pairing of surrogates.
-/

namespace BridgeFinder.Json

open Number (Binary64)

/-- Take a value off the front of the rest of a document. -/
abbrev Reader (α : Type) := List Char → Except Fault (α × List Char)

/-- Blank between tokens: space, tab, line feed and carriage return. -/
def isSpace (c : Char) : Bool :=
  c == ' ' || c == '\n' || c == '\t' || c == '\r'

/-- The rest of a document after the blanks at its front. -/
def skipSpace (text : List Char) : List Char :=
  text.dropWhile isSpace

/-- Read the letters of `word`, reporting the first one that differs. -/
def readWord : List Char → List Char → Except Fault (List Char)
  | [], text => .ok text
  | _ :: _, [] => .error (.before .endOfValue [])
  | w :: word, c :: text =>
      if c = w then readWord word text
      else .error ⟨.expectedIdent, Text.byteLength (c :: text) - 1⟩

/-! ## Strings -/

/-- The code unit that four hexadecimal digits write. -/
def codeUnit? (a b c d : Char) : Option Nat := do
  let a ← Text.hexValue? a
  let b ← Text.hexValue? b
  let c ← Text.hexValue? c
  let d ← Text.hexValue? d
  pure (((a * 16 + b) * 16 + c) * 16 + d)

/-- Read the four digits of an escaped code unit.  Four bytes are taken before
they are looked at, and a document that ends earlier ends inside a string. -/
def readCodeUnit : Reader Nat
  | a :: b :: c :: d :: rest =>
      match codeUnit? a b c d with
      | some unit => .ok (unit, rest)
      | none => .error ⟨.invalidEscape, Text.byteLength (a :: b :: c :: d :: rest) - 4⟩
  | short =>
      if 4 ≤ Text.byteLength short then
        .error ⟨.invalidEscape, Text.byteLength short - 4⟩
      else .error (.before .endOfString [])

/-- The character that a backslash and `c` stand for, apart from code units. -/
def simpleEscape? (c : Char) : Option Char :=
  match c with
  | '"' => some '"'
  | '\\' => some '\\'
  | '/' => some '/'
  | 'b' => some '\x08'
  | 'f' => some '\x0c'
  | 'n' => some '\n'
  | 'r' => some '\r'
  | 't' => some '\t'
  | _ => none

/-- Read what follows the letter `u` of an escape.  A leading surrogate must be
followed at once by the escape of a trailing one. -/
def readEscapedChar (text : List Char) : Except Fault (Char × List Char) := do
  let (unit, rest) ← readCodeUnit text
  if 0xDC00 ≤ unit ∧ unit ≤ 0xDFFF then throw (.before .loneSurrogate rest)
  else if 0xD800 ≤ unit ∧ unit ≤ 0xDBFF then
    match rest with
    | [] => throw (.before .endOfString [])
    | '\\' :: [] => throw (.before .endOfString [])
    | '\\' :: 'u' :: rest =>
        let (second, rest) ← readCodeUnit rest
        if 0xDC00 ≤ second ∧ second ≤ 0xDFFF then
          pure (Char.ofNat (0x10000 + (unit - 0xD800) * 0x400 + (second - 0xDC00)), rest)
        else throw (.before .loneSurrogate rest)
    | '\\' :: rest => throw ⟨.endOfEscape, Text.byteLength rest - 1⟩
    | rest => throw ⟨.endOfEscape, Text.byteLength rest - 1⟩
  else pure (Char.ofNat unit, rest)

/-- Read the characters of a string up to its closing quotation mark, after the
opening one.  The first argument bounds the number of characters. -/
def readCharsUpTo : Nat → Reader (List Char)
  | _, [] => .error (.before .endOfString [])
  | 0, text => .error (.before .endOfString text)
  | bound + 1, c :: rest => do
      if c = '"' then pure ([], rest)
      else if c = '\\' then
        match rest with
        | [] => throw (.before .endOfString [])
        | 'u' :: rest =>
            let (char, rest) ← readEscapedChar rest
            let (chars, rest) ← readCharsUpTo bound rest
            pure (char :: chars, rest)
        | e :: rest =>
            match simpleEscape? e with
            | some char =>
                let (chars, rest) ← readCharsUpTo bound rest
                pure (char :: chars, rest)
            | none => throw ⟨.invalidEscape, Text.byteLength (e :: rest) - 1⟩
      else if c.toNat < 0x20 then throw (.before .controlCharacter rest)
      else
        let (chars, rest) ← readCharsUpTo bound rest
        pure (c :: chars, rest)

/-- Read a string after its opening quotation mark. -/
def readString : Reader String := fun text => do
  let (chars, rest) ← readCharsUpTo text.length text
  pure (String.ofList chars, rest)

/-- Skip a string after its opening quotation mark.  Escaped code units are
checked for their digits only. -/
def skipCharsUpTo : Nat → List Char → Except Fault (List Char)
  | _, [] => .error (.before .endOfString [])
  | 0, text => .error (.before .endOfString text)
  | bound + 1, c :: rest =>
      if c = '"' then .ok rest
      else if c = '\\' then
        match rest with
        | [] => .error (.before .endOfString [])
        | 'u' :: rest =>
            match readCodeUnit rest with
            | .ok (_, rest) => skipCharsUpTo bound rest
            | .error fault => .error fault
        | e :: rest =>
            match simpleEscape? e with
            | some _ => skipCharsUpTo bound rest
            | none => .error ⟨.invalidEscape, Text.byteLength (e :: rest) - 1⟩
      else if c.toNat < 0x20 then .error (.before .controlCharacter (c :: rest))
      else skipCharsUpTo bound rest

/-- Skip a string after its opening quotation mark. -/
def skipString (text : List Char) : Except Fault (List Char) :=
  skipCharsUpTo text.length text

/-! ## Numbers -/

/-- A number as it was written: a natural number of 64 bits, a negative integer of 64
bits with a sign, or, for everything else, a double. -/
inductive Numeral where
  | natural (value : Nat)
  | negative (value : Int)
  | float (value : Binary64)
deriving DecidableEq, Repr

/-- How a numeral is mentioned. -/
def Numeral.found : Numeral → Found
  | natural value => .integer value
  | negative value => .integer value
  | float value => .float value

/-- The value of a digit. -/
def digitOf (c : Char) : Nat :=
  c.toNat - '0'.toNat

/-- The double nearest to ten to the given power. -/
def powerOfTen (power : Nat) : Binary64 :=
  Binary64.ofDecimal false 1 power

/-- Scale a double by `10 ^ power`, dividing for negative powers, in steps of at
most 308.  `none` means that the result is too large; `steps` bounds the number
of steps. -/
def scale : Nat → Binary64 → Int → Option Binary64
  | 0, value, _ => some value
  | steps + 1, value, power =>
      if power.natAbs ≤ 308 then
        if 0 ≤ power then
          let product := value.mul (powerOfTen power.natAbs)
          if product.isFinite then some product else none
        else some (value.div (powerOfTen power.natAbs))
      else if value.isZero then some value
      else if 0 ≤ power then none
      else scale steps (value.div (powerOfTen 308)) (power + 308)

/-- The double that a sign, a significand below `2 ^ 64` and a power of ten stand
for.  A result beyond the doubles is reported before `rest`. -/
def floatOf (negative : Bool) (significand : Nat) (power : Int) (rest : List Char) :
    Except Fault (Binary64 × List Char) :=
  match scale 16 (Binary64.ofNat significand) (max power (-4000)) with
  | some value => .ok (if negative then value.neg else value, rest)
  | none => .error (.before .numberOutOfRange rest)

/-- The rest of a document after the digits at its front. -/
def skipDigits (text : List Char) : List Char :=
  text.dropWhile Char.isDigit

/-- Read the digits of an exponent onto `exponent`.  An exponent beyond 31 bits
ends the reading: it is given as `none`, before the digit that was too many. -/
def exponentDigits : Nat → List Char → Option Nat × List Char
  | exponent, [] => (some exponent, [])
  | exponent, c :: rest =>
      if c.isDigit then
        let next := exponent * 10 + digitOf c
        if 2147483647 < next then (none, rest) else exponentDigits next rest
      else (some exponent, c :: rest)

/-- Read an exponent after its letter. -/
def readExponent (negative : Bool) (significand : Nat) (power : Int) (text : List Char) :
    Except Fault (Binary64 × List Char) :=
  let (down, text) :=
    match text with
    | '+' :: rest => (false, rest)
    | '-' :: rest => (true, rest)
    | text => (false, text)
  match text with
  | [] => .error (.before .endOfValue [])
  | c :: rest =>
      if c.isDigit then
        match exponentDigits (digitOf c) rest with
        | (some exponent, rest) =>
            floatOf negative significand (if down then power - exponent else power + exponent) rest
        | (none, rest) =>
            if significand ≠ 0 ∧ !down then .error (.before .numberOutOfRange rest)
            else
              .ok (.finite negative 0 Binary64.leastExponent, skipDigits rest)
      else .error ⟨.invalidNumber, Text.byteLength (c :: rest) - 1⟩

/-- Read the exponent of a number, if it has one, after its digits. -/
def readExponent? (negative : Bool) (significand : Nat) (power : Int) (text : List Char) :
    Except Fault (Binary64 × List Char) :=
  match text with
  | c :: rest =>
      if c = 'e' ∨ c = 'E' then readExponent negative significand power rest
      else floatOf negative significand power (c :: rest)
  | [] => floatOf negative significand power []

/-- Take digits into the significand as long as it stays below `2 ^ 64`.  The
result says how many were taken and whether a digit was too many. -/
def significandDigits : Nat → Nat → List Char → Nat × Nat × Bool × List Char
  | significand, taken, [] => (significand, taken, false, [])
  | significand, taken, c :: rest =>
      if c.isDigit then
        let next := significand * 10 + digitOf c
        if Number.powerOfTwo 64 ≤ next then (significand, taken, true, c :: rest)
        else significandDigits next (taken + 1) rest
      else (significand, taken, false, c :: rest)

/-- Read the digits after a decimal point.  Digits beyond the significand are
ignored. -/
def readFraction (negative : Bool) (significand : Nat) (power : Int) (text : List Char) :
    Except Fault (Binary64 × List Char) :=
  match significandDigits significand 0 text with
  | (significand, taken, overflow, rest) =>
      if overflow then readExponent? negative significand (power - taken) (skipDigits rest)
      else if taken = 0 then
        match rest with
        | [] => .error (.before .endOfValue [])
        | _ :: _ => .error (.within .invalidNumber rest)
      else readExponent? negative significand (power - taken) rest

/-- Read what may follow the integer digits of a number. -/
def readNumberTail (negative : Bool) (significand : Nat) (text : List Char) :
    Except Fault (Numeral × List Char) :=
  let float (result : Except Fault (Binary64 × List Char)) :
      Except Fault (Numeral × List Char) :=
    result.map fun (value, rest) => (.float value, rest)
  match text with
  | '.' :: rest => float (readFraction negative significand 0 rest)
  | 'e' :: rest => float (readExponent negative significand 0 rest)
  | 'E' :: rest => float (readExponent negative significand 0 rest)
  | rest =>
      if negative then
        if significand = 0 ∨ Number.powerOfTwo 63 < significand then
          .ok (.float (Binary64.ofNat significand).neg, rest)
        else .ok (.negative (-(significand : Int)), rest)
      else .ok (.natural significand, rest)

/-- Read the part of an integer beyond `2 ^ 64`: further digits only count. -/
def readLongInteger (negative : Bool) (significand : Nat) (text : List Char) :
    Except Fault (Numeral × List Char) :=
  let further := text.takeWhile Char.isDigit
  let result :=
    match skipDigits text with
    | '.' :: rest => readFraction negative significand further.length rest
    | rest => readExponent? negative significand further.length rest
  result.map fun (value, rest) => (.float value, rest)

/-- Read a number after its sign. -/
def readUnsigned (negative : Bool) : Reader Numeral
  | [] => .error (.before .endOfValue [])
  | c :: rest =>
      if c = '0' then
        match rest with
        | d :: _ =>
            if d.isDigit then .error (.within .invalidNumber rest)
            else readNumberTail negative 0 rest
        | [] => readNumberTail negative 0 []
      else if c.isDigit then
        match significandDigits (digitOf c) 1 rest with
        | (significand, _, true, rest) => readLongInteger negative significand rest
        | (significand, _, false, rest) => readNumberTail negative significand rest
      else .error ⟨.invalidNumber, Text.byteLength (c :: rest) - 1⟩

/-- Skip an exponent after its letter. -/
def skipExponent (text : List Char) : Except Fault (List Char) :=
  let text :=
    match text with
    | '+' :: rest => rest
    | '-' :: rest => rest
    | text => text
  match text with
  | [] => .error (.before .invalidNumber [])
  | c :: rest =>
      if c.isDigit then .ok (skipDigits rest)
      else .error ⟨.invalidNumber, Text.byteLength (c :: rest) - 1⟩

/-- Skip what may follow the integer digits of a number. -/
def skipNumberTail (text : List Char) : Except Fault (List Char) :=
  match text with
  | '.' :: rest =>
      match rest with
      | c :: _ =>
          if c.isDigit then
            match skipDigits rest with
            | 'e' :: rest => skipExponent rest
            | 'E' :: rest => skipExponent rest
            | rest => .ok rest
          else .error (.within .invalidNumber rest)
      | [] => .error (.within .invalidNumber rest)
  | 'e' :: rest => skipExponent rest
  | 'E' :: rest => skipExponent rest
  | rest => .ok rest

/-- Skip a number after its sign. -/
def skipUnsigned : List Char → Except Fault (List Char)
  | [] => .error (.before .invalidNumber [])
  | c :: rest =>
      if c = '0' then
        match rest with
        | d :: _ => if d.isDigit then .error (.within .invalidNumber rest) else skipNumberTail rest
        | [] => .ok []
      else if c.isDigit then skipNumberTail (skipDigits rest)
      else .error ⟨.invalidNumber, Text.byteLength (c :: rest) - 1⟩

/-! ## Skipping values -/

/-- Read the colon between a key and its value. -/
def readColon (text : List Char) : Except Fault (List Char) :=
  match skipSpace text with
  | ':' :: rest => .ok rest
  | [] => .error (.within .endOfObject [])
  | rest => .error (.within .expectedColon rest)

mutual

/-- Skip one value.  The first argument bounds the number of tokens. -/
def skipValueUpTo : Nat → List Char → Except Fault (List Char)
  | 0, text => .error (.within .endOfValue text)
  | bound + 1, text =>
      match skipSpace text with
      | [] => .error (.within .endOfValue [])
      | 'n' :: rest => readWord ['u', 'l', 'l'] rest
      | 't' :: rest => readWord ['r', 'u', 'e'] rest
      | 'f' :: rest => readWord ['a', 'l', 's', 'e'] rest
      | '-' :: rest => skipUnsigned rest
      | '"' :: rest => skipString rest
      | '[' :: rest =>
          match skipSpace rest with
          | ']' :: rest => .ok rest
          | [] => .error (.within .endOfList [])
          | rest => skipElementsUpTo bound rest
      | '\x7b' :: rest =>
          match skipSpace rest with
          | '\x7d' :: rest => .ok rest
          | [] => .error (.within .endOfObject [])
          | rest => skipMembersUpTo bound rest
      | c :: rest =>
          if c.isDigit then skipUnsigned (c :: rest)
          else .error (.within .expectedValue (c :: rest))

/-- Skip the elements of an array from one element on, with the bracket. -/
def skipElementsUpTo : Nat → List Char → Except Fault (List Char)
  | 0, text => .error (.within .endOfList text)
  | bound + 1, text => do
      let rest ← skipValueUpTo bound text
      match skipSpace rest with
      | ',' :: rest => skipElementsUpTo bound rest
      | ']' :: rest => pure rest
      | [] => throw (.within .endOfList [])
      | rest => throw (.within .expectedListCommaOrEnd rest)

/-- Skip the members of an object from one key on, with the brace. -/
def skipMembersUpTo : Nat → List Char → Except Fault (List Char)
  | 0, text => .error (.within .endOfObject text)
  | bound + 1, text => do
      let rest ←
        match skipSpace text with
        | '"' :: rest => skipString rest
        | [] => throw (.within .endOfObject [])
        | rest => throw (.within .keyNotString rest)
      let rest ← readColon rest
      let rest ← skipValueUpTo bound rest
      match skipSpace rest with
      | ',' :: rest => skipMembersUpTo bound rest
      | '\x7d' :: rest => pure rest
      | [] => throw (.within .endOfObject [])
      | rest => throw (.within .expectedObjectCommaOrEnd rest)

end

/-- Skip one value of any shape. -/
def skipValue (text : List Char) : Except Fault (List Char) :=
  skipValueUpTo (2 * text.length + 2) text

end BridgeFinder.Json
