import BridgeFinder.Json.Value
import BridgeFinder.Number.Decimal
import BridgeFinder.Text.Reader

/-!
# Numbers, truth values and dates of TOML

Low lines may stand between the digits of a number.  A date or a time of day is
taken as the text of its one plain form: a capital `T` between the two, no zeros at
the end of a fraction of a second and at most nine digits in it.
-/

namespace BridgeFinder.Toml

open Number (Binary64)
open Text (Reader)

/-! ## Numbers -/

/-- Digits without the low lines that stand between them. -/
def ungrouped? (text : List Char) : Option (List Char) :=
  let groups := text.splitOn '_'
  if groups.all fun group => !group.isEmpty then some groups.flatten else none

/-- Decimal digits, perhaps with low lines between them. -/
def digits? (text : List Char) : Option (List Char) :=
  (ungrouped? text).filter fun digits => digits.all Char.isDigit

/-- Decimal digits that begin with a zero only if that is the only one. -/
def wholeDigits? (text : List Char) : Option (List Char) :=
  (digits? text).filter fun digits => digits.length = 1 ∨ digits.head? ≠ some '0'

/-- Read a natural number of 63 bits in a base. -/
def based? (base : Nat) (text : List Char) : Option Int := do
  let digits ← ungrouped? text
  let n ← Text.naturalInBase? base digits
  if n < Number.powerOfTwo 63 then some n else none

/-- Read an integer of 64 bits. -/
def integer? : List Char → Option Int
  | '0' :: 'x' :: digits => based? 16 digits
  | '0' :: 'o' :: digits => based? 8 digits
  | '0' :: 'b' :: digits => based? 2 digits
  | text => do
      let (negative, rest) := Binary64.takeSign text
      let digits ← wholeDigits? rest
      Number.integer? (if negative then '-' :: digits else digits)

/-- Read the digits of a fraction and its exponent: at least one of the two is
there. -/
def fraction? (text : List Char) : Option (List Char) := do
  let (part, power) := text.span fun c => c ≠ 'e' ∧ c ≠ 'E'
  let part ←
    match part with
    | [] => pure []
    | '.' :: part => (digits? part).map ('.' :: ·)
    | _ => none
  let power ←
    match power with
    | [] => if part.isEmpty then none else pure []
    | _ :: power =>
        let (negative, power) := Binary64.takeSign power
        (digits? power).map fun power => 'e' :: if negative then '-' :: power else power
  pure (part ++ power)

/-- Read a number with a fraction or an exponent.  It must not be too large. -/
def float? (text : List Char) : Option Binary64 := do
  let (negative, rest) := Binary64.takeSign text
  match String.ofList rest with
  | "inf" => pure (.infinite negative)
  | "nan" => pure .nan
  | _ =>
      let (whole, rest) := rest.span fun c => c.isDigit || c == '_'
      let whole ← wholeDigits? whole
      let fraction ← fraction? rest
      let value ← Binary64.ofText? (whole ++ fraction)
      if negative then pure value.neg
      else if value = .infinite false then none
      else pure value

/-! ## Dates and times -/

/-- The number of days of a month. -/
def daysOf (year month : Nat) : Nat :=
  match month with
  | 2 => if year % 4 = 0 ∧ (year % 100 ≠ 0 ∨ year % 400 = 0) then 29 else 28
  | 4 => 30
  | 6 => 30
  | 9 => 30
  | 11 => 30
  | _ => 31

/-- Read two digits that write a number from `least` to `largest`. -/
def readPair (least largest : Nat) : Reader Nat
  | a :: b :: rest => do
      let n ← Text.natural? [a, b]
      if least ≤ n ∧ n ≤ largest then pure (n, rest) else none
  | _ => none

/-- Read a given character. -/
def readMark (mark : Char) (text : List Char) : Option (List Char) :=
  [mark].isPrefixOf? text

/-- Read a date. -/
def readDate : Reader (List Char) := fun text => do
  let year ← Text.natural? (text.take 4)
  let rest ← readMark '-' (text.drop 4)
  let (month, rest) ← readPair 1 12 rest
  let rest ← readMark '-' rest
  let (_, rest) ← readPair 1 (daysOf year month) rest
  pure (text.take 10, rest)

/-- Read a fraction of a second, if there is one. -/
def readFraction : Reader (List Char)
  | '.' :: rest =>
      match rest.span Char.isDigit with
      | ([], _) => none
      | (digits, rest) =>
          let counted := ((digits.take 9).reverse.dropWhile (· == '0')).reverse
          some (if counted.isEmpty then [] else '.' :: counted, rest)
  | text => some ([], text)

/-- Read a time of day. -/
def readTime : Reader (List Char) := fun text => do
  let (_, rest) ← readPair 0 23 text
  let rest ← readMark ':' rest
  let (_, rest) ← readPair 0 59 rest
  let rest ← readMark ':' rest
  let (_, rest) ← readPair 0 60 rest
  let (fraction, rest) ← readFraction rest
  pure (text.take 8 ++ fraction, rest)

/-- Read the offset of a time from the universal one, if it is given, up to the end
of the text. -/
def offset? : List Char → Option (List Char)
  | [] => some []
  | ['Z'] => some ['Z']
  | ['z'] => some ['Z']
  | sign :: text =>
      if sign = '+' ∨ sign = '-' then do
        let (hours, rest) ← readPair 0 23 text
        let rest ← readMark ':' rest
        let (minutes, rest) ← readPair 0 59 rest
        let sign := if hours = 0 ∧ minutes = 0 then '+' else sign
        if rest.isEmpty then pure (sign :: text) else none
      else none

/-- Read a date, a time of day, or both. -/
def moment? (text : List Char) : Option (List Char) :=
  match readDate text with
  | some (date, []) => some date
  | some (date, delimiter :: rest) =>
      if delimiter = 'T' ∨ delimiter = 't' ∨ delimiter = ' ' then do
        let (time, rest) ← readTime rest
        let offset ← offset? rest
        pure (date ++ 'T' :: time ++ offset)
      else none
  | none =>
      match readTime text with
      | some (time, []) => some time
      | _ => none

/-! ## Scalars -/

/-- A character of a number, a truth value, a date or a time. -/
def isScalarChar (c : Char) : Bool :=
  c.isAlphanum || c == '+' || c == '-' || c == '.' || c == ':' || c == '_'

/-- The value that a word writes. -/
def scalar? (word : List Char) : Option Json.Value :=
  match String.ofList word with
  | "true" => some (.boolean true)
  | "false" => some (.boolean false)
  | _ =>
      match integer? word with
      | some n => some (.number (if 0 ≤ n then .natural n.toNat else .negative n))
      | none =>
          match float? word with
          | some value => some (.number (.float value))
          | none => (moment? word).map fun text => .string (String.ofList text)

/-- Read a number, a truth value, a date or a time.  A space may stand between a
date and a time. -/
def readScalar : Reader Json.Value := fun text => do
  let (word, rest) := text.span isScalarChar
  let (word, rest) :=
    match rest with
    | ' ' :: after =>
        if (readDate word).any (·.2.isEmpty) ∧ after.head?.any Char.isDigit then
          let (time, rest) := after.span isScalarChar
          (word ++ ' ' :: time, rest)
        else (word, rest)
    | _ => (word, rest)
  let value ← scalar? word
  pure (value, rest)

end BridgeFinder.Toml
