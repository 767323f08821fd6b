import BridgeFinder.Number.Binary64
import BridgeFinder.Text.Ascii

/-!
# Reading decimals

A decimal has a sign, digits with a point somewhere among them, and an exponent;
all but one digit may be missing.  It is rounded once, to the nearest double.
-/

namespace BridgeFinder.Number

namespace Binary64

/-- Read a sign: is it a minus? -/
def takeSign : List Char → Bool × List Char
  | '-' :: rest => (true, rest)
  | '+' :: rest => (false, rest)
  | text => (false, text)

/-- The value of a run of digits, zero if it is empty. -/
def digitsValue (digits : List Char) : Nat :=
  (Text.natural? digits).getD 0

/-- Read what follows the digits of a decimal: nothing, or an exponent. -/
def exponent? : List Char → Option Int
  | [] => some 0
  | c :: rest =>
      if c = 'e' ∨ c = 'E' then
        let (negative, digits) := takeSign rest
        (Text.natural? digits).map fun n => if negative then -(n : Int) else n
      else none

/-- Read a decimal. -/
def ofText? (text : List Char) : Option Binary64 := do
  let (negative, rest) := takeSign text
  let (whole, rest) := rest.span Char.isDigit
  let (part, rest) :=
    match rest with
    | '.' :: rest => rest.span Char.isDigit
    | rest => ([], rest)
  if whole.isEmpty ∧ part.isEmpty then none
  else
    let exponent ← exponent? rest
    pure (ofDecimal negative (digitsValue (whole ++ part)) (exponent - part.length))

/-- Read a decimal or, in any case, one of the words for an infinity and for what is
no number. -/
def ofTextOrWord? (text : List Char) : Option Binary64 :=
  let (negative, rest) := takeSign text
  match String.ofList (rest.map Char.toLower) with
  | "inf" => some (infinite negative)
  | "infinity" => some (infinite negative)
  | "nan" => some nan
  | _ => ofText? text

end Binary64

/-- Read an integer of 64 bits with a sign perhaps. -/
def integer? (text : List Char) : Option Int := do
  let (negative, digits) := Binary64.takeSign text
  let n ← Text.natural? digits
  if negative then if n ≤ powerOfTwo 63 then some (-(n : Int)) else none
  else if n < powerOfTwo 63 then some n
  else none

end BridgeFinder.Number
