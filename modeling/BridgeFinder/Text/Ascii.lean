/-!
# ASCII letters and digits

The formats of this library are case-insensitive only where they say so, and
then only for the ASCII letters.  Letters outside ASCII are never changed.
-/

namespace BridgeFinder.Text

/-- Raise every ASCII letter of `text` and leave every other character alone. -/
def upper (text : String) : String :=
  String.ofList (text.toList.map Char.toUpper)

/-- Lower every ASCII letter of `text` and leave every other character alone. -/
def lower (text : String) : String :=
  String.ofList (text.toList.map Char.toLower)

/-- The decimal value of an ASCII digit. -/
def digitValue? (c : Char) : Option Nat :=
  if c.isDigit then some (c.toNat - '0'.toNat) else none

/-- The value of a hexadecimal digit in either case. -/
def hexValue? (c : Char) : Option Nat :=
  if c.isDigit then some (c.toNat - '0'.toNat)
  else if 'a' ≤ c ∧ c ≤ 'f' then some (c.toNat - 'a'.toNat + 10)
  else if 'A' ≤ c ∧ c ≤ 'F' then some (c.toNat - 'A'.toNat + 10)
  else none

/-- `c` is one of the twenty-two ASCII characters that write a hexadecimal
digit. -/
def isHexDigit (c : Char) : Bool :=
  (hexValue? c).isSome

/-- `part` occurs in `text` as a run of consecutive characters. -/
def occursIn (part : List Char) : List Char → Bool
  | [] => part.isEmpty
  | c :: rest => part.isPrefixOf (c :: rest) || occursIn part rest

/-- Split `text` after the first occurrence of `mark`, giving what stands before
it and what stands after it. -/
def splitAtFirst? (mark : List Char) : List Char → Option (List Char × List Char)
  | [] => if mark.isEmpty then some ([], []) else none
  | c :: rest =>
      match mark.isPrefixOf? (c :: rest) with
      | some after => some ([], after)
      | none => (splitAtFirst? mark rest).map fun (before, after) => (c :: before, after)

/-- Read a nonempty run of ASCII digits as a natural number.  Leading zeros are
allowed and signs are not. -/
def natural? (digits : List Char) : Option Nat :=
  if digits.isEmpty then none
  else digits.foldlM (fun value c => (digitValue? c).map (value * 10 + ·)) 0

/-- Read a nonempty run of digits of the given base, which is at most sixteen. -/
def naturalInBase? (base : Nat) (digits : List Char) : Option Nat :=
  if digits.isEmpty then none
  else digits.foldlM (fun value c => do
    let digit ← hexValue? c
    if digit < base then some (value * base + digit) else none) 0

/-- The character whose number the given hexadecimal digits write. -/
def codePoint? (digits : List Char) : Option Char :=
  (naturalInBase? 16 digits).bind fun n => if n.isValidChar then some (Char.ofNat n) else none

end BridgeFinder.Text
