/-!
# Kinds of characters

A blank is a character with the Unicode property `White_Space`: the five ASCII
controls from tab to carriage return, the space, and eighteen further spaces and
line separators.

Two letters agree up to case when their simple case foldings are equal.  For a
lower-case ASCII letter this adds its capital, and two letters outside ASCII:
the long s `ſ` folds to `s`, and the Kelvin sign folds to `k`.

A decimal digit is a character of the Unicode general category `Nd`.  The digits
of one script are ten consecutive code points, so the category is given by the
places of its zeros.
-/

namespace BridgeFinder.Text

/-! ## Blanks -/

/-- `c` has the Unicode property `White_Space`. -/
def isBlank (c : Char) : Bool :=
  let n := c.toNat
  (9 ≤ n && n ≤ 13) || n == 0x20 || n == 0x85 || n == 0xA0 || n == 0x1680 ||
    (0x2000 ≤ n && n ≤ 0x200A) || n == 0x2028 || n == 0x2029 || n == 0x202F ||
    n == 0x205F || n == 0x3000

/-- Remove the blanks at the start of `text`. -/
def trimStart (text : List Char) : List Char :=
  text.dropWhile isBlank

/-- Remove the blanks at the end of `text`. -/
def trimEnd (text : List Char) : List Char :=
  (text.reverse.dropWhile isBlank).reverse

/-- Remove the blanks at both ends of `text`. -/
def trim (text : List Char) : List Char :=
  trimEnd (trimStart text)

/-- Every character of `text` is a blank. -/
def isAllBlank (text : List Char) : Bool :=
  text.all isBlank

/-! ## Letters up to case -/

/-- The simple case folding of `c`, as far as it is an ASCII letter.  Every other
character is its own folding here. -/
def foldCase (c : Char) : Char :=
  if c.toNat = 0x17F then 's'
  else if c.toNat = 0x212A then 'k'
  else c.toLower

/-- The rest of `text` after a prefix that agrees with the lower-case `word` up
to case. -/
def dropFolded? : List Char → List Char → Option (List Char)
  | [], text => some text
  | _ :: _, [] => none
  | w :: word, c :: text => if foldCase c = w then dropFolded? word text else none

/-! ## Decimal digits of all scripts -/

/-- The code points of the digit zero of each script, in ascending order. -/
def decimalZeros : List Nat :=
  [0x30, 0x660, 0x6F0, 0x7C0, 0x966, 0x9E6, 0xA66, 0xAE6, 0xB66, 0xBE6, 0xC66,
   0xCE6, 0xD66, 0xDE6, 0xE50, 0xED0, 0xF20, 0x1040, 0x1090, 0x17E0, 0x1810,
   0x1946, 0x19D0, 0x1A80, 0x1A90, 0x1B50, 0x1BB0, 0x1C40, 0x1C50, 0xA620,
   0xA8D0, 0xA900, 0xA9D0, 0xA9F0, 0xAA50, 0xABF0, 0xFF10, 0x104A0, 0x10D30,
   0x10D40, 0x11066, 0x110F0, 0x11136, 0x111D0, 0x112F0, 0x11450, 0x114D0,
   0x11650, 0x116C0, 0x116D0, 0x116DA, 0x11730, 0x118E0, 0x11950, 0x11BF0,
   0x11C50, 0x11D50, 0x11DA0, 0x11F50, 0x16130, 0x16A60, 0x16AC0, 0x16B50,
   0x16D70, 0x1CCF0, 0x1D7CE, 0x1D7D8, 0x1D7E2, 0x1D7EC, 0x1D7F6, 0x1E140,
   0x1E2F0, 0x1E4F0, 0x1E5F1, 0x1E950, 0x1FBF0]

/-- `c` is a decimal digit of some script. -/
def isDecimalDigit (c : Char) : Bool :=
  c.isDigit || decimalZeros.any fun first => first ≤ c.toNat && c.toNat < first + 10

end BridgeFinder.Text
