import BridgeFinder.Text.Ascii

/-!
# Readers

A reader takes a value off the front of a text and gives what follows it.  It does
not say why nothing could be read.
-/

namespace BridgeFinder.Text

/-- Take a value off the front of a text, if there is one. -/
abbrev Reader (α : Type) := List Char → Option (α × List Char)

/-- Read the character whose number is written with `count` hexadecimal digits. -/
def readCodePoint (count : Nat) : Reader Char := fun text => do
  let char ← codePoint? (text.take count)
  if count ≤ text.length then pure (char, text.drop count) else none

end BridgeFinder.Text
