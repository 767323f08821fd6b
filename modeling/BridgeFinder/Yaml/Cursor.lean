/-!
# A place in a YAML text

A cursor is the rest of a text together with its line and column, both counted
from zero in characters.  A carriage return and the line feed after it are one line
break; so are each of them alone and the three line separators of Unicode.
-/

namespace BridgeFinder.Yaml

/-- A line and a column, counted from zero. -/
structure Mark where
  line : Nat
  column : Nat
deriving DecidableEq, Repr, Inhabited

/-- The rest of a text, and where it begins. -/
structure Cursor where
  rest : List Char
  line : Nat := 0
  column : Nat := 0
  /-- The number of characters before the rest. -/
  index : Nat := 0
deriving DecidableEq, Repr

/-- A character that ends a line. -/
def isBreak (c : Char) : Bool :=
  c == '\n' || c == '\r' || c.toNat == 0x85 || c.toNat == 0x2028 || c.toNat == 0x2029

/-- A space or a tab. -/
def isGap (c : Char) : Bool :=
  c == ' ' || c == '\t'

/-- A letter, a digit, a hyphen or a low line, of ASCII. -/
def isWordChar (c : Char) : Bool :=
  c.isAlphanum || c == '-' || c == '_'

/-- The character ends a word: a gap, a line break, or the end of the text. -/
def endsWord : Option Char → Bool
  | none => true
  | some c => isGap c || isBreak c

/-- The character ends a line, or the text. -/
def endsLine : Option Char → Bool
  | none => true
  | some c => isBreak c

/-- The mark that stands before a text. -/
def byteOrderMark : Char := Char.ofNat 0xFEFF

namespace Cursor

/-- The next character. -/
def head? (cursor : Cursor) : Option Char :=
  cursor.rest.head?

/-- The character after `n` more. -/
def peek (cursor : Cursor) (n : Nat) : Option Char :=
  cursor.rest[n]?

/-- The place of a cursor. -/
def mark (cursor : Cursor) : Mark :=
  ⟨cursor.line, cursor.column⟩

/-- Move over `n` characters of the same line. -/
def skip (cursor : Cursor) (n : Nat) : Cursor :=
  { cursor with
    rest := cursor.rest.drop n
    column := cursor.column + n
    index := cursor.index + n }

/-- Move over a line break, and give it: a line separator as itself, any other one
as a line feed. -/
def takeBreak (cursor : Cursor) : List Char × Cursor :=
  match cursor.rest with
  | [] => ([], cursor)
  | '\r' :: '\n' :: rest => (['\n'], ⟨rest, cursor.line + 1, 0, cursor.index + 2⟩)
  | c :: rest =>
      ([if c.toNat == 0x2028 || c.toNat == 0x2029 then c else '\n'],
        ⟨rest, cursor.line + 1, 0, cursor.index + 1⟩)

/-- Move over the characters that pass a test, none of which breaks the line. -/
def skipWhile (test : Char → Bool) (cursor : Cursor) : Cursor :=
  cursor.skip (cursor.rest.takeWhile test).length

/-- Take the characters that pass a test, none of which breaks the line. -/
def takeWhile (test : Char → Bool) (cursor : Cursor) : List Char × Cursor :=
  let taken := cursor.rest.takeWhile test
  (taken, cursor.skip taken.length)

/-- The rest begins with the given characters. -/
def startsWith (cursor : Cursor) (word : List Char) : Bool :=
  word.isPrefixOf cursor.rest

/-- The cursor is at the start of a line that begins with the given three
characters and nothing else in the same word. -/
def atMarker (cursor : Cursor) (word : List Char) : Bool :=
  cursor.column == 0 && cursor.startsWith word && endsWord (cursor.peek 3)

/-- The cursor is at a line that separates documents. -/
def atDocumentMarker (cursor : Cursor) : Bool :=
  cursor.atMarker ['-', '-', '-'] || cursor.atMarker ['.', '.', '.']

/-- Move to the end of the line. -/
def skipLine (cursor : Cursor) : Cursor :=
  cursor.skipWhile fun c => !isBreak c

end Cursor

end BridgeFinder.Yaml
