import BridgeFinder.Json.Value
import BridgeFinder.Text.Character
import BridgeFinder.Text.Reader

/-!
# Documents of INI

A document has sections, each opened by its name in brackets, and in them keys with
values, all of which are texts.  The keys before the first section belong to the
document itself.  Backslashes escape characters everywhere but in comments, and a
comment begins at the start of a line.
-/

namespace BridgeFinder.Ini

open Text (Reader)

/-- The character that a backslash and `c` stand for. -/
def escaped (c : Char) : Char :=
  match c with
  | '0' => '\x00'
  | 'a' => '\x07'
  | 'b' => '\x08'
  | 't' => '\t'
  | 'r' => '\r'
  | 'n' => '\n'
  | c => c

/-- Read what follows the backslash of an escape.  A line feed stands for nothing,
and `x` for the character with the number of four hexadecimal digits. -/
def readEscape : Reader (List Char)
  | [] => none
  | '\n' :: rest => some ([], rest)
  | 'x' :: rest => (Text.readCodePoint 4 rest).map fun (char, rest) => ([char], rest)
  | c :: rest => some ([escaped c], rest)

/-- Read characters up to one of those that end the run, or to the end of the text
if that may end it too.  The number bounds that of the characters. -/
def readRunUpTo (isEnd : Char → Bool) (mayEnd : Bool) : Nat → Reader (List Char)
  | _, [] => if mayEnd then some ([], []) else none
  | 0, _ => none
  | bound + 1, c :: rest =>
      if isEnd c then some ([], c :: rest)
      else do
        let (piece, rest) ← if c = '\\' then readEscape rest else some ([c], rest)
        let (chars, rest) ← readRunUpTo isEnd mayEnd bound rest
        pure (piece ++ chars, rest)

/-- Read characters up to one of those that end the run. -/
def readRun (isEnd : Char → Bool) : Reader (List Char) := fun text =>
  readRunUpTo isEnd false text.length text

/-- Read the rest of a line. -/
def readLine : Reader (List Char) := fun text =>
  readRunUpTo (fun c => c == '\n' || c == '\r') true text.length text

/-- Read a value: the rest of a line, of which the beginning may stand between
quotation marks or apostrophes and then go over several lines. -/
def readValue : Reader (List Char) := fun text =>
  let text := text.dropWhile fun c => Text.isBlank c && c != '\n' && c != '\r'
  match text with
  | [] => some ([], [])
  | c :: rest =>
      if c = '"' ∨ c = '\'' then do
        let (quoted, rest) ← readRun (· == c) rest
        let (further, rest) ← readLine (rest.drop 1)
        pure (quoted ++ further, rest)
      else readLine text

/-- What a document says, one after another. -/
inductive Entry where
  | heading (name : String)
  | assignment (key value : String)
deriving DecidableEq, Repr

/-- The characters without the blanks around them, as a string. -/
def trimmed (text : List Char) : String :=
  String.ofList (Text.trim text)

/-- Read a section's name after its bracket. -/
def readHeading : Reader Entry := fun text => do
  let (name, rest) ← readRun (· == ']') text
  pure (.heading (trimmed name), rest.drop 1)

/-- Read a key, which is not empty, and its value. -/
def readAssignment : Reader Entry := fun text => do
  let (key, rest) ← readRun (fun c => c == '=' || c == ':') text
  let (value, rest) ← readValue (rest.drop 1)
  if (Text.trim key).isEmpty then none
  else pure (.assignment (trimmed key) (trimmed value), rest)

/-- Read the entries of a text.  The flag says that a line begins with it. -/
def entriesUpTo? : Nat → Bool → List Char → Option (List Entry)
  | _, _, [] => some []
  | 0, _, _ => none
  | bound + 1, atStart, text => do
      let (blank, rest) := text.span Text.isBlank
      let atStart := (blank.getLast?.map (· == '\n')).getD atStart
      match rest with
      | [] => pure []
      | c :: after =>
          if c = ';' ∨ c = '#' then
            if atStart then entriesUpTo? bound true ((after.dropWhile (· != '\n')).drop 1)
            else none
          else
            let (entry, rest) ← if c = '[' then readHeading after else readAssignment rest
            let entries ← entriesUpTo? bound false rest
            pure (entry :: entries)

/-- Read the entries of a text. -/
def entries? (text : String) : Option (List Entry) :=
  entriesUpTo? text.toList.length true text.toList

/-- The keys and values before the first section, and what follows them. -/
def leading : List Entry → List (String × Json.Value) × List Entry
  | .assignment key value :: entries =>
      let (members, rest) := leading entries
      ((key, .string value) :: members, rest)
  | rest => ([], rest)

/-- The sections that begin with the first heading among some entries. -/
def sections : List Entry → List (String × Json.Value)
  | [] => []
  | .heading name :: entries => (name, .object (leading entries).1) :: sections entries
  | .assignment _ _ :: entries => sections entries

/-- The members of a document, unless it is malformed: keys with texts, and names of
sections with tables of such. -/
def document? (text : String) : Option Json.Value :=
  (entries? text).map fun entries => .object ((leading entries).1 ++ sections entries)

end BridgeFinder.Ini
