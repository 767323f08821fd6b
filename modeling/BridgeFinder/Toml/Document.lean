import BridgeFinder.Toml.Quoted
import BridgeFinder.Toml.Scalar
import BridgeFinder.Toml.Table

/-!
# Documents of TOML

A document is a list of statements, each on lines of its own: a heading opens a
table, and what is assigned after it goes into that table.  Blank lines and comments
stand between the statements and in arrays.
-/

namespace BridgeFinder.Toml

open Text (Reader)

/-! ## Keys -/

/-- A character of a key that is not quoted. -/
def isBareChar (c : Char) : Bool :=
  c.isAlphanum || c == '_' || c == '-'

/-- Read one part of a dotted key. -/
def readKeyPart : Reader String
  | '"' :: rest => readShort '"' rest
  | '\'' :: rest => readShort '\'' rest
  | text =>
      match text.span isBareChar with
      | ([], _) => none
      | (name, rest) => some (String.ofList name, rest)

/-- Read the parts of a dotted key, with the spaces and tabs around them. -/
def readKeyUpTo : Nat → Reader (List String)
  | 0, _ => none
  | bound + 1, text => do
      let (part, rest) ← readKeyPart (skipGap text)
      match skipGap rest with
      | '.' :: rest =>
          let (parts, rest) ← readKeyUpTo bound rest
          pure (part :: parts, rest)
      | rest => pure ([part], rest)

/-- Keys have fewer parts than this, and values are nested less deep. -/
def depthLimit : Nat := 80

/-- Read a dotted key: the path to a table and a name in it. -/
def readKey : Reader (List String × String) := fun text => do
  let (parts, rest) ← readKeyUpTo (depthLimit - 1) text
  let name ← parts.getLast?
  pure ((parts.dropLast, name), rest)

/-! ## Values -/

/-- The rest after the comment at the front, if there is one. -/
def skipComment (text : List Char) : List Char :=
  if text.head? = some '#' then text.dropWhile isText else text

/-- The rest after the blank and the comments at the front. -/
def skipLinesUpTo : Nat → List Char → List Char
  | 0, text => text
  | bound + 1, text =>
      let rest := skipBlank text
      if rest.head? = some '#' then skipLinesUpTo bound (skipComment rest) else rest

/-- The rest after the blank and the comments at the front. -/
def skipLines (text : List Char) : List Char :=
  skipLinesUpTo (text.length + 1) text

/-- Read the elements of an array and its closing bracket. -/
def readElementsUpTo (readElement : Reader Json.Value) : Nat → Reader (List Json.Value)
  | 0, _ => none
  | bound + 1, text =>
      match skipLines text with
      | ']' :: rest => some ([], rest)
      | text => do
          let (element, rest) ← readElement text
          match skipLines rest with
          | ',' :: rest =>
              let (elements, rest) ← readElementsUpTo readElement bound rest
              pure (element :: elements, rest)
          | ']' :: rest => pure ([element], rest)
          | _ => none

/-- Read a key, the sign of equality and a value. -/
def readAssignment (readValue : Reader Json.Value) : Reader Assignment := fun text => do
  let ((path, name), rest) ← readKey text
  let rest ← readMark '=' rest
  let (value, rest) ← readValue (skipGap rest)
  pure (⟨path, name, value⟩, skipGap rest)

/-- Read the assignments between braces and the brace that closes them. -/
def readAssignmentsUpTo (readValue : Reader Json.Value) : Nat → Reader (List Assignment)
  | 0, _ => none
  | bound + 1, text => do
      let (assignment, rest) ← readAssignment readValue text
      match rest with
      | ',' :: rest =>
          let (assignments, rest) ← readAssignmentsUpTo readValue bound rest
          pure (assignment :: assignments, rest)
      | '\x7d' :: rest => pure ([assignment], rest)
      | _ => none

/-- Read the table between braces. -/
def readInlineTable (readValue : Reader Json.Value) : Reader Json.Value := fun text =>
  match skipGap text with
  | '\x7d' :: rest => some (.object [], rest)
  | text => do
      let (assignments, rest) ← readAssignmentsUpTo readValue text.length text
      let members ← Members.ofAssignments assignments
      pure (.object (membersToJson members), rest)

/-- Read a value in which arrays and tables are nested `depth` deep at most. -/
def readValueUpTo : Nat → Reader Json.Value
  | _, '"' :: rest => (readQuoted '"' rest).map fun (text, rest) => (.string text, rest)
  | _, '\'' :: rest => (readQuoted '\'' rest).map fun (text, rest) => (.string text, rest)
  | depth + 1, '[' :: rest =>
      (readElementsUpTo (readValueUpTo depth) rest.length rest).map fun (elements, rest) =>
        (.array elements, rest)
  | depth + 1, '\x7b' :: rest => readInlineTable (readValueUpTo depth) rest
  | _, text => readScalar text

/-- Read a value. -/
def readValue : Reader Json.Value :=
  readValueUpTo (depthLimit - 1)

/-! ## Statements -/

/-- What a line of a document says. -/
inductive Statement where
  | table (path : List String) (name : String)
  | element (path : List String) (name : String)
  | assignment (assignment : Assignment)

/-- Read a statement. -/
def readStatement : Reader Statement
  | '[' :: '[' :: rest => do
      let ((path, name), rest) ← readKey rest
      let rest ← [']', ']'].isPrefixOf? rest
      pure (.element path name, rest)
  | '[' :: rest => do
      let ((path, name), rest) ← readKey rest
      let rest ← readMark ']' rest
      pure (.table path name, rest)
  | text => do
      let (assignment, rest) ← readAssignment readValue text
      pure (.assignment assignment, rest)

/-- The rest after the end of a line: spaces and tabs, a comment perhaps, and a line
break or the end of the text. -/
def endLine? (text : List Char) : Option (List Char) :=
  match skipComment (skipGap text) with
  | [] => some []
  | rest => lineBreak? rest

/-- Read the statements of a text. -/
def statementsUpTo? : Nat → List Char → Option (List Statement)
  | _, [] => some []
  | 0, _ => none
  | bound + 1, text =>
      match endLine? text with
      | some rest => statementsUpTo? bound rest
      | none => do
          let (statement, rest) ← readStatement (skipGap text)
          let rest ← endLine? rest
          let statements ← statementsUpTo? bound rest
          pure (statement :: statements)

/-- Read the statements of a text. -/
def statements? (text : List Char) : Option (List Statement) :=
  statementsUpTo? text.length text

/-! ## Tables -/

/-- A document in the making: the table at its root, and the table that values are
assigned to, if a heading has opened one. -/
structure Draft where
  root : Members := []
  current : Option (List String × String) := none

/-- Assign a value in the table that is open. -/
def Draft.assign (assignment : Assignment) (draft : Draft) : Option Members :=
  match draft.current with
  | none => draft.root.assign assignment
  | some (path, name) =>
      changeAt false (fun members => members.assign assignment) (path ++ [name]) draft.root

/-- Carry out a statement. -/
def Draft.step (draft : Draft) : Statement → Option Draft
  | .table path name =>
      (draft.root.openTable path name).map fun root => ⟨root, some (path, name)⟩
  | .element path name =>
      (draft.root.openElement path name).map fun root => ⟨root, some (path, name)⟩
  | .assignment assignment =>
      (draft.assign assignment).map fun root => { draft with root }

/-- The table of a document, unless it is malformed.  Dates and times are texts. -/
def document? (text : String) : Option Json.Value := do
  let statements ← statements? text.toList
  let draft ← statements.foldlM Draft.step {}
  pure (.object (membersToJson draft.root))

end BridgeFinder.Toml
