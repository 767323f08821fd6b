import BridgeFinder.Json.Decoder

/-!
# JSON values and how they are written

`Value` is a JSON document as a tree.  Members of an object keep the order in
which they are listed.  A tree is written compactly, without blanks, or over
several lines with two blanks for each level; strings escape the quotation mark,
the backslash and the control characters, and nothing else.
-/

namespace BridgeFinder.Json

/-- A JSON document as a tree. -/
inductive Value where
  | null
  | boolean (value : Bool)
  | number (value : Numeral)
  | string (value : String)
  | array (elements : List Value)
  | object (members : List (String × Value))

namespace Value

/-- A natural number as a value. -/
def natural (n : Nat) : Value :=
  number (.natural n)

/-- An optional value, absent as `null`. -/
def ofOption {α : Type} (toValue : α → Value) : Option α → Value
  | some value => toValue value
  | none => null

/-- The member of an object of the given name. -/
def member? (name : String) : Value → Option Value
  | object members => members.lookup name
  | _ => none

end Value

/-! ## Printing -/

/-- The lower-case hexadecimal digit of a number below sixteen. -/
def hexDigit (n : Nat) : Char :=
  Nat.digitChar n

/-- How a character is written inside a string. -/
def escapeChar (c : Char) : List Char :=
  if c = '"' then ['\\', '"']
  else if c = '\\' then ['\\', '\\']
  else if c.toNat = 0x08 then ['\\', 'b']
  else if c.toNat = 0x09 then ['\\', 't']
  else if c.toNat = 0x0A then ['\\', 'n']
  else if c.toNat = 0x0C then ['\\', 'f']
  else if c.toNat = 0x0D then ['\\', 'r']
  else if c.toNat < 0x20 then
    ['\\', 'u', '0', '0', hexDigit (c.toNat / 16), hexDigit (c.toNat % 16)]
  else [c]

/-- Write a string between quotation marks. -/
def quote (text : String) : List Char :=
  '"' :: text.toList.flatMap escapeChar ++ ['"']

/-- Write a number. -/
def Numeral.text : Numeral → String
  | natural value => toString value
  | negative value => toString value
  | float value => value.jsonText

mutual

/-- Write a value without blanks. -/
def Value.compactChars : Value → List Char
  | .null => ['n', 'u', 'l', 'l']
  | .boolean true => ['t', 'r', 'u', 'e']
  | .boolean false => ['f', 'a', 'l', 's', 'e']
  | .number value => value.text.toList
  | .string text => quote text
  | .array [] => ['[', ']']
  | .array (element :: elements) =>
      '[' :: element.compactChars ++ compactElements elements
  | .object [] => ['\x7b', '\x7d']
  | .object ((name, value) :: members) =>
      '\x7b' :: quote name ++ ':' :: value.compactChars ++ compactMembers members

/-- Write the elements after the first one, and the closing bracket. -/
def compactElements : List Value → List Char
  | [] => [']']
  | element :: elements => ',' :: element.compactChars ++ compactElements elements

/-- Write the members after the first one, and the closing brace. -/
def compactMembers : List (String × Value) → List Char
  | [] => ['\x7d']
  | (name, value) :: members =>
      ',' :: quote name ++ ':' :: value.compactChars ++ compactMembers members

end

/-- Write a value without blanks. -/
def Value.compact (value : Value) : String :=
  String.ofList value.compactChars

/-- A new line, indented by `level` steps of two blanks. -/
def newLine (level : Nat) : List Char :=
  '\n' :: List.replicate (2 * level) ' '

mutual

/-- Write a value over several lines, as part of a document at the given level. -/
def Value.prettyChars (level : Nat) : Value → List Char
  | .null => ['n', 'u', 'l', 'l']
  | .boolean true => ['t', 'r', 'u', 'e']
  | .boolean false => ['f', 'a', 'l', 's', 'e']
  | .number value => value.text.toList
  | .string text => quote text
  | .array [] => ['[', ']']
  | .array (element :: elements) =>
      '[' :: newLine (level + 1) ++ element.prettyChars (level + 1) ++
        prettyElements level elements
  | .object [] => ['\x7b', '\x7d']
  | .object ((name, value) :: members) =>
      '\x7b' :: newLine (level + 1) ++ quote name ++ ':' :: ' ' ::
        value.prettyChars (level + 1) ++ prettyMembers level members

/-- Write the elements after the first one, and the closing bracket. -/
def prettyElements (level : Nat) : List Value → List Char
  | [] => newLine level ++ [']']
  | element :: elements =>
      ',' :: newLine (level + 1) ++ element.prettyChars (level + 1) ++
        prettyElements level elements

/-- Write the members after the first one, and the closing brace. -/
def prettyMembers (level : Nat) : List (String × Value) → List Char
  | [] => newLine level ++ ['\x7d']
  | (name, value) :: members =>
      ',' :: newLine (level + 1) ++ quote name ++ ':' :: ' ' ::
        value.prettyChars (level + 1) ++ prettyMembers level members

end

/-- Write a value over several lines. -/
def Value.pretty (value : Value) : String :=
  String.ofList (value.prettyChars 0)

/-! ## Reading -/

mutual

/-- Read one value of any shape.  The first argument bounds the number of
tokens. -/
def readValueUpTo : Nat → Reader Value
  | 0, text => .error (.within .endOfValue text)
  | bound + 1, text => do
      match ← nextToken text with
      | 'n' :: rest => pure (.null, ← readWord ['u', 'l', 'l'] rest)
      | 't' :: rest => pure (.boolean true, ← readWord ['r', 'u', 'e'] rest)
      | 'f' :: rest => pure (.boolean false, ← readWord ['a', 'l', 's', 'e'] rest)
      | '-' :: rest =>
          let (numeral, rest) ← readUnsigned true rest
          pure (.number numeral, rest)
      | '"' :: rest =>
          let (string, rest) ← readString rest
          pure (.string string, rest)
      | '[' :: rest =>
          let (elements, rest) ← readElementsUpTo bound true rest
          pure (.array elements, rest)
      | '\x7b' :: rest =>
          let (members, rest) ← readMembersUpTo bound true rest
          pure (.object members, rest)
      | c :: rest =>
          if c.isDigit then
            let (numeral, rest) ← readUnsigned false (c :: rest)
            pure (.number numeral, rest)
          else throw (.within .expectedValue (c :: rest))
      | [] => throw (.within .endOfValue [])

/-- Read the remaining elements of an array and its bracket. -/
def readElementsUpTo : Nat → Bool → Reader (List Value)
  | 0, _, text => .error (.within .endOfList text)
  | bound + 1, first, text => do
      match ← nextElement? first text with
      | none => pure ([], (skipSpace text).drop 1)
      | some rest =>
          let (value, rest) ← readValueUpTo bound rest
          let (values, rest) ← readElementsUpTo bound false rest
          pure (value :: values, rest)

/-- Read the remaining members of an object and its brace. -/
def readMembersUpTo : Nat → Bool → Reader (List (String × Value))
  | 0, _, text => .error (.within .endOfObject text)
  | bound + 1, first, text => do
      match ← nextKey? first text with
      | none => pure ([], (skipSpace text).drop 1)
      | some rest =>
          let (name, rest) ← readString (rest.drop 1)
          let rest ← readColon rest
          let (value, rest) ← readValueUpTo bound rest
          let (members, rest) ← readMembersUpTo bound false rest
          pure ((name, value) :: members, rest)

end

/-- Read one value of any shape. -/
def readValue : Reader Value := fun text =>
  readValueUpTo (2 * text.length + 2) text

/-- Read a document as a tree. -/
def Value.parse (document : String) : Except Error Value :=
  decode readValue document

end BridgeFinder.Json
