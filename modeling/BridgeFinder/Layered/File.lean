import BridgeFinder.Ini
import BridgeFinder.Layered.Environment
import BridgeFinder.Toml.Document
import BridgeFinder.Yaml.Node.OfTokens

/-!
# Files of a layered configuration

A file gives the members of one table.  Its format follows from its extension; a
name without a file may be completed by an extension.
-/

namespace BridgeFinder.Layered

open Number (Binary64)

/-- Why a file does not give a table. -/
inductive FileError where
  /-- There is no file of this name. -/
  | notFound (name : String)
  /-- The text is not well-formed, or the format is not known. -/
  | malformed
  /-- There are several documents in the file. -/
  | documents (count : Nat) (file : String)
  /-- A word for a number that is not one. -/
  | notNumber (text file : String)
  /-- The document is not a table. -/
  | notTable (found : Found) (file : String)
deriving DecidableEq, Repr

/-- Integers are mentioned with their width, and other values as they are. -/
def describe : Found → String
  | .integer value => "64-bit integer `" ++ toString value ++ "`"
  | found => found.describe ⟨"unit value", Binary64.plainText⟩

/-- The text of an error, if there is anything to say. -/
def FileError.message? : FileError → Option String
  | notFound name => some ("configuration file \"" ++ name ++ "\" not found")
  | malformed => none
  | documents count file =>
      some ("Got " ++ toString count ++ " YAML documents, expected 1 in " ++ file)
  | notNumber text file =>
      some ("Parsing " ++ text ++ " as floating point number failed in " ++ file)
  | notTable found file =>
      some ("invalid type: " ++ describe found ++ ", expected a map in " ++ file ++ " in " ++ file)

/-! ## JSON, TOML and INI -/

mutual

/-- A JSON value.  Integers beyond 63 bits are taken as doubles, and of the members
of one name the last one counts. -/
def ofJson (origin : String) : Json.Value → Value
  | .null => .scalar (some origin) .unit
  | .boolean value => .scalar (some origin) (.boolean value)
  | .number (.natural n) =>
      if n < Number.powerOfTwo 63 then .scalar (some origin) (.integer n)
      else .scalar (some origin) (.float (Binary64.ofNat n))
  | .number (.negative n) => .scalar (some origin) (.integer n)
  | .number (.float value) => .scalar (some origin) (.float value)
  | .string text => .scalar (some origin) (.string text)
  | .array elements => .array (some origin) (ofJsonElements origin elements)
  | .object members => .table (some origin) (ofJsonMembers origin members)

/-- The elements of a JSON array. -/
def ofJsonElements (origin : String) : List Json.Value → List Value
  | [] => []
  | element :: elements => ofJson origin element :: ofJsonElements origin elements

/-- The members of a JSON object. -/
def ofJsonMembers (origin : String) : List (String × Json.Value) → List (String × Value)
  | [] => []
  | (name, value) :: members =>
      if (members.lookup name).isSome then ofJsonMembers origin members
      else (name, ofJson origin value) :: ofJsonMembers origin members

end

/-- The value of a document, unless it is malformed. -/
def ofJson? (origin : String) (document : Option Json.Value) : Except FileError Value :=
  match document with
  | some value => .ok (ofJson origin value)
  | none => .error .malformed

/-! ## YAML -/

/-- Read an integer of 64 bits in a base, with a sign perhaps. -/
def basedInteger? (base : Nat) (text : List Char) : Option Int := do
  let (negative, digits) := Binary64.takeSign text
  let n ← Text.naturalInBase? base digits
  if negative then if n ≤ Number.powerOfTwo 63 then some (-(n : Int)) else none
  else if n < Number.powerOfTwo 63 then some n
  else none

/-- Read an integer that begins with the mark of a base or with a plus sign. -/
def markedInteger? : List Char → Option Int
  | '0' :: 'x' :: digits => basedInteger? 16 digits
  | '0' :: 'o' :: digits => basedInteger? 8 digits
  | '+' :: digits => Number.integer? digits
  | _ => none

/-- The text is a number with digits, or one of the words for an infinity and for
what is no number. -/
def isReal (text : List Char) : Bool :=
  [".inf", ".Inf", ".INF", "+.inf", "+.Inf", "+.INF", "-.inf", "-.Inf", "-.INF", ".nan", "NaN",
    ".NAN"].contains (String.ofList text) ||
    (text.any Char.isDigit && (Binary64.ofText? text).isSome)

/-- What a scalar stands for: a value, or the text of a number still to be read. -/
inductive Meaning where
  | value (value : Found)
  | real (text : List Char)
deriving DecidableEq

/-- What a plain scalar without a tag stands for. -/
def plainMeaning (text : List Char) : Meaning :=
  match markedInteger? text with
  | some n => .value (.integer n)
  | none =>
      match String.ofList text with
      | "" => .value .unit
      | "~" => .value .unit
      | "null" => .value .unit
      | "true" => .value (.boolean true)
      | "false" => .value (.boolean false)
      | string =>
          match Number.integer? text with
          | some n => .value (.integer n)
          | none => if isReal text then .real text else .value (.string string)

/-- What a scalar stands for.  A scalar that does not suit its tag is absent. -/
def meaning (scalar : Yaml.Scalar) : Meaning :=
  let string := String.ofList scalar.text
  if scalar.style ≠ .plain then .value (.string string)
  else
    match scalar.tag with
    | none => plainMeaning scalar.text
    | some tag =>
        if tag.expansion ≠ Yaml.coreExpansion then .value (.string string)
        else
          match String.ofList tag.suffix with
          | "bool" =>
              match string with
              | "true" => .value (.boolean true)
              | "false" => .value (.boolean false)
              | _ => .value .unit
          | "int" => .value ((Number.integer? scalar.text).elim .unit .integer)
          | "float" => if isReal scalar.text then .real scalar.text else .value .unit
          | "null" => .value .unit
          | _ => .value (.string string)

/-- A key of a mapping.  Keys of different kinds are different, however they are written. -/
inductive Key where
  | text (written : String)
  | integer (value : Int)
  | boolean (value : Bool)
  /-- A number that is no integer, as it is written. -/
  | real (written : String)
deriving DecidableEq

/-- The name that a key gives to its value. -/
def Key.name : Key → String
  | text written | real written => written
  | integer value => toString value
  | boolean value => if value then "true" else "false"

/-- The key that a node gives, if it can be one. -/
def keyOf? : Yaml.Node → Option Key
  | .scalar _ scalar =>
      match meaning scalar with
      | .real text => some (.real (String.ofList text))
      | .value (.string text) => some (.text text)
      | .value (.integer n) => some (.integer n)
      | .value (.boolean value) => some (.boolean value)
      | .value _ => none
  | _ => none

mutual

/-- The value of a node, given those of the anchors so far.  An alias of an anchor
that is not among them is absent. -/
def ofNode (origin : String) (anchors : List (Nat × Value)) :
    Yaml.Node → Except FileError Value
  | .scalar _ scalar =>
      match meaning scalar with
      | .value value => .ok (.scalar (some origin) value)
      | .real text =>
          match Binary64.ofTextOrWord? text with
          | some value => .ok (.scalar (some origin) (.float value))
          | none => .error (.notNumber (String.ofList text) origin)
  | .reference _ number => .ok ((anchors.lookup number).getD (.scalar (some origin) .unit))
  | .sequence _ _ elements => do
      let elements ← ofNodes origin anchors elements
      pure (.array (some origin) elements)
  | .mapping _ _ members => do
      let members ← ofPairs origin anchors [] members
      pure (.table (some origin) members)

/-- The values of several nodes. -/
def ofNodes (origin : String) (anchors : List (Nat × Value)) :
    List Yaml.Node → Except FileError (List Value)
  | [] => .ok []
  | node :: nodes => do
      let value ← ofNode origin anchors node
      let values ← ofNodes origin anchors nodes
      pure (value :: values)

/-- The members of a mapping.  Keys are scalars, and none of them is repeated.  Of different keys
that give the same name the last one counts. -/
def ofPairs (origin : String) (anchors : List (Nat × Value)) (keys : List Key) :
    List (Yaml.Node × Yaml.Node) → Except FileError (List (String × Value))
  | [] => .ok []
  | (key, value) :: pairs => do
      match keyOf? key with
      | none => throw .malformed
      | some key =>
          if keys.contains key then throw .malformed
          else
            let value ← ofNode origin anchors value
            let members ← ofPairs origin anchors (key :: keys) pairs
            if (members.lookup key.name).isSome then pure members
            else pure ((key.name, value) :: members)

end

/-- The values of the anchors of a document, on top of those so far. -/
def ofAnchors (origin : String) :
    List (Nat × Value) → List Yaml.Anchor → Except FileError (List (Nat × Value))
  | anchors, [] => .ok anchors
  | anchors, anchor :: rest => do
      let value ← ofNode origin anchors anchor.node
      ofAnchors origin ((anchor.number, value) :: anchors) rest

/-- The value of a document. -/
def ofDocument (origin : String) (document : Yaml.Document) : Except FileError Value := do
  let anchors ← ofAnchors origin [] document.anchors
  ofNode origin anchors document.root

/-! ## Files -/

/-- The format of a file. -/
inductive Format where
  | toml
  | json
  | yaml
  | ini
  /-- RON or JSON5.  What such a file gives is left out: the file is found by its name, and none
  counts as well-formed. -/
  | other
deriving DecidableEq, Repr

/-- The extensions of the formats, in the order in which they complete a name. -/
def extensions : List (String × Format) :=
  [("toml", .toml), ("json", .json), ("yaml", .yaml), ("yml", .yaml), ("ini", .ini),
   ("ron", .other), ("json5", .other)]

/-- A scanner finds the documents of a YAML text, unless it is malformed. -/
abbrev Scanner := List Char → Option (List Yaml.Document)

/-- The members of the table that a text gives. -/
def Format.members (scanner : Scanner) (format : Format) (file : String) (text : String) :
    Except FileError (List (String × Value)) := do
  let value ←
    match format with
    | .yaml =>
        match scanner text.toList with
        | none => throw FileError.malformed
        | some [] => pure Value.emptyTable
        | some [document] => ofDocument file document
        | some documents => throw (.documents documents.length file)
    | .json => ofJson? file (Json.Value.parse text).toOption
    | .toml => ofJson? file (Toml.document? text)
    | .ini => ofJson? file (Ini.document? text)
    | .other => throw .malformed
  match value with
  | .table _ members => pure members
  | value => throw (.notTable value.found file)

/-- The files that can be read. -/
structure Files where
  /-- The names of the files, with their texts. -/
  texts : List (String × String) := []
  /-- The scanner of the library that reads YAML files.  It is another library than the one that
  reads a document by itself, and the two need not break lines at the same characters, say, or find
  a comment at the same places.  A text in which they do not differ has the documents that the other
  one finds. -/
  scanner : Scanner := Yaml.documents?

/-- The text of a file without the byte order mark at its front. -/
def withoutMark (text : String) : String :=
  match text.toList with
  | c :: rest => if c = Yaml.byteOrderMark then String.ofList rest else text
  | [] => text

/-- A name without the steps that stay where they are. -/
def plainName (name : String) : String :=
  let steps := (name.toList.splitOn '/').filter fun step => step ≠ [] ∧ step ≠ ['.']
  "/".intercalate (steps.map String.ofList)

/-- The extension of a name: what follows the last point of its last step, unless
that is the first character of the step. -/
def extension (name : String) : String :=
  let step := ((name.toList.splitOn '/').getLast?).getD []
  let parts := step.splitOn '.'
  if parts.length ≤ 1 ∨ (parts.length = 2 ∧ parts.head? = some []) then ""
  else String.ofList (parts.getLast?.getD [])

/-- The text of a file. -/
def Files.read? (files : Files) (name : String) : Option String :=
  (files.texts.lookup name).map withoutMark

/-- Read the members of the table in the file that a path names. -/
def Files.members (files : Files) (path : String) :
    Except FileError (List (String × Value)) :=
  let name := plainName path
  match files.read? name with
  | some text =>
      match extensions.lookup (extension name) with
      | some format => format.members files.scanner name text
      | none => .error .malformed
  | none =>
      let completed := extensions.findSome? fun (extension, format) =>
        let name := name ++ "." ++ extension
        (files.read? name).map fun text => (name, format, text)
      match completed with
      | some (name, format, text) => format.members files.scanner name text
      | none => .error (.notFound path)

end BridgeFinder.Layered
