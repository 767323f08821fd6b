import BridgeFinder.Settings.Schema
import BridgeFinder.Yaml.Data
import BridgeFinder.Yaml.Node.OfTokens

/-!
# Settings in YAML

Settings are the members of a mapping, and a section is a mapping of its own; an
empty scalar counts as an empty mapping or sequence.  A text that stands for no
data at all is refused as malformed, whatever is wrong with it besides; any other
refusal tells the path of the setting, the cause and the place.
-/

namespace BridgeFinder.Settings

open Yaml (Document Mark Node)

/-- A step on the way to a setting. -/
inductive Step where
  | key (name : String)
  /-- A key that is no scalar. -/
  | unknown
  | index (n : Nat)
deriving DecidableEq, Repr

/-- Why a value is refused. -/
inductive YamlCause where
  | wrongType (found : Found) (expected : String)
  | wrongValue (found : Found) (expected : String)
  | tooWide (expected : String)
  | duplicateField (name : String)
  | notAnAddress
deriving DecidableEq, Repr

/-- Why a text does not give settings. -/
inductive YamlError where
  /-- The text stands for no data. -/
  | malformed
  /-- The value at a place, reached by the given steps, is refused. -/
  | refused (path : List Step) (cause : YamlCause) (mark : Mark)
deriving DecidableEq, Repr

/-- The absent value is a unit, and numbers are written positionally. -/
def yamlStyle : Found.Style :=
  ⟨"unit value", Number.Binary64.pointedText⟩

/-- The text of a cause. -/
def YamlCause.message : YamlCause → String
  | wrongType found expected =>
      "invalid type: " ++ found.describe yamlStyle ++ ", expected " ++ expected
  | wrongValue found expected =>
      "invalid value: " ++ found.describe yamlStyle ++ ", expected " ++ expected
  | tooWide expected => "invalid type: integer, expected " ++ expected
  | duplicateField name => "duplicate field `" ++ name ++ "`"
  | notAnAddress => "invalid IPv4 address syntax"

/-- The text of a path; the steps follow the text before them. -/
def pathText (before : String) : List Step → String
  | [] => before
  | .index n :: steps => pathText (before ++ "[" ++ toString n ++ "]") steps
  | step :: steps =>
      let name :=
        match step with
        | .key name => name
        | _ => "?"
      pathText (if before.isEmpty then name else before ++ "." ++ name) steps

/-- The text of an error, if there is anything to say.  The place is not mentioned
when it is the start of the text, and neither is an empty path. -/
def YamlError.message? : YamlError → Option String
  | malformed => none
  | refused path cause mark =>
      let place :=
        if mark = ⟨0, 0⟩ then ""
        else " at line " ++ toString (mark.line + 1) ++ " column " ++ toString (mark.column + 1)
      let path := if path.isEmpty then "" else pathText "" path ++ ": "
      some (path ++ cause.message ++ place)

/-- The node itself, or the one that an alias stands for. -/
def follow (document : Document) (node : Node) : Node :=
  match node with
  | .reference _ number => (document.target? number).getD node
  | node => node

/-- What stands where something else was expected, with a cause that says so. -/
def mismatch (expected : String) : Node → YamlCause
  | .scalar _ scalar =>
      match scalar.resolve with
      | .found value => .wrongType value expected
      | .unmet demand => .wrongValue (.string (String.ofList scalar.text)) demand.name
      | .tooWide => .tooWide expected
  | .sequence _ _ _ => .wrongType .sequence expected
  | .mapping _ _ _ => .wrongType .map expected
  | .reference _ _ => .wrongType .unit expected

/-- A scalar without quotes and without characters. -/
def isEmptyScalar : Node → Bool
  | .scalar _ scalar => scalar.style == .plain && scalar.text.isEmpty
  | _ => false

/-- Refuse a node. -/
def refuse {α : Type} (path : List Step) (cause : YamlCause) (node : Node) :
    Except YamlError α :=
  .error (.refused path cause node.mark)

/-- Read a text, which may be any scalar. -/
def textOf (document : Document) (path : List Step) (expected : String) (node : Node) :
    Except YamlError String :=
  match follow document node with
  | .scalar _ scalar => .ok (String.ofList scalar.text)
  | node => refuse path (mismatch expected node) node

/-- Read a natural number of the given range. -/
def naturalOf (document : Document) (path : List Step) (width : Width) (node : Node) :
    Except YamlError Nat :=
  let node := follow document node
  let number? :=
    match node with
    | .scalar _ scalar =>
        if scalar.style = .plain ∨
            (scalar.style = .literal ∧
              scalar.tag.map Yaml.Tag.text = some (Yaml.coreTag "int")) then
          Yaml.natural? (Number.powerOfTwo 64 - 1) scalar.text
        else none
    | _ => none
  match number? with
  | some n =>
      if n ≤ width.largest then .ok n
      else refuse path (.wrongValue (.integer n) width.name) node
  | none => refuse path (mismatch width.name node) node

/-- Read the texts of a sequence from the given index on. -/
def textsFrom (document : Document) (path : List Step) :
    Nat → List Node → Except YamlError (List String)
  | _, [] => .ok []
  | n, node :: nodes => do
      let text ← textOf document (path ++ [.index n]) "a string" node
      let texts ← textsFrom document path (n + 1) nodes
      pure (text :: texts)

/-- Read the value of a setting and store it. -/
def Leaf.readYaml (document : Document) (path : List Step) (node : Node) (settings : Settings) :
    Leaf → Except YamlError Settings
  | .natural width store => do
      let value ← naturalOf document path width node
      pure (store value settings)
  | .text store => do
      let value ← textOf document path "a string" node
      pure (store value settings)
  | .address store => do
      let text ← textOf document path "IPv4 address" node
      match Net.Ipv4.parse? text with
      | some value => pure (store value settings)
      | none => refuse path .notAnAddress (follow document node)
  | .texts store =>
      match follow document node with
      | .sequence _ _ elements => do
          let values ← textsFrom document path 0 elements
          pure (store values settings)
      | node =>
          if isEmptyScalar node then .ok (store [] settings)
          else refuse path (mismatch "a sequence" node) node

/-- The step that a key makes. -/
def stepOf : Node → Step
  | .scalar _ scalar => .key (String.ofList scalar.text)
  | _ => .unknown

/-- Read the members of a mapping one after another with `read`, which is given the
path of the member and its value.  A member that `read` does not know is skipped,
and one that it knows must not be repeated. -/
def readMembers (document : Document) (path : List Step) (owner : Node)
    (read : String → Option (List Step → Node → Settings → Except YamlError Settings)) :
    List String → Settings → List (Node × Node) → Except YamlError Settings
  | _, settings, [] => .ok settings
  | given, settings, (key, value) :: members => do
      let name ← textOf document path "field identifier" key
      match read name with
      | none => readMembers document path owner read given settings members
      | some readValue =>
          if given.contains name then refuse path (.duplicateField name) owner
          else
            let settings ← readValue (path ++ [stepOf key]) value settings
            readMembers document path owner read (name :: given) settings members

/-- Read a record with the given title. -/
def readRecord (document : Document) (path : List Step) (title : String)
    (read : String → Option (List Step → Node → Settings → Except YamlError Settings))
    (node : Node) (settings : Settings) : Except YamlError Settings :=
  match follow document node with
  | .mapping mark tag members =>
      readMembers document path (.mapping mark tag members) read [] settings members
  | node =>
      if isEmptyScalar node then .ok settings
      else refuse path (mismatch ("struct " ++ title) node) node

/-- Read a section on top of other settings. -/
def Section.readYaml (group : Section) (document : Document) (path : List Step) (node : Node)
    (settings : Settings) : Except YamlError Settings :=
  readRecord document path group.title
    (fun name => (group.leaves.lookup name).map fun leaf path node settings =>
      leaf.readYaml document path node settings) node settings

/-- Read what a name at the top stands for. -/
def Entry.readYaml (document : Document) (path : List Step) (node : Node) (settings : Settings) :
    Entry → Except YamlError Settings
  | .leaf setting => setting.readYaml document path node settings
  | .group leaves => leaves.readYaml document path node settings

/-- Read settings from the root of a document. -/
def ofDocument (document : Document) : Except YamlError Settings :=
  readRecord document [] title
    (fun name => (schema.lookup name).map fun entry path node settings =>
      entry.readYaml document path node settings) document.root {}

/-- Read settings from a text.  A blank text gives the default settings. -/
def ofYaml (text : String) : Except YamlError Settings :=
  if Text.isAllBlank text.toList then .ok {}
  else
    match Yaml.documents? text.toList with
    | some [] => .ok {}
    | some [document] =>
        match ofDocument document with
        | .ok settings => .ok settings
        | .error error => .error (if document.data?.isSome then error else .malformed)
    | _ => .error .malformed

/-- Read settings from the bytes of a file, or from a file that is missing. -/
def ofFile (path : String) (contents : Option (List UInt8)) : Except Failure Settings :=
  match contents with
  | none => .error (.unloadable path (some "No such file or directory (os error 2)"))
  | some bytes =>
      match Text.decode? bytes with
      | none => .error (.unloadable path (some "stream did not contain valid UTF-8"))
      | some text =>
          (ofYaml (String.ofList text)).mapError fun error =>
            .unloadable "<inline>" error.message?

end BridgeFinder.Settings
