import BridgeFinder.Bridge
import BridgeFinder.Json.Value
import BridgeFinder.Text.Character

/-!
# The configuration document of a bridge

A bridge describes itself in a JSON document.  `confirm?` decides whether a
document comes from a bridge: it must give an id, and either a model with an
interface version or a name that says what the device is.
-/

namespace BridgeFinder

/-- The texts of a configuration document.  `none` stands for a member that is
missing or `null`. -/
structure ConfigDocument where
  name : Option String := none
  bridgeId : Option String := none
  mac : Option String := none
  apiVersion : Option String := none
  modelId : Option String := none
  swVersion : Option String := none
deriving DecidableEq, Repr

namespace ConfigDocument

open Json (Record RecordField)

/-- A document that is being read, and the members that have been given. -/
structure Draft where
  given : List String := []
  document : ConfigDocument := {}

/-- The field of a draft that holds an optional text. -/
def draftField (name : String)
    (store : Option String → ConfigDocument → ConfigDocument) : RecordField Draft where
  name := name
  isSet draft := draft.given.contains name
  read draft text := do
    let (value, rest) ← Json.optional Json.string text
    pure ({ given := name :: draft.given, document := store value draft.document }, rest)

/-- How a document is decoded. -/
def record : Record Draft ConfigDocument where
  name := "BridgeConfigResponse"
  fields :=
    [draftField "name" fun value document => { document with name := value },
     draftField "bridgeid" fun value document => { document with bridgeId := value },
     draftField "mac" fun value document => { document with mac := value },
     draftField "apiversion" fun value document => { document with apiVersion := value },
     draftField "modelid" fun value document => { document with modelId := value },
     draftField "swversion" fun value document => { document with swVersion := value }]
  empty := {}
  ofObject draft := .ok draft.document
  ofArray _ draft := .ok draft.document

/-- Read a document. -/
def parse (body : String) : Except Json.Error ConfigDocument :=
  Json.decode record.read body

/-- The id that a document gives outright. -/
def statedId? (document : ConfigDocument) : Option String := do
  let id ← document.bridgeId
  match Text.trim id.toList with
  | [] => none
  | trimmed => some (Text.upper (String.ofList trimmed))

/-- The id of the device: the one that is stated, or else the one that follows
from its hardware address. -/
def uniqueId? (document : ConfigDocument) : Option String :=
  match document.statedId? with
  | some id => some id
  | none => document.mac.bind MacAddress.uniqueId?

/-- The document says that it comes from a bridge. -/
def isIdentified (document : ConfigDocument) : Bool :=
  ((document.modelId.getD "" != "") && (document.apiVersion.getD "" != "")) ||
    Text.occursIn ['h', 'u', 'e'] (Text.lower (document.name.getD "")).toList

/-- The bridge at `ip` that a document describes, if it describes one. -/
def bridge? (ip : String) (document : ConfigDocument) : Option Bridge := do
  let uniqueId ← document.uniqueId?
  if document.isIdentified then
    some
      { uniqueId := uniqueId
        ip := ip
        apiVersion := document.apiVersion.getD ""
        modelId := document.modelId.getD ""
        name := document.name.getD ""
        swVersion := document.swVersion.getD "" }
  else none

end ConfigDocument

/-- The bridge at `ip` that the body of an answer describes, if it describes
one. -/
def confirm? (ip body : String) : Option Bridge :=
  match ConfigDocument.parse body with
  | .ok document => document.bridge? ip
  | .error _ => none

end BridgeFinder
