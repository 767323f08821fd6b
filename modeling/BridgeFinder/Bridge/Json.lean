import BridgeFinder.Bridge
import BridgeFinder.Json.Value

/-!
# Bridges in JSON

A bridge is written as an object of six strings in a fixed order.  It is read from
such an object, in any order and with further members, or from an array of the six
strings; none of them may be missing.
-/

namespace BridgeFinder.Bridge

open Json (Value Record RecordField Cause)

/-- A bridge as a JSON value. -/
def toJson (bridge : Bridge) : Value :=
  .object
    [("unique_id", .string bridge.uniqueId),
     ("ip", .string bridge.ip),
     ("api_version", .string bridge.apiVersion),
     ("model_id", .string bridge.modelId),
     ("name", .string bridge.name),
     ("swversion", .string bridge.swVersion)]

/-- A bridge of which some texts have been read. -/
structure Draft where
  uniqueId : Option String := none
  ip : Option String := none
  apiVersion : Option String := none
  modelId : Option String := none
  name : Option String := none
  swVersion : Option String := none

/-- A field of a draft that holds a string. -/
def draftField (name : String) (get : Draft → Option String)
    (set : Draft → String → Draft) : RecordField Draft where
  name := name
  isSet draft := (get draft).isSome
  read draft text := do
    let (value, rest) ← Json.string text
    pure (set draft value, rest)

/-- The fields of a bridge, in order. -/
def draftFields : List (RecordField Draft) :=
  [draftField "unique_id" Draft.uniqueId fun draft value => { draft with uniqueId := some value },
   draftField "ip" Draft.ip fun draft value => { draft with ip := some value },
   draftField "api_version" Draft.apiVersion fun draft value =>
     { draft with apiVersion := some value },
   draftField "model_id" Draft.modelId fun draft value => { draft with modelId := some value },
   draftField "name" Draft.name fun draft value => { draft with name := some value },
   draftField "swversion" Draft.swVersion fun draft value =>
     { draft with swVersion := some value }]

/-- A required text of a draft. -/
def required (name : String) : Option String → Except Cause String
  | some value => .ok value
  | none => .error (.missingField name)

/-- A draft with all six texts is a bridge. -/
def ofDraft (draft : Draft) : Except Cause Bridge := do
  let uniqueId ← required "unique_id" draft.uniqueId
  let ip ← required "ip" draft.ip
  let apiVersion ← required "api_version" draft.apiVersion
  let modelId ← required "model_id" draft.modelId
  let name ← required "name" draft.name
  let swVersion ← required "swversion" draft.swVersion
  pure ⟨uniqueId, ip, apiVersion, modelId, name, swVersion⟩

/-- How a bridge is decoded. -/
def record : Record Draft Bridge where
  name := "BridgeDiscoveryResult"
  fields := draftFields
  empty := {}
  ofObject := ofDraft
  ofArray count draft :=
    match ofDraft draft with
    | .ok bridge => .ok bridge
    | .error _ => .error (.wrongLength count "struct BridgeDiscoveryResult with 6 elements")

/-- Read a bridge from a JSON document. -/
def ofJson (document : String) : Except Json.Error Bridge :=
  Json.decode record.read document

end BridgeFinder.Bridge
