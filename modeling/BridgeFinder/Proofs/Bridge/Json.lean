import BridgeFinder.Bridge.Json
import BridgeFinder.Proofs.Json.Printing
import BridgeFinder.Proofs.Json.Reading

/-!
# Bridges from JSON

The six texts of a bridge may be any texts.  Printed as strings, in whatever order and with whatever
blanks around them, they are read back as they were.
-/

namespace BridgeFinder.Bridge

open Json (IsText Layout Reads Takes Value reads_map)

section

variable {draft last : Draft} {name value : String} {get : Draft → Option String}
  {set : Draft → String → Draft} {text : List Char} {members : List (String × List Char)}

/-- The draft that has all texts of a bridge. -/
def wholeDraft (bridge : Bridge) : Draft :=
  ⟨some bridge.uniqueId, some bridge.ip, some bridge.apiVersion, some bridge.modelId,
    some bridge.name, some bridge.swVersion⟩

@[simp]
theorem ofDraft_wholeDraft (bridge : Bridge) : ofDraft bridge.wholeDraft = .ok bridge :=
  rfl

/-- A spelled text is taken into a draft that has none in its place yet. -/
theorem takes_text
    (found : Json.fieldNamed? draftFields name = some (draftField name get set))
    (isFree : get draft = none) (isText : IsText value text)
    (others : Takes draftFields (set draft value) members last) :
    Takes draftFields draft ((name, text) :: members) last := by
  refine .known found ?_ (reads_map isText.reads (set draft)) others
  simp [draftField, isFree]

end

section

variable {write : Nat → Value → List Char}

/-- A printed text spells it. -/
theorem isText_write (layout : ∀ level, Layout (write level) (write (level + 1))) (level : Nat)
    (text : String) : IsText text (write level (.string text)) := by
  rw [(layout level).string]
  exact Json.isText_quote text

/-- A printed bridge is read as it was. -/
theorem reads_toJson (layout : ∀ level, Layout (write level) (write (level + 1))) (level : Nat)
    (bridge : Bridge) : Reads record.read (write level bridge.toJson) bridge := by
  have isText := isText_write layout (level + 1)
  rcases (layout level).object _ with ⟨body, same, object⟩
  rw [toJson, same]
  refine Json.reads_record object ?_ bridge.ofDraft_wholeDraft
  apply takes_text rfl rfl (isText bridge.uniqueId)
  apply takes_text rfl rfl (isText bridge.ip)
  apply takes_text rfl rfl (isText bridge.apiVersion)
  apply takes_text rfl rfl (isText bridge.modelId)
  apply takes_text rfl rfl (isText bridge.name)
  apply takes_text rfl rfl (isText bridge.swVersion)
  exact .nil _

end

/-- A bridge is read from what is printed of it. -/
theorem ofJson_compact (bridge : Bridge) : ofJson bridge.toJson.compact = .ok bridge :=
  Json.decode_ofList (reads_toJson (fun _ => Json.layout_compact) 0 bridge)

theorem ofJson_pretty (bridge : Bridge) : ofJson bridge.toJson.pretty = .ok bridge :=
  Json.decode_ofList (reads_toJson Json.layout_pretty 0 bridge)

/-- Different bridges are printed differently. -/
theorem compact_toJson_inj {bridge other : Bridge} :
    bridge.toJson.compact = other.toJson.compact ↔ bridge = other := by
  constructor
  · intro same
    have read := bridge.ofJson_compact
    rw [same, other.ofJson_compact] at read
    exact (Except.ok.inj read).symm
  · rintro rfl
    rfl

end BridgeFinder.Bridge
