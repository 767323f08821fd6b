import BridgeFinder.CommandLine.Report
import BridgeFinder.Proofs.Bridge.Json
import BridgeFinder.Proofs.Json.Parsing

/-!
# What a report tells

The report of a search for programs is one JSON document, from which the code and the bridges are
read back, whatever texts the bridges have.
-/

namespace BridgeFinder.CommandLine

open Json (Layout Reads Value)

section

variable {write : Nat → Value → List Char}

/-- An entry of a report is read for its bridge. -/
theorem reads_bridgeEntry (layout : ∀ level, Layout (write level) (write (level + 1)))
    (level : Nat) (bridge : Bridge) :
    Reads Bridge.record.read (write level (bridgeEntry bridge)) bridge := by
  have isText := Bridge.isText_write layout (level + 1)
  rcases (layout level).object _ with ⟨body, same, object⟩
  rw [bridgeEntry, same]
  refine Json.reads_record object ?_ bridge.ofDraft_wholeDraft
  apply Bridge.takes_text rfl rfl (isText bridge.apiVersion)
  apply Bridge.takes_text rfl rfl (isText bridge.ip)
  apply Bridge.takes_text rfl rfl (isText bridge.modelId)
  apply Bridge.takes_text rfl rfl (isText bridge.name)
  apply Bridge.takes_text rfl rfl (isText bridge.swVersion)
  apply Bridge.takes_text rfl rfl (isText bridge.uniqueId)
  exact .nil _

theorem isTextual_bridgeEntry (bridge : Bridge) : (bridgeEntry bridge).IsTextual := by
  apply Value.IsTextual.object
  simp only [List.forall_mem_cons]
  exact ⟨.string _, .string _, .string _, .string _, .string _, .string _, nofun⟩

/-- The entries of a report are read for its bridges, in their order. -/
theorem reads_bridgeEntries (layout : ∀ level, Layout (write level) (write (level + 1)))
    (level : Nat) (bridges : List Bridge) :
    Reads (Json.list Bridge.record.read) (write level (.array (bridges.map bridgeEntry)))
      bridges := by
  rcases (layout level).array (bridges.map bridgeEntry) with ⟨text, same, elements⟩
  rw [same]
  apply Json.reads_list elements
  · rw [List.forall₂_map_left_iff, List.forall₂_map_left_iff, List.forall₂_same]
    exact fun bridge _ => reads_bridgeEntry layout (level + 1) bridge
  · rw [List.forall_mem_map, List.forall_mem_map]
    exact fun bridge _ => (isTextual_bridgeEntry bridge).opens (layout (level + 1))

end

theorem isTextual_document (bridges : List Bridge) (code : ReturnCode) :
    (document bridges code).IsTextual := by
  apply Value.IsTextual.object
  simp only [List.forall_mem_cons]
  refine ⟨.array ?_, .string _, nofun⟩
  rw [List.forall_mem_map]
  exact fun bridge _ => isTextual_bridgeEntry bridge

/-- A report is one JSON document. -/
theorem parse_report (bridges : List Bridge) (code : ReturnCode) :
    Value.parse (report true bridges code) = .ok (document bridges code) := by
  apply (isTextual_document bridges code).parse_eq Json.layout_pretty
    (show Json.IsBlank ['\n'] by decide)
  simp [report, Value.pretty]

/-- A text is one document that tells the name of a code and lists bridges in their order. -/
def Tells (text : String) (code : ReturnCode) (bridges : List Bridge) : Prop :=
  ∃ tree listed, Value.parse text = .ok tree ∧ tree.member? "code" = some (.string code.name) ∧
    tree.member? "bridges" = some listed ∧
    Json.decode (Json.list Bridge.record.read) listed.compact = .ok bridges ∧
    Json.decode (Json.list Bridge.record.read) listed.pretty = .ok bridges

/-- A report tells the code and the bridges that it was made of. -/
theorem tells_report (bridges : List Bridge) (code : ReturnCode) :
    Tells (report true bridges code) code bridges :=
  ⟨document bridges code, .array (bridges.map bridgeEntry), parse_report bridges code, rfl, rfl,
    Json.decode_ofList (reads_bridgeEntries (fun _ => Json.layout_compact) 0 bridges),
    Json.decode_ofList (reads_bridgeEntries Json.layout_pretty 0 bridges)⟩

/-- Whatever texts they have, bridges are read back from what is printed of them, so that different
bridges are printed differently; what was read from some document is read again from what is printed
of it; and a report tells the code and the bridges that it was made of. -/
theorem printed_account :
    (∀ bridge : Bridge, Bridge.ofJson bridge.toJson.compact = .ok bridge ∧
      Bridge.ofJson bridge.toJson.pretty = .ok bridge) ∧
    (∀ bridge other : Bridge, bridge.toJson.compact = other.toJson.compact ↔ bridge = other) ∧
    (∀ text bridge, Bridge.ofJson text = .ok bridge →
      Bridge.ofJson bridge.toJson.compact = .ok bridge) ∧
    ∀ bridges code, Tells (report true bridges code) code bridges :=
  ⟨fun bridge => ⟨bridge.ofJson_compact, bridge.ofJson_pretty⟩,
    fun _ _ => Bridge.compact_toJson_inj, fun _ bridge _ => bridge.ofJson_compact, tells_report⟩

end BridgeFinder.CommandLine
