import BridgeFinder.ConfigDocument

/-!
# Confirmed bridges

The bridge that a configuration document describes has the address that was asked, and
an id that is not empty and in which every ASCII letter is a capital.
-/

namespace BridgeFinder

namespace Text

/-- A text contains no small ASCII letter. -/
def IsRaised (text : String) : Prop :=
  ∀ c ∈ text.toList, ¬ ('a' ≤ c ∧ c ≤ 'z')

theorem not_small_toUpper (c : Char) : ¬ ('a' ≤ c.toUpper ∧ c.toUpper ≤ 'z') := by
  have a : 'a'.val.toNat = 97 := rfl
  have z : 'z'.val.toNat = 122 := rfl
  have shift : ('A'.val - 'a'.val).toNat = 4294967264 := rfl
  by_cases small : c.val ≥ 'a'.val ∧ c.val ≤ 'z'.val
  · have raised : c.toUpper.val = c.val + ('A'.val - 'a'.val) := by
      delta Char.toUpper
      rw [dif_pos small]
    simp only [ge_iff_le, Char.le_def, raised, UInt32.le_iff_toNat_le, UInt32.toNat_add]
      at small ⊢
    omega
  · have same : c.toUpper = c := by
      delta Char.toUpper
      rw [dif_neg small]
    rw [same]
    exact small

/-- A text of which every character has been raised contains no small letter. -/
theorem isRaised_ofList_map (characters : List Char) :
    IsRaised (String.ofList (characters.map Char.toUpper)) := by
  intro c member
  rw [String.toList_ofList, List.mem_map] at member
  rcases member with ⟨d, -, rfl⟩
  exact not_small_toUpper d

theorem isRaised_upper (text : String) : IsRaised (upper text) :=
  isRaised_ofList_map text.toList

theorem ofList_ne_empty {characters : List Char} (some : characters ≠ []) :
    String.ofList characters ≠ "" := by
  intro empty
  have none := congrArg String.toList empty
  rw [String.toList_ofList] at none
  exact some none

end Text

open Text (IsRaised)

namespace MacAddress

/-- The id that follows from a hardware address is not empty and has no small letters. -/
theorem uniqueId?_spec {text id : String} (found : uniqueId? text = some id) :
    id ≠ "" ∧ IsRaised id := by
  simp only [uniqueId?] at found
  split at found
  · obtain rfl := Option.some.inj found
    exact ⟨Text.ofList_ne_empty (by simp), Text.isRaised_ofList_map _⟩
  · cases found

end MacAddress

namespace ConfigDocument

/-- The id that a document states is not empty and has no small letters. -/
theorem statedId?_spec {document : ConfigDocument} {id : String}
    (found : document.statedId? = some id) : id ≠ "" ∧ IsRaised id := by
  simp only [statedId?, Option.bind_eq_bind, Option.bind_eq_some_iff] at found
  rcases found with ⟨stated, -, found⟩
  cases trimmed : Text.trim stated.toList with
  | nil => simp [trimmed] at found
  | cons c rest =>
      simp only [trimmed, Option.some.injEq] at found
      subst found
      refine ⟨?_, Text.isRaised_upper _⟩
      exact Text.ofList_ne_empty (by simp)

theorem uniqueId?_spec {document : ConfigDocument} {id : String}
    (found : document.uniqueId? = some id) : id ≠ "" ∧ IsRaised id := by
  simp only [uniqueId?] at found
  split at found
  · obtain rfl := Option.some.inj found
    exact statedId?_spec ‹_›
  · rcases Option.bind_eq_some_iff.mp found with ⟨mac, -, found⟩
    exact MacAddress.uniqueId?_spec found

/-- The bridge that a document describes has the given address and an id of its own. -/
theorem bridge?_spec {document : ConfigDocument} {ip : String} {bridge : Bridge}
    (found : document.bridge? ip = some bridge) :
    bridge.ip = ip ∧ bridge.uniqueId ≠ "" ∧ IsRaised bridge.uniqueId := by
  simp only [bridge?, Option.bind_eq_bind, Option.bind_eq_some_iff] at found
  rcases found with ⟨id, named, found⟩
  split at found
  · obtain rfl := Option.some.inj found
    exact ⟨rfl, uniqueId?_spec named⟩
  · cases found

end ConfigDocument

/-- A confirmed bridge has the address that was asked and an id of its own. -/
theorem confirm?_spec {ip body : String} {bridge : Bridge} (found : confirm? ip body = some bridge) :
    bridge.ip = ip ∧ bridge.uniqueId ≠ "" ∧ IsRaised bridge.uniqueId := by
  simp only [confirm?] at found
  split at found
  · exact ConfigDocument.bridge?_spec found
  · cases found

end BridgeFinder
