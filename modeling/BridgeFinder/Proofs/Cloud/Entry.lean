import BridgeFinder.Cloud
import BridgeFinder.Proofs.Json.Labelled

/-!
# Entries of the list

An entry of the list that the cloud keeps is made of two optional texts, an id and an address.  It
names a candidate exactly if its address is given and not empty.
-/

namespace BridgeFinder.Cloud

open Json (Labelling)

namespace Entry

/-- The texts that an entry may give. -/
inductive Label where
  | id
  | address
deriving DecidableEq

namespace Label

/-- The name of the member of an object. -/
def key : Label → String
  | id => "id"
  | address => "internalipaddress"

/-- The text of an entry. -/
def get : Label → Entry → Option String
  | id => Entry.id
  | address => Entry.address

/-- The entry with another text. -/
def put : Label → Option String → Entry → Entry
  | id, text, entry => { entry with id := text }
  | address, text, entry => { entry with address := text }

/-- The labels of the texts that an entry is made of. -/
def labelling : Labelling Label record where
  labels := [id, address]
  key := key
  get := get
  value := Draft.entry
  given := Draft.given
  store label text draft := ⟨label.key :: draft.given, label.put text draft.entry⟩
  nodup := by decide
  complete label := by cases label <;> decide
  key_inj {label other} := by cases label <;> cases other <;> decide
  ext_get {entry other} same := by
    cases entry
    cases other
    simp only [mk.injEq]
    exact ⟨same id, same address⟩
  get_store label _ _ := by cases label <;> rfl
  get_store_of_ne {label other} _ _ apart := by
    cases label <;> cases other <;> first | rfl | exact absurd rfl apart
  given_store _ _ _ := rfl
  given_empty := rfl
  get_empty label := by cases label <;> rfl
  fields_eq := rfl
  ofObject_eq _ := rfl
  ofArray_eq _ _ := rfl

end Label

/-- The names of the members of an entry. -/
def names : List String :=
  Label.labelling.names

theorem candidate?_eq_some {entry : Entry} {bridge : Bridge} :
    entry.candidate? = some bridge ↔ ∃ ip, entry.address = some ip ∧ ip ≠ "" ∧
      bridge = .hinted ip (Text.upper (entry.id.getD "")) "" := by
  rw [candidate?]
  cases entry.address with
  | none => simp
  | some ip =>
      by_cases empty : ip = ""
      · simp [empty]
      · simp [empty, eq_comm]

end Entry

/-- What a list of entries comes to. -/
theorem candidates_eq_ok {body : String} {bridges : List Bridge} :
    candidates body = .ok bridges ↔ ∃ entries,
      Json.decode (Json.list Entry.record.read) body = .ok entries ∧
        entries.filterMap Entry.candidate? = bridges := by
  rw [candidates]
  cases Json.decode (Json.list Entry.record.read) body <;> simp [Except.map]

end BridgeFinder.Cloud
