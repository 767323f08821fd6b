import BridgeFinder.Proofs.Layered.Texts
import BridgeFinder.Proofs.Yaml.Aliases

/-!
# Values of nodes

The nodes of a document that has no aliases give values unless a key is not a text of its own or a
word for a number cannot be read.  A mapping gives a table with a member for each key.  A document
with aliases has the value of the node that it stands for.
-/

namespace BridgeFinder.Yaml

mutual

/-- Decide whether two nodes are the same. -/
def Node.decideEq : (one other : Node) → Decidable (one = other)
  | .scalar m v, .scalar n w => decidable_of_iff (m = n ∧ v = w) (by simp)
  | .reference m v, .reference n w => decidable_of_iff (m = n ∧ v = w) (by simp)
  | .sequence m t v, .sequence n u w =>
      match decEq (m, t) (n, u), Node.decideEqAll v w with
      | isTrue same, isTrue all => isTrue (by cases same; cases all; rfl)
      | isFalse apart, _ => isFalse fun eq => by cases eq; exact apart rfl
      | _, isFalse apart => isFalse fun eq => by cases eq; exact apart rfl
  | .mapping m t v, .mapping n u w =>
      match decEq (m, t) (n, u), Node.decideEqMembers v w with
      | isTrue same, isTrue all => isTrue (by cases same; cases all; rfl)
      | isFalse apart, _ => isFalse fun eq => by cases eq; exact apart rfl
      | _, isFalse apart => isFalse fun eq => by cases eq; exact apart rfl
  | .scalar _ _, .sequence _ _ _ => isFalse nofun
  | .scalar _ _, .mapping _ _ _ => isFalse nofun
  | .scalar _ _, .reference _ _ => isFalse nofun
  | .sequence _ _ _, .scalar _ _ => isFalse nofun
  | .sequence _ _ _, .mapping _ _ _ => isFalse nofun
  | .sequence _ _ _, .reference _ _ => isFalse nofun
  | .mapping _ _ _, .scalar _ _ => isFalse nofun
  | .mapping _ _ _, .sequence _ _ _ => isFalse nofun
  | .mapping _ _ _, .reference _ _ => isFalse nofun
  | .reference _ _, .scalar _ _ => isFalse nofun
  | .reference _ _, .sequence _ _ _ => isFalse nofun
  | .reference _ _, .mapping _ _ _ => isFalse nofun

/-- Decide whether two lists of nodes are the same. -/
def Node.decideEqAll : (one other : List Node) → Decidable (one = other)
  | [], [] => isTrue rfl
  | [], _ :: _ => isFalse nofun
  | _ :: _, [] => isFalse nofun
  | v :: vs, w :: ws =>
      match Node.decideEq v w, Node.decideEqAll vs ws with
      | isTrue same, isTrue all => isTrue (same ▸ all ▸ rfl)
      | isFalse apart, _ => isFalse fun eq => apart (List.cons.inj eq).1
      | _, isFalse apart => isFalse fun eq => apart (List.cons.inj eq).2

/-- Decide whether two lists of members are the same. -/
def Node.decideEqMembers : (one other : List (Node × Node)) → Decidable (one = other)
  | [], [] => isTrue rfl
  | [], _ :: _ => isFalse nofun
  | _ :: _, [] => isFalse nofun
  | (k, v) :: vs, (l, w) :: ws =>
      match Node.decideEq k l, Node.decideEq v w, Node.decideEqMembers vs ws with
      | isTrue named, isTrue same, isTrue all => isTrue (named ▸ same ▸ all ▸ rfl)
      | isFalse apart, _, _ => isFalse fun eq => apart (Prod.mk.inj (List.cons.inj eq).1).1
      | _, isFalse apart, _ => isFalse fun eq => apart (Prod.mk.inj (List.cons.inj eq).1).2
      | _, _, isFalse apart => isFalse fun eq => apart (List.cons.inj eq).2

end

instance : DecidableEq Node :=
  Node.decideEq

deriving instance DecidableEq for Anchor, Document

end BridgeFinder.Yaml

namespace BridgeFinder.Layered

open Yaml (Node)

/-- The text of a key, as it is written. -/
def keyText : Node → String
  | .scalar _ scalar => String.ofList scalar.text
  | _ => ""

/-- The keys of a mapping are taken as they are written, and none is repeated. -/
structure Named (pairs : List (Node × Node)) : Prop where
  keys : ∀ pair ∈ pairs, (keyOf? pair.1).map Key.name = some (keyText pair.1)
  distinct : (pairs.map fun pair => keyText pair.1).Nodup

theorem Named.later {pair : Node × Node} {pairs : List (Node × Node)}
    (named : Named (pair :: pairs)) : Named pairs :=
  ⟨fun pair member => named.keys pair (List.mem_cons_of_mem _ member),
    (List.nodup_cons.mp named.distinct).2⟩

/-- What a scalar is taken for, unless it is a word for a number that cannot be read. -/
def takenFor? (scalar : Yaml.Scalar) : Option Found :=
  match meaning scalar with
  | .value found => some found
  | .real text => (Number.Binary64.ofTextOrWord? text).map .float

/-- A node without aliases that has a value, whatever it is. -/
inductive Readable : Node → Prop where
  | scalar (mark : Yaml.Mark) {scalar : Yaml.Scalar} (taken : (takenFor? scalar).isSome) :
      Readable (.scalar mark scalar)
  | sequence (mark : Yaml.Mark) (tag : Option Yaml.Tag) {elements : List Node}
      (each : ∀ element ∈ elements, Readable element) : Readable (.sequence mark tag elements)
  | mapping (mark : Yaml.Mark) (tag : Option Yaml.Tag) {pairs : List (Node × Node)}
      (named : Named pairs) (each : ∀ pair ∈ pairs, Readable pair.2) :
      Readable (.mapping mark tag pairs)

/-- The value of a node without aliases; what has none counts as absent. -/
def valueOf (origin : String) (node : Node) : Value :=
  match ofNode origin [] node with
  | .ok value => value
  | .error _ => .absent

section

variable {origin : String} {node : Node} {pairs : List (Node × Node)} {elements : List Node}

/-- The node has a value. -/
def HasValue (origin : String) (node : Node) : Prop :=
  ofNode origin [] node = .ok (valueOf origin node)

theorem hasValue_of_ok {value : Value} (read : ofNode origin [] node = .ok value) :
    HasValue origin node ∧ valueOf origin node = value := by
  have same : valueOf origin node = value := by rw [valueOf, read]
  exact ⟨read.trans (congrArg _ same.symm), same⟩

theorem ofNodes_eq (each : ∀ element ∈ elements, HasValue origin element) :
    ofNodes origin [] elements = .ok (elements.map (valueOf origin)) := by
  induction elements with
  | nil => rfl
  | cons element elements ih =>
      have first := each element List.mem_cons_self
      have others := ih fun element member => each element (List.mem_cons_of_mem _ member)
      rw [HasValue] at first
      rw [ofNodes, first, others]
      rfl

/-- The members that a mapping gives. -/
def membersOf (origin : String) (pairs : List (Node × Node)) : List (String × Value) :=
  pairs.map fun pair => (keyText pair.1, valueOf origin pair.2)

theorem map_fst_membersOf (origin : String) (pairs : List (Node × Node)) :
    (membersOf origin pairs).map Prod.fst = pairs.map fun pair => keyText pair.1 := by
  simp [membersOf]

theorem lookup_membersOf_eq_none {name : String} (absent : ∀ pair ∈ pairs, keyText pair.1 ≠ name) :
    (membersOf origin pairs).lookup name = none := by
  rw [List.lookup_eq_none_iff]
  intro member there
  rcases List.mem_map.mp there with ⟨pair, isPair, rfl⟩
  simpa using (absent pair isPair).symm

theorem ofPairs_eq (named : Named pairs) (each : ∀ pair ∈ pairs, HasValue origin pair.2)
    {keys : List Key} (fresh : ∀ pair ∈ pairs, ∀ key ∈ keys, key.name ≠ keyText pair.1) :
    ofPairs origin [] keys pairs = .ok (membersOf origin pairs) := by
  induction pairs generalizing keys with
  | nil => rfl
  | cons pair pairs ih =>
      rcases pair with ⟨node, value⟩
      rcases Option.map_eq_some_iff.mp (named.keys _ List.mem_cons_self) with ⟨key, isKey, name⟩
      have first := each _ List.mem_cons_self
      have new : keys.contains key = false := by
        simpa using fun old => fresh _ List.mem_cons_self key old name
      have others : ∀ pair ∈ pairs, keyText pair.1 ≠ keyText node := by
        intro pair member same
        exact (List.nodup_cons.mp named.distinct).1 (List.mem_map.mpr ⟨pair, member, same⟩)
      have apart : ∀ pair ∈ pairs, ∀ other ∈ key :: keys, other.name ≠ keyText pair.1 := by
        intro pair member other there
        rcases List.mem_cons.mp there with rfl | old
        · exact name.trans_ne (others pair member).symm
        · exact fresh pair (List.mem_cons_of_mem _ member) other old
      have rest := ih named.later (fun pair member => each pair (List.mem_cons_of_mem _ member))
        apart
      rw [HasValue] at first
      simp only [ofPairs, isKey, new, Bool.false_eq_true, if_false, first, rest, bind, Except.bind,
        lookup_membersOf_eq_none others, Option.isSome_none, name]
      rfl

/-- The value of a mapping. -/
theorem hasValue_mapping (origin : String) (mark : Yaml.Mark) (tag : Option Yaml.Tag)
    (named : Named pairs) (each : ∀ pair ∈ pairs, HasValue origin pair.2) :
    HasValue origin (.mapping mark tag pairs) ∧
      valueOf origin (.mapping mark tag pairs) = .table (some origin) (membersOf origin pairs) := by
  apply hasValue_of_ok
  rw [ofNode, ofPairs_eq named each (by simp)]
  rfl

/-- The value of a sequence. -/
theorem hasValue_sequence (origin : String) (mark : Yaml.Mark) (tag : Option Yaml.Tag)
    (each : ∀ element ∈ elements, HasValue origin element) :
    HasValue origin (.sequence mark tag elements) ∧
      valueOf origin (.sequence mark tag elements) =
        .array (some origin) (elements.map (valueOf origin)) := by
  apply hasValue_of_ok
  rw [ofNode, ofNodes_eq each]
  rfl

/-- The value of a scalar. -/
theorem hasValue_scalar (origin : String) (mark : Yaml.Mark) {scalar : Yaml.Scalar} {found : Found}
    (taken : takenFor? scalar = some found) :
    HasValue origin (.scalar mark scalar) ∧
      valueOf origin (.scalar mark scalar) = .scalar (some origin) found := by
  apply hasValue_of_ok
  rw [takenFor?] at taken
  rw [ofNode]
  rcases meant : meaning scalar with value | text <;> rw [meant] at taken
  · cases taken
    rfl
  · rcases Option.map_eq_some_iff.mp taken with ⟨value, read, rfl⟩
    simp only [read]

/-- A readable node has a value. -/
theorem Readable.hasValue (readable : Readable node) (origin : String) :
    HasValue origin node := by
  induction readable with
  | scalar mark taken =>
      rcases Option.isSome_iff_exists.mp taken with ⟨found, taken⟩
      exact (hasValue_scalar origin mark taken).1
  | sequence mark tag _ ih => exact (hasValue_sequence origin mark tag ih).1
  | mapping mark tag named _ ih => exact (hasValue_mapping origin mark tag named ih).1

end

/-! ## Aliases -/

section

variable {origin : String} {known more : List (Nat × Node)}

/-- The values of the nodes that are known. -/
def valuesOf (origin : String) (known : List (Nat × Node)) : List (Nat × Value) :=
  known.map fun entry => (entry.1, valueOf origin entry.2)

theorem ofNode_of_lookup (values : ∀ entry ∈ known, HasValue origin entry.2) {number : Nat}
    {mark : Yaml.Mark} {target : Node} (found : known.lookup number = some target) :
    ofNode origin (valuesOf origin known) (.reference mark number) = ofNode origin [] target := by
  induction known with
  | nil => cases found
  | cons entry known ih =>
      rw [ofNode, valuesOf, List.map_cons, List.lookup_cons]
      rw [List.lookup_cons] at found
      cases same : number == entry.1 <;> rw [same] at found
      · have later := ih (fun entry member => values entry (List.mem_cons_of_mem _ member)) found
        rwa [ofNode, valuesOf] at later
      · cases found
        exact (values entry List.mem_cons_self).symm

mutual

/-- A node has the value of what it is written out as. -/
theorem ofNode_of_writtenOut? (values : ∀ entry ∈ known, HasValue origin entry.2) :
    ∀ {node result : Node}, node.writtenOut? known = some result →
      ofNode origin (valuesOf origin known) node = ofNode origin [] result
  | .scalar _ _, _, written => by
      cases written
      rfl
  | .reference _ _, _, written => ofNode_of_lookup values written
  | .sequence _ _ elements, _, written => by
      rcases Option.map_eq_some_iff.mp written with ⟨results, all, rfl⟩
      rw [ofNode, ofNode, ofNodes_of_writtenOut? values all]
  | .mapping _ _ members, _, written => by
      rcases Option.map_eq_some_iff.mp written with ⟨results, all, rfl⟩
      rw [ofNode, ofNode, ofPairs_of_writtenOut? values [] all]

theorem ofNodes_of_writtenOut? (values : ∀ entry ∈ known, HasValue origin entry.2) :
    ∀ {nodes results : List Node}, Node.allWrittenOut? known nodes = some results →
      ofNodes origin (valuesOf origin known) nodes = ofNodes origin [] results
  | [], _, written => by
      cases written
      rfl
  | node :: nodes, _, written => by
      rcases Option.bind_eq_some_iff.mp written with ⟨result, first, written⟩
      rcases Option.bind_eq_some_iff.mp written with ⟨results, others, same⟩
      cases same
      rw [ofNodes, ofNodes, ofNode_of_writtenOut? values first,
        ofNodes_of_writtenOut? values others]

theorem ofPairs_of_writtenOut? (values : ∀ entry ∈ known, HasValue origin entry.2)
    (keys : List Key) : ∀ {members results : List (Node × Node)},
      Node.membersWrittenOut? known members = some results →
        ofPairs origin (valuesOf origin known) keys members = ofPairs origin [] keys results
  | [], _, written => by
      cases written
      rfl
  | (key, node) :: members, _, written => by
      rcases Option.bind_eq_some_iff.mp written with ⟨result, first, written⟩
      rcases Option.bind_eq_some_iff.mp written with ⟨results, others, same⟩
      cases same
      rw [ofPairs, ofPairs, ofNode_of_writtenOut? values first]
      rcases keyOf? key with _ | key
      · rfl
      · simp only [ofPairs_of_writtenOut? values (key :: keys) others]

end

theorem subset_of_anchorsWrittenOut? {anchors : List Yaml.Anchor}
    (written : Yaml.anchorsWrittenOut? known anchors = some more) : known ⊆ more := by
  induction anchors generalizing known with
  | nil =>
      cases written
      exact List.Subset.refl _
  | cons anchor anchors ih =>
      rcases Option.bind_eq_some_iff.mp written with ⟨target, -, written⟩
      exact fun entry member => ih written (List.mem_cons_of_mem _ member)

/-- The values of the anchors are those of their nodes, written out. -/
theorem ofAnchors_of_writtenOut? {anchors : List Yaml.Anchor}
    (written : Yaml.anchorsWrittenOut? known anchors = some more)
    (values : ∀ entry ∈ more, HasValue origin entry.2) :
    ofAnchors origin (valuesOf origin known) anchors = .ok (valuesOf origin more) := by
  induction anchors generalizing known with
  | nil =>
      cases written
      rfl
  | cons anchor anchors ih =>
      rcases Option.bind_eq_some_iff.mp written with ⟨target, first, written⟩
      have subset := subset_of_anchorsWrittenOut? written
      have now : ofNode origin (valuesOf origin known) anchor.node =
          .ok (valueOf origin target) :=
        (ofNode_of_writtenOut?
          (fun entry member => values entry (subset (List.mem_cons_of_mem _ member))) first).trans
          (values _ (subset List.mem_cons_self))
      rw [ofAnchors, now]
      exact ih written

/-- A document has the value of the node that it stands for. -/
theorem ofDocument_of_standsFor {document : Yaml.Document} {node : Node}
    (stands : document.StandsFor known node)
    (values : ∀ entry ∈ known, HasValue origin entry.2) :
    ofDocument origin document = ofNode origin [] node := by
  have anchors : ofAnchors origin [] document.anchors = .ok (valuesOf origin known) :=
    ofAnchors_of_writtenOut? stands.anchors values
  rw [ofDocument, anchors]
  exact ofNode_of_writtenOut? values stands.root

end

end BridgeFinder.Layered
