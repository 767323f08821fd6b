import BridgeFinder.Proofs.Yaml.Anchors

/-!
# Documents without their aliases

The node of a document can be written out, with what each alias stands for in its place.  An alias
must come after the node of its anchor for that: within that node, and before it, it is refused.
-/

namespace BridgeFinder.Yaml

mutual

/-- A node with what its aliases stand for in their places.  Keys are left as they are. -/
def Node.writtenOut? (known : List (Nat × Node)) : Node → Option Node
  | .scalar mark value => some (.scalar mark value)
  | .reference _ number => known.lookup number
  | .sequence mark tag elements => (Node.allWrittenOut? known elements).map (.sequence mark tag)
  | .mapping mark tag members => (Node.membersWrittenOut? known members).map (.mapping mark tag)

/-- The elements of a sequence, written out. -/
def Node.allWrittenOut? (known : List (Nat × Node)) : List Node → Option (List Node)
  | [] => some []
  | node :: nodes => do
      let node ← node.writtenOut? known
      let nodes ← Node.allWrittenOut? known nodes
      pure (node :: nodes)

/-- The members of a mapping, written out. -/
def Node.membersWrittenOut? (known : List (Nat × Node)) :
    List (Node × Node) → Option (List (Node × Node))
  | [] => some []
  | (key, node) :: members => do
      let node ← node.writtenOut? known
      let members ← Node.membersWrittenOut? known members
      pure ((key, node) :: members)

end

/-- The nodes of anchors, written out one after another, on top of those that are known. -/
def anchorsWrittenOut? : List (Nat × Node) → List Anchor → Option (List (Nat × Node))
  | known, [] => some known
  | known, anchor :: anchors => do
      let node ← anchor.node.writtenOut? known
      anchorsWrittenOut? ((anchor.number, node) :: known) anchors

section

variable {known more : List (Nat × Node)} {node result : Node}

mutual

/-- A node is written out alike if more is known. -/
theorem Node.writtenOut?_of_known
    (keeps : ∀ number node, known.lookup number = some node → more.lookup number = some node) :
    ∀ {node result : Node}, node.writtenOut? known = some result →
      node.writtenOut? more = some result
  | .scalar _ _, _, written => written
  | .reference _ number, _, written => keeps number _ written
  | .sequence mark tag elements, _, written => by
      rcases Option.map_eq_some_iff.mp written with ⟨results, all, rfl⟩
      rw [writtenOut?, Node.allWrittenOut?_of_known keeps all, Option.map_some]
  | .mapping mark tag members, _, written => by
      rcases Option.map_eq_some_iff.mp written with ⟨results, all, rfl⟩
      rw [writtenOut?, Node.membersWrittenOut?_of_known keeps all, Option.map_some]

theorem Node.allWrittenOut?_of_known
    (keeps : ∀ number node, known.lookup number = some node → more.lookup number = some node) :
    ∀ {nodes results : List Node}, Node.allWrittenOut? known nodes = some results →
      Node.allWrittenOut? more nodes = some results
  | [], _, written => written
  | node :: nodes, _, written => by
      rcases Option.bind_eq_some_iff.mp written with ⟨result, first, written⟩
      rcases Option.bind_eq_some_iff.mp written with ⟨results, others, same⟩
      cases same
      rw [Node.allWrittenOut?, Node.writtenOut?_of_known keeps first,
        Node.allWrittenOut?_of_known keeps others]
      rfl

theorem Node.membersWrittenOut?_of_known
    (keeps : ∀ number node, known.lookup number = some node → more.lookup number = some node) :
    ∀ {members results : List (Node × Node)},
      Node.membersWrittenOut? known members = some results →
        Node.membersWrittenOut? more members = some results
  | [], _, written => written
  | (key, node) :: members, _, written => by
      rcases Option.bind_eq_some_iff.mp written with ⟨result, first, written⟩
      rcases Option.bind_eq_some_iff.mp written with ⟨results, others, same⟩
      cases same
      rw [Node.membersWrittenOut?, Node.writtenOut?_of_known keeps first,
        Node.membersWrittenOut?_of_known keeps others]
      rfl

end

/-- What is known in the end is what has been known before, or an anchored node written out. -/
theorem lookup_anchorsWrittenOut? {anchors : List Anchor}
    (numbers : (anchors.map Anchor.number).Nodup)
    (fresh : ∀ anchor ∈ anchors, known.lookup anchor.number = none)
    (written : anchorsWrittenOut? known anchors = some more) :
    (∀ number node, known.lookup number = some node → more.lookup number = some node) ∧
      ∀ number node, more.lookup number = some node → known.lookup number = some node ∨
        ∃ anchor ∈ anchors, anchor.number = number ∧ anchor.node.writtenOut? more = some node := by
  induction anchors generalizing known with
  | nil =>
      cases written
      exact ⟨fun _ _ found => found, fun _ _ found => .inl found⟩
  | cons anchor anchors ih =>
      rcases Option.bind_eq_some_iff.mp written with ⟨target, first, written⟩
      rw [List.map_cons, List.nodup_cons] at numbers
      have apart : ∀ other ∈ anchors,
          ((anchor.number, target) :: known).lookup other.number = none := by
        intro other member
        have different : other.number ≠ anchor.number := fun same =>
          numbers.1 (List.mem_map.mpr ⟨other, member, same⟩)
        rw [List.lookup_cons, beq_false_of_ne different]
        exact fresh other (List.mem_cons_of_mem _ member)
      rcases ih numbers.2 apart written with ⟨keeps, finds⟩
      have keepsKnown (number : Nat) (node : Node) (found : known.lookup number = some node) :
          more.lookup number = some node := by
        refine keeps number node ?_
        have different : number ≠ anchor.number := by
          rintro rfl
          cases (fresh anchor List.mem_cons_self).symm.trans found
        rw [List.lookup_cons, beq_false_of_ne different]
        exact found
      refine ⟨keepsKnown, fun number node found => ?_⟩
      rcases finds number node found with old | ⟨other, member, named, isNode⟩
      · rw [List.lookup_cons] at old
        by_cases same : number = anchor.number
        · subst same
          rw [beq_self_eq_true] at old
          cases old
          exact .inr ⟨anchor, List.mem_cons_self, rfl, Node.writtenOut?_of_known keepsKnown first⟩
        · rw [beq_false_of_ne same] at old
          exact .inl old
      · exact .inr ⟨other, List.mem_cons_of_mem _ member, named, isNode⟩

end

/-- A document stands for a node without aliases: no anchor is named twice, and the node is its
root, written out. -/
structure Document.StandsFor (document : Document) (known : List (Nat × Node)) (node : Node) :
    Prop where
  names : (document.anchors.map Anchor.name).Nodup
  anchors : anchorsWrittenOut? [] document.anchors = some known
  root : document.root.writtenOut? known = some node

/-- The alias of a known node stands for a node that is written out as the known one. -/
theorem Document.StandsFor.exists_target {document : Document} {known : List (Nat × Node)}
    {node target : Node} (stands : document.StandsFor known node)
    (numbers : (document.anchors.map Anchor.number).Nodup) {number : Nat}
    (found : known.lookup number = some target) :
    ∃ anchored, document.target? number = some anchored ∧
      anchored.writtenOut? known = some target := by
  have lookup := (lookup_anchorsWrittenOut? numbers (fun _ _ => rfl) stands.anchors).2
  rcases lookup number target found with absent | ⟨anchor, member, rfl, written⟩
  · cases absent
  · exact ⟨anchor.node, document.target?_number numbers stands.names member, written⟩

end BridgeFinder.Yaml
