import BridgeFinder.Yaml.Data
import BridgeFinder.Yaml.Node.OfTokens
import Mathlib.Data.List.Nodup

/-!
# Anchors of a document

Every anchor of a document has a number of its own, since numbers are given out where anchors begin
and are used up where their nodes end.  If the names of the anchors are different, too, then an
alias stands for the node of its anchor and for no other one.
-/

namespace BridgeFinder.Yaml

/-! ## Numbers -/

namespace Reading

variable {r s t : Reading}

/-- Reading has gone on from one point to another: the anchors whose nodes have ended since have
different numbers, and these have been given out since. -/
structure Extends (r s : Reading) : Prop where
  names : r.names.length ≤ s.names.length
  anchors : ∃ more : List Anchor, s.anchors = more ++ r.anchors ∧
    (more.map Anchor.number).Nodup ∧
      ∀ anchor ∈ more, r.names.length ≤ anchor.number ∧ anchor.number < s.names.length

theorem extends_of_eq (names : s.names = r.names) (anchors : s.anchors = r.anchors) :
    r.Extends s :=
  ⟨Nat.le_of_eq (congrArg _ names.symm), [], anchors, List.nodup_nil, nofun⟩

theorem extends_refl (r : Reading) : r.Extends r :=
  extends_of_eq rfl rfl

theorem Extends.trans (first : r.Extends s) (later : s.Extends t) : r.Extends t := by
  rcases first.anchors with ⟨old, oldAnchors, oldDistinct, oldRange⟩
  rcases later.anchors with ⟨new, newAnchors, newDistinct, newRange⟩
  refine ⟨Nat.le_trans first.names later.names, new ++ old, ?_, ?_, ?_⟩
  · rw [newAnchors, oldAnchors, List.append_assoc]
  · rw [List.map_append, List.nodup_append]
    refine ⟨newDistinct, oldDistinct, ?_⟩
    rintro _ isNew _ isOld same
    rcases List.mem_map.mp isNew with ⟨one, isOne, rfl⟩
    rcases List.mem_map.mp isOld with ⟨two, isTwo, rfl⟩
    have above := (newRange one isOne).1
    have below := (oldRange two isTwo).2
    omega
  · intro anchor member
    rcases List.mem_append.mp member with isNew | isOld
    · exact ⟨Nat.le_trans first.names (newRange anchor isNew).1, (newRange anchor isNew).2⟩
    · exact ⟨(oldRange anchor isOld).1, Nat.lt_of_lt_of_le (oldRange anchor isOld).2 later.names⟩

/-- An anchor that begins here and ends there has a number of its own. -/
theorem Extends.anchored {name : List Char} (extends' : (r.begin name).2.Extends s)
    (node : Node) :
    r.Extends { s with anchors := ⟨r.names.length, name, node⟩ :: s.anchors } := by
  rcases extends'.anchors with ⟨more, anchors, distinct, range⟩
  have given : r.names.length < s.names.length := extends'.names
  refine ⟨Nat.le_of_lt given, ⟨r.names.length, name, node⟩ :: more, ?_, ?_, ?_⟩
  · exact congrArg _ anchors
  · refine List.nodup_cons.mpr ⟨fun member => ?_, distinct⟩
    rcases List.mem_map.mp member with ⟨anchor, isNew, same⟩
    have above : r.names.length + 1 ≤ anchor.number := (range anchor isNew).1
    exact absurd (same ▸ above) (Nat.not_succ_le_self _)
  · intro anchor member
    rcases List.mem_cons.mp member with rfl | isNew
    · exact ⟨Nat.le_refl _, given⟩
    · exact ⟨Nat.le_of_succ_le (range anchor isNew).1, (range anchor isNew).2⟩

/-- Whatever has been read, reading has gone on from `r`. -/
def Goes {α : Type} (r : Reading) (result : Option (α × Reading)) : Prop :=
  ∀ x s, result = some (x, s) → r.Extends s

theorem goes_none {α : Type} : Goes r (none : Option (α × Reading)) :=
  nofun

theorem goes_pure {α : Type} (x : α) (extends' : r.Extends s) :
    Goes r (pure (x, s) : Option (α × Reading)) := by
  rintro _ _ ⟨⟩
  exact extends'

theorem goes_bind_of {α β : Type} {result : Option (α × Reading)}
    {next : α × Reading → Option (β × Reading)} (first : Goes s result)
    (later : ∀ x t, s.Extends t → Goes r (next (x, t))) : Goes r (result >>= next) := by
  rintro y u found
  rcases Option.bind_eq_some_iff.mp found with ⟨⟨x, t⟩, read, rest⟩
  exact later x t (first x t read) y u rest

theorem goes_after {α : Type} {result : Option (α × Reading)} (extends' : r.Extends s)
    (goes : Goes s result) : Goes r result :=
  fun x t read => extends'.trans (goes x t read)

theorem goes_ite {α : Type} {condition : Prop} [Decidable condition]
    {yes no : Option (α × Reading)} (onYes : Goes r yes) (onNo : Goes r no) :
    Goes r (if condition then yes else no) := by
  split
  · exact onYes
  · exact onNo

theorem goes_bind {α β : Type} {result : Option (α × Reading)}
    {next : α × Reading → Option (β × Reading)} (first : Goes r result)
    (later : ∀ x s, Goes s (next (x, s))) : Goes r (result >>= next) :=
  goes_bind_of first fun x s extends' => goes_after extends' (later x s)

theorem goes_given {α β : Type} {given : Option α} {next : α → Option (β × Reading)}
    (later : ∀ x, Goes r (next x)) : Goes r (given >>= next) := by
  rintro y s found
  rcases Option.bind_eq_some_iff.mp found with ⟨x, -, rest⟩
  exact later x y s rest

end Reading

open Reading

/-- Reading goes on in whatever is read within the bound. -/
structure GoesOn (bound : Nat) : Prop where
  node : ∀ block indentless r, Goes r (readNode block indentless bound r)
  entries : ∀ closed r, Goes r (readEntries closed bound r)
  blockMembers : ∀ r, Goes r (readBlockMembers bound r)
  flowElements : ∀ first r, Goes r (readFlowElements bound first r)
  flowMembers : ∀ first r, Goes r (readFlowMembers bound first r)
  flowValue : ∀ ends r, Goes r (readFlowValue ends bound r)

variable {bound : Nat}

theorem GoesOn.entries_succ (goesOn : GoesOn bound) (closed : Bool) (r : Reading) :
    Goes r (readEntries closed (bound + 1) r) := by
  rw [readEntries]
  split
  · extract_lets mark s missing others
    have rest (node : Node) (t : Reading) : Goes t (others (node, t)) :=
      goes_bind (goesOn.entries closed t) fun _ t => goes_pure _ (extends_refl t)
    refine goes_after (s := s) (extends_of_eq rfl rfl) ?_
    exact goes_ite (goes_bind (goes_pure _ (extends_of_eq rfl rfl)) rest)
      (goes_bind (goesOn.node true false s) rest)
  · cases closed
    · exact goes_pure _ (extends_refl r)
    · exact goes_pure _ (extends_of_eq rfl rfl)
  · exact goes_ite goes_none (goes_pure _ (extends_refl r))

theorem GoesOn.blockMembers_succ (goesOn : GoesOn bound) (r : Reading) :
    Goes r (readBlockMembers (bound + 1) r) := by
  rw [readBlockMembers]
  split
  · extract_lets mark s others
    have rest (key : Node) (t : Reading) : Goes t (others (key, t)) := by
      dsimp -zeta only [others]
      extract_lets others mark u
      have last (value : Node) (u : Reading) : Goes u (others (value, u)) :=
        goes_bind (goesOn.blockMembers u) fun _ u => goes_pure _ (extends_refl u)
      split
      · refine goes_after (s := u) (extends_of_eq rfl rfl) ?_
        exact goes_ite (goes_bind (goes_pure _ (extends_of_eq rfl rfl)) last)
          (goes_bind (goesOn.node true true u) last)
      · exact goes_bind (goes_pure _ (extends_of_eq rfl rfl)) last
    refine goes_after (s := s) (extends_of_eq rfl rfl) ?_
    exact goes_ite (goes_bind (goes_pure _ (extends_of_eq rfl rfl)) rest)
      (goes_bind (goesOn.node true true s) rest)
  · exact goes_pure _ (extends_of_eq rfl rfl)
  · exact goes_none

theorem GoesOn.flowValue_succ (goesOn : GoesOn bound) (ends : List Token.Kind) (r : Reading) :
    Goes r (readFlowValue ends (bound + 1) r) := by
  rw [readFlowValue]
  refine goes_ite (goes_after (s := r.next) (extends_of_eq rfl rfl) ?_)
    (goes_pure _ (extends_of_eq rfl rfl))
  exact goes_ite (goes_pure _ (extends_of_eq rfl rfl)) (goesOn.node false false r.next)

theorem GoesOn.flowElements_succ (goesOn : GoesOn bound) (first : Bool) (r : Reading) :
    Goes r (readFlowElements (bound + 1) first r) := by
  rw [readFlowElements]
  refine goes_ite (goes_pure _ (extends_of_eq rfl rfl)) ?_
  extract_lets others
  have rest (s : Reading) : Goes s (others s) := by
    dsimp -zeta only [others]
    refine goes_ite (goes_pure _ (extends_of_eq rfl rfl)) (goes_ite ?_ ?_)
    · extract_lets mark t others
      have last (key : Node) (u : Reading) : Goes u (others (key, u)) :=
        goes_bind (goesOn.flowValue _ u) fun _ u =>
          goes_bind (goesOn.flowElements false u) fun _ u => goes_pure _ (extends_refl u)
      refine goes_after (s := t) (extends_of_eq rfl rfl) ?_
      exact goes_ite (goes_bind (goes_pure _ (extends_of_eq rfl rfl)) last)
        (goes_bind (goesOn.node false false t) last)
    · exact goes_bind (goesOn.node false false s) fun _ t =>
        goes_bind (goesOn.flowElements false t) fun _ t => goes_pure _ (extends_refl t)
  exact goes_ite (rest r) (goes_ite (goes_after (s := r.next) (extends_of_eq rfl rfl) (rest _))
    goes_none)

theorem GoesOn.flowMembers_succ (goesOn : GoesOn bound) (first : Bool) (r : Reading) :
    Goes r (readFlowMembers (bound + 1) first r) := by
  rw [readFlowMembers]
  refine goes_ite (goes_pure _ (extends_of_eq rfl rfl)) ?_
  extract_lets pair others
  have last (key : Node) (u : Reading) : Goes u (pair (key, u)) :=
    goes_bind (goesOn.flowValue _ u) fun _ u =>
      goes_bind (goesOn.flowMembers false u) fun _ u => goes_pure _ (extends_refl u)
  have rest (s : Reading) : Goes s (others s) := by
    dsimp -zeta only [others]
    refine goes_ite (goes_pure _ (extends_of_eq rfl rfl)) (goes_ite ?_ ?_)
    · refine goes_after (s := s.next) (extends_of_eq rfl rfl) ?_
      exact goes_ite (goes_bind (goes_pure _ (extends_of_eq rfl rfl)) last)
        (goes_bind (goesOn.node false false s.next) last)
    · exact goes_bind (goesOn.node false false s) fun _ t =>
        goes_after (s := t.count 1) (extends_of_eq rfl rfl)
          (goes_bind (goesOn.flowMembers false _) fun _ t => goes_pure _ (extends_refl t))
  exact goes_ite (rest r) (goes_ite (goes_after (s := r.next) (extends_of_eq rfl rfl) (rest _))
    goes_none)

theorem goes_readProperties (r : Reading) : Goes r (readProperties r) := by
  rw [readProperties]
  split
  · split
    · exact goes_given fun _ => goes_pure _ (extends_of_eq rfl rfl)
    · exact goes_pure _ (extends_of_eq rfl rfl)
  · refine goes_given fun _ => ?_
    split <;> exact goes_pure _ (extends_of_eq rfl rfl)
  · exact goes_pure _ (extends_refl r)

theorem GoesOn.node_succ (goesOn : GoesOn bound) (block indentless : Bool) (r : Reading) :
    Goes r (readNode block indentless (bound + 1) r) := by
  rw [readNode]
  split
  · exact goes_given fun _ => goes_pure _ (extends_of_eq rfl rfl)
  · refine goes_bind (goes_readProperties r) fun properties s => ?_
    split
    next properties s same =>
    cases same
    split
    next number t begun =>
    -- The number is given out before the node is read, and used up after it.
    have ended (result : Node × Reading) (extends' : t.Extends result.2) :
        s.Extends (withAnchor properties number result).2 := by
      rcases properties with ⟨mark, _ | name, tag⟩
      · cases begun
        exact extends'
      · cases begun
        exact extends'.anchored result.1
    extract_lets mark tag anchored
    have last (node : Node) (u : Reading) (extends' : t.Extends u) :
        Goes s (anchored (node, u)) :=
      goes_pure _ (ended (node, u) extends')
    have empty : Goes s
        (if properties.anchor.isSome ∨ tag.isSome then
          pure (emptyScalar mark tag, t.count 1) >>= anchored
        else none >>= anchored) :=
      goes_ite (last _ _ (extends_of_eq rfl rfl)) goes_none
    have onward {α : Type} {content : Option (α × Reading)} {u : Reading} (make : α → Node)
        (goes : Goes u content) (extends' : t.Extends u) :
        Goes s (content >>= fun (x, v) => anchored (make x, v)) :=
      goes_bind_of (goes_after extends' goes) fun x v extends' => last _ v extends'
    split
    · exact last _ _ (extends_of_eq rfl rfl)
    · exact onward (Node.sequence mark tag) (goesOn.flowElements true _) (extends_of_eq rfl rfl)
    · exact onward (Node.mapping mark tag) (goesOn.flowMembers true _) (extends_of_eq rfl rfl)
    · exact goes_ite
        (onward (Node.sequence mark tag) (goesOn.entries false _) (extends_of_eq rfl rfl)) empty
    · exact goes_ite
        (onward (Node.sequence mark tag) (goesOn.entries true _) (extends_of_eq rfl rfl)) empty
    · exact goes_ite
        (onward (Node.mapping mark tag) (goesOn.blockMembers _) (extends_of_eq rfl rfl)) empty
    · exact empty

theorem goesOn : ∀ bound, GoesOn bound
  | 0 => ⟨fun _ _ _ => goes_none, fun _ _ => goes_none, fun _ => goes_none,
      fun _ _ => goes_none, fun _ _ => goes_none, fun _ _ => goes_none⟩
  | bound + 1 =>
      have before := goesOn bound
      ⟨before.node_succ, before.entries_succ, before.blockMembers_succ, before.flowElements_succ,
        before.flowMembers_succ, before.flowValue_succ⟩

theorem anchors_of_readDirectives {tokens : List Token} {versioned : Bool} {r s : Reading}
    (read : readDirectives versioned r tokens = some s) : s.anchors = r.anchors := by
  fun_induction readDirectives versioned r tokens with
  | case1 => cases read
  | case2 _ _ _ _ _ _ _ _ ih => exact ih read
  | case3 => cases read
  | case4 _ _ _ _ _ _ _ _ ih => exact ih read
  | case5 => cases read; rfl

theorem Reading.Extends.nodup {r s : Reading} (extends' : r.Extends s) (bare : r.anchors = []) :
    (s.anchors.map Anchor.number).Nodup := by
  rcases extends'.anchors with ⟨more, anchors, distinct, -⟩
  rw [anchors, bare, List.append_nil]
  exact distinct

/-- No two anchors of a document that has been read have the same number. -/
def NumbersApart (result : Option (List Document)) : Prop :=
  ∀ documents, result = some documents →
    ∀ document ∈ documents, (document.anchors.map Anchor.number).Nodup

theorem numbersApart_bind {α : Type} {given : Option α} {next : α → Option (List Document)}
    (later : ∀ x, given = some x → NumbersApart (next x)) : NumbersApart (given >>= next) := by
  intro documents read
  rcases Option.bind_eq_some_iff.mp read with ⟨x, isGiven, rest⟩
  exact later x isGiven documents rest

theorem numbersApart_readDocuments (bound : Nat) (first : Bool) (tokens : List Token) :
    NumbersApart (readDocuments bound first tokens) := by
  induction bound generalizing first tokens with
  | zero => exact nofun
  | succ bound ih =>
      rw [readDocuments]
      extract_lets others
      generalize (if first = true then tokens else
        tokens.dropWhile fun token => decide (token.kind = .documentEnd)) = tokens
      have rest (node : Node) (r : Reading) (apart : (r.anchors.map Anchor.number).Nodup) :
          NumbersApart (others (node, r)) := by
        refine numbersApart_bind fun documents later => ?_
        rintro _ ⟨⟩ document member
        rcases List.mem_cons.mp member with rfl | there
        · rw [Reading.document, List.map_reverse, List.nodup_reverse]
          exact apart
        · exact ih false _ documents later document there
      split
      · rintro _ ⟨⟩ _ ⟨⟩
      · refine numbersApart_bind fun r directives => ?_
        have bare : r.anchors = [] := anchors_of_readDirectives directives
        extract_lets declared explicit s
        split
        · exact nofun
        · have bare : s.anchors = [] := by
            cases same : explicit <;> simpa [s, same, Reading.next] using bare
          have empty (mark : Mark) : NumbersApart (others (emptyScalar mark none, s.count 1)) :=
            rest _ _ (bare ▸ List.nodup_nil)
          split
          · exact empty _
          · exact empty _
          · split
            · exact empty _
            · refine numbersApart_bind fun ⟨node, t⟩ read => rest node t ?_
              exact ((goesOn _).node true false s node t read).nodup bare

/-- No two anchors of a document have the same number. -/
theorem nodup_numbers {text : List Char} {documents : List Document}
    (read : documents? text = some documents) {document : Document}
    (member : document ∈ documents) : (document.anchors.map Anchor.number).Nodup := by
  rcases Option.bind_eq_some_iff.mp read with ⟨tokens, -, read⟩
  exact numbersApart_readDocuments _ _ _ documents read document member

/-! ## What an alias stands for -/

theorem eraseDups_of_nodup {α : Type} [BEq α] [LawfulBEq α] {l : List α} (distinct : l.Nodup) :
    l.eraseDups = l := by
  induction l with
  | nil => rfl
  | cons a l ih =>
      rw [List.nodup_cons] at distinct
      have others : l.filter (fun b => !b == a) = l := by
        refine List.filter_eq_self.mpr fun b member => ?_
        simpa using fun same : b = a => distinct.1 (same ▸ member)
      rw [List.eraseDups_cons, others, ih distinct.2]

namespace Document

variable {document : Document}

/-- If no name is repeated, then anchors are counted by their names. -/
theorem nameCount_eq (names : (document.anchors.map Anchor.name).Nodup) (number : Nat) :
    document.nameCount number =
      (document.anchors.filter fun anchor => anchor.number < number).length := by
  rw [nameCount, eraseDups_of_nodup, List.length_map]
  exact names.sublist (List.filter_sublist.map _)

/-- More anchors are counted before a later one. -/
theorem nameCount_lt (names : (document.anchors.map Anchor.name).Nodup) {one other : Anchor}
    (member : one ∈ document.anchors) (before : one.number < other.number) :
    document.nameCount one.number < document.nameCount other.number := by
  rw [nameCount_eq names, nameCount_eq names]
  have later : document.anchors.filter (fun anchor => anchor.number < one.number) =
      (document.anchors.filter fun anchor => anchor.number < other.number).filter
        fun anchor => anchor.number < one.number := by
    rw [List.filter_filter]
    refine List.filter_congr fun anchor _ => ?_
    rw [Bool.eq_iff_iff]
    simp only [decide_eq_true_eq, Bool.and_eq_true]
    omega
  rw [later]
  refine List.length_filter_lt_length_iff_exists.mpr ⟨one, ?_, by simp⟩
  exact List.mem_filter.mpr ⟨member, by simpa using before⟩

/-- If neither a number nor a name is repeated, then the alias of an anchor stands for its node. -/
theorem target?_number (numbers : (document.anchors.map Anchor.number).Nodup)
    (names : (document.anchors.map Anchor.name).Nodup) {anchor : Anchor}
    (member : anchor ∈ document.anchors) :
    document.target? anchor.number = some anchor.node := by
  have distinct : document.anchors.Nodup := numbers.of_map
  have only : document.anchors.filter (fun other =>
      document.nameCount other.number == document.nameCount anchor.number) = [anchor] := by
    have same : ∀ other ∈ document.anchors.filter (fun other =>
        document.nameCount other.number == document.nameCount anchor.number), other = anchor := by
      intro other found
      simp only [List.mem_filter, beq_iff_eq] at found
      refine List.inj_on_of_nodup_map numbers found.1 member ?_
      rcases Nat.lt_trichotomy other.number anchor.number with before | same | after
      · exact absurd found.2 (Nat.ne_of_lt (nameCount_lt names found.1 before))
      · exact same
      · exact absurd found.2 (Nat.ne_of_gt (nameCount_lt names member after))
    have there : anchor ∈ document.anchors.filter (fun other =>
        document.nameCount other.number == document.nameCount anchor.number) := by
      simpa using member
    have once := distinct.filter fun other =>
      document.nameCount other.number == document.nameCount anchor.number
    generalize document.anchors.filter _ = shared at same there once
    rcases shared with _ | ⟨first, _ | ⟨second, others⟩⟩
    · cases there
    · rw [same first List.mem_cons_self]
    · have first := same first List.mem_cons_self
      have second := same second (List.mem_cons_of_mem _ List.mem_cons_self)
      simp [first, second] at once
  rw [target?, only]
  rfl

end Document

end BridgeFinder.Yaml
