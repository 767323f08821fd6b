import BridgeFinder.Layered.Path

/-!
# Looking into a layered configuration

What is found under a name after a value has been put under one is said by one lemma for each way
of putting it there.  No operation repeats a name in a table, so looking a name up finds all there
is.  A path that turns off the way to a value leaves that value as it is.
-/

namespace BridgeFinder.Layered

/-! ## Equality -/

mutual

/-- Decide whether two values are the same. -/
def Value.decideEq : (one other : Value) → Decidable (one = other)
  | .scalar o v, .scalar p w =>
      decidable_of_iff (o = p ∧ v = w) (by simp)
  | .array o v, .array p w =>
      match decEq o p, Value.decideEqAll v w with
      | isTrue same, isTrue all => isTrue (same ▸ all ▸ rfl)
      | isFalse apart, _ => isFalse fun eq => by cases eq; exact apart rfl
      | _, isFalse apart => isFalse fun eq => by cases eq; exact apart rfl
  | .table o v, .table p w =>
      match decEq o p, Value.decideEqMembers v w with
      | isTrue same, isTrue all => isTrue (same ▸ all ▸ rfl)
      | isFalse apart, _ => isFalse fun eq => by cases eq; exact apart rfl
      | _, isFalse apart => isFalse fun eq => by cases eq; exact apart rfl
  | .scalar _ _, .array _ _ => isFalse nofun
  | .scalar _ _, .table _ _ => isFalse nofun
  | .array _ _, .scalar _ _ => isFalse nofun
  | .array _ _, .table _ _ => isFalse nofun
  | .table _ _, .scalar _ _ => isFalse nofun
  | .table _ _, .array _ _ => isFalse nofun

/-- Decide whether two lists of values are the same. -/
def Value.decideEqAll : (one other : List Value) → Decidable (one = other)
  | [], [] => isTrue rfl
  | [], _ :: _ => isFalse nofun
  | _ :: _, [] => isFalse nofun
  | v :: vs, w :: ws =>
      match Value.decideEq v w, Value.decideEqAll vs ws with
      | isTrue same, isTrue all => isTrue (same ▸ all ▸ rfl)
      | isFalse apart, _ => isFalse fun eq => apart (List.cons.inj eq).1
      | _, isFalse apart => isFalse fun eq => apart (List.cons.inj eq).2

/-- Decide whether two lists of members are the same. -/
def Value.decideEqMembers : (one other : List (String × Value)) → Decidable (one = other)
  | [], [] => isTrue rfl
  | [], _ :: _ => isFalse nofun
  | _ :: _, [] => isFalse nofun
  | (n, v) :: vs, (m, w) :: ws =>
      match decEq n m, Value.decideEq v w, Value.decideEqMembers vs ws with
      | isTrue named, isTrue same, isTrue all => isTrue (named ▸ same ▸ all ▸ rfl)
      | isFalse apart, _, _ => isFalse fun eq => apart (Prod.mk.inj (List.cons.inj eq).1).1
      | _, isFalse apart, _ => isFalse fun eq => apart (Prod.mk.inj (List.cons.inj eq).1).2
      | _, _, isFalse apart => isFalse fun eq => apart (List.cons.inj eq).2

end

instance : DecidableEq Value :=
  Value.decideEq

/-! ## One table -/

theorem lookup_changeMember (missing : Value) (change : Value → Value) (name key : String)
    (members : List (String × Value)) :
    (changeMember missing change name members).lookup key =
      if key = name then some (change ((members.lookup name).getD missing))
      else members.lookup key := by
  induction members with
  | nil =>
      rw [changeMember, List.lookup_cons]
      split <;> simp_all
  | cons member members ih =>
      rcases member with ⟨head, value⟩
      rw [changeMember]
      split
      · next same =>
          subst same
          simp only [List.lookup_cons]
          split <;> simp_all
      · next other =>
          have skip : (name == head) = false := beq_false_of_ne (Ne.symm other)
          simp only [List.lookup_cons, ih, skip]
          by_cases here : key = head
          · simp [here, other]
          · simp [beq_false_of_ne here]

theorem map_fst_changeMember (missing : Value) (change : Value → Value) (name : String)
    (members : List (String × Value)) :
    (changeMember missing change name members).map Prod.fst =
      if name ∈ members.map Prod.fst then members.map Prod.fst
      else members.map Prod.fst ++ [name] := by
  induction members with
  | nil => rfl
  | cons member members ih =>
      rcases member with ⟨head, value⟩
      rw [changeMember]
      split
      · next same => simp [same]
      · next other =>
          simp only [List.map_cons, ih, List.mem_cons, Ne.symm other, false_or]
          split <;> simp

theorem mem_changeMember {missing : Value} {change : Value → Value} {name : String}
    {members : List (String × Value)} {member : String × Value}
    (found : member ∈ changeMember missing change name members) :
    member ∈ members ∨ member.2 = change missing ∨ ∃ old ∈ members, member.2 = change old.2 := by
  induction members with
  | nil => simp_all [changeMember]
  | cons head members ih =>
      rcases head with ⟨key, value⟩
      rw [changeMember] at found
      split at found
      · rcases List.mem_cons.mp found with rfl | later
        · exact .inr (.inr ⟨_, List.mem_cons_self, rfl⟩)
        · exact .inl (List.mem_cons_of_mem _ later)
      · rcases List.mem_cons.mp found with rfl | later
        · exact .inl List.mem_cons_self
        · rcases ih later with same | fresh | ⟨old, member, changed⟩
          · exact .inl (List.mem_cons_of_mem _ same)
          · exact .inr (.inl fresh)
          · exact .inr (.inr ⟨old, List.mem_cons_of_mem _ member, changed⟩)

namespace Value

/-- A value is put over another one: a table is merged into it, and anything else replaces it. -/
def overlay (there : Value) : Value → Value
  | table _ members => there.putAll members
  | value => value

@[simp]
theorem members_change (value : Value) (name : String) (missing : Value)
    (change : Value → Value) :
    (value.change name missing change).members =
      changeMember missing change name value.members := by
  cases value <;> rfl

theorem lookup_change (value : Value) (name key : String) (missing : Value)
    (change : Value → Value) :
    (value.change name missing change).members.lookup key =
      if key = name then some (change ((value.members.lookup name).getD missing))
      else value.members.lookup key := by
  rw [members_change, lookup_changeMember]

@[simp]
theorem members_absent : absent.members = [] :=
  rfl

@[simp]
theorem members_table (origin : Option String) (members : List (String × Value)) :
    (table origin members).members = members :=
  rfl

@[simp]
theorem members_asTable (value : Value) : value.asTable.members = value.members := by
  cases value <;> rfl

theorem lookup_put (target : Value) (name key : String) (value : Value) :
    (target.put name value).members.lookup key =
      if key = lowerName name then
        some (((target.members.lookup (lowerName name)).getD emptyTable).overlay value)
      else target.members.lookup key := by
  cases value <;> rw [put, lookup_change] <;> rfl

/-- The value is a table. -/
def IsTable (value : Value) : Prop :=
  ∃ origin members, value = table origin members

theorem isTable_change (value : Value) (name : String) (missing : Value)
    (change : Value → Value) : (value.change name missing change).IsTable := by
  cases value <;> exact ⟨_, _, rfl⟩

theorem isTable_put (target : Value) (name : String) (value : Value) :
    (target.put name value).IsTable := by
  cases value <;> rw [put] <;> exact isTable_change _ _ _ _

theorem IsTable.putAll {target : Value} (table : target.IsTable)
    (members : List (String × Value)) : (target.putAll members).IsTable := by
  induction members generalizing target with
  | nil => rwa [Value.putAll]
  | cons member members ih => exact ih (isTable_put _ _ _)

/-! ## Names are not repeated -/

/-- No table that is reached through tables repeats a name. -/
inductive Distinct : Value → Prop where
  | scalar (origin : Option String) (value : Found) : Distinct (scalar origin value)
  | array (origin : Option String) (elements : List Value) : Distinct (array origin elements)
  | table (origin : Option String) {members : List (String × Value)}
      (names : (members.map Prod.fst).Nodup) (each : ∀ member ∈ members, Distinct member.2) :
      Distinct (table origin members)

variable {value : Value}

theorem Distinct.names (distinct : value.Distinct) : (value.members.map Prod.fst).Nodup := by
  cases distinct with
  | scalar | array => exact List.nodup_nil
  | table _ names _ => exact names

theorem Distinct.member (distinct : value.Distinct) {member : String × Value}
    (found : member ∈ value.members) : member.2.Distinct := by
  cases distinct with
  | scalar | array => cases found
  | table _ _ each => exact each member found

theorem distinct_emptyTable : emptyTable.Distinct :=
  .table none List.nodup_nil (fun _ member => nomatch member)

theorem distinct_absent : absent.Distinct :=
  .scalar none .unit

theorem Distinct.asTable (distinct : value.Distinct) : value.asTable.Distinct := by
  cases distinct with
  | scalar | array => exact distinct_emptyTable
  | table origin names each => exact .table origin names each

theorem Distinct.change (distinct : value.Distinct) (name : String) {missing : Value}
    {change : Value → Value} (begins : missing.Distinct)
    (keeps : ∀ there : Value, there.Distinct → (change there).Distinct) :
    (value.change name missing change).Distinct := by
  have names : ((changeMember missing change name value.asTable.members).map Prod.fst).Nodup := by
    rw [map_fst_changeMember]
    split
    · exact distinct.asTable.names
    · next fresh =>
        refine List.nodup_append.mpr ⟨distinct.asTable.names, List.pairwise_singleton _ _, ?_⟩
        intro one member other same
        rw [List.mem_singleton.mp same]
        exact fun eq => fresh (eq ▸ member)
  have each : ∀ member ∈ changeMember missing change name value.asTable.members,
      member.2.Distinct := by
    intro member found
    rcases mem_changeMember found with same | fresh | ⟨old, there, changed⟩
    · exact distinct.asTable.member same
    · exact fresh ▸ keeps _ begins
    · exact changed ▸ keeps _ (distinct.asTable.member there)
  rw [Value.change]
  rcases value with _ | _ | ⟨origin, members⟩ <;> exact .table _ names each

mutual

theorem Distinct.put : ∀ (value : Value) {target : Value} (name : String),
    target.Distinct → (target.put name value).Distinct
  | .table _ members, _, _, distinct =>
      distinct.change _ distinct_emptyTable fun _ there => Distinct.putAll members there
  | .scalar _ _, _, _, distinct => distinct.change _ distinct_absent fun _ _ => .scalar _ _
  | .array _ _, _, _, distinct => distinct.change _ distinct_absent fun _ _ => .array _ _

theorem Distinct.putAll : ∀ (members : List (String × Value)) {target : Value},
    target.Distinct → (target.putAll members).Distinct
  | [], _, distinct => distinct
  | (name, value) :: members, _, distinct =>
      Distinct.putAll members (Distinct.put value name distinct)

end

end Value

/-! ## Paths -/

namespace Path

theorem distinct_change (path : Path) {root : Value} (distinct : root.Distinct)
    {change : Value → Value} (keeps : ∀ there : Value, there.Distinct → (change there).Distinct) :
    (path.change change root).Distinct := by
  induction path generalizing change with
  | name text => exact distinct.change text Value.distinct_absent keeps
  | member parent text ih =>
      exact ih fun there distinct => distinct.change text Value.distinct_absent keeps
  | element parent index ih =>
      apply ih
      intro there _
      simp only [changeIndex]
      split <;> exact .array _ _

theorem distinct_put (path : Path) {root : Value} (distinct : root.Distinct) (value : Value) :
    (path.put value root).Distinct := by
  cases path with
  | name text => exact Value.Distinct.put value text distinct
  | member parent text =>
      exact parent.distinct_change distinct fun _ there =>
        Value.Distinct.put value text there.asTable
  | element parent index =>
      apply parent.distinct_change distinct
      intro there _
      simp only [changeIndex]
      split <;> exact .array _ _

end Path

/-- Nothing that is laid over a configuration repeats a name in it. -/
theorem Value.Distinct.layer {root : Value} (distinct : root.Distinct)
    (members : List (String × Value)) : (root.layer members).Distinct := by
  rw [Value.layer]
  induction members generalizing root with
  | nil => exact distinct
  | cons member members ih =>
      rw [List.foldl_cons]
      apply ih
      simp only [Value.putAt]
      split
      · next path _ => exact path.distinct_put distinct member.2
      · exact Value.Distinct.put member.2 member.1 distinct

/-- The value at the end of a row of names. -/
def Value.at? : List String → Value → Option Value
  | [], value => some value
  | name :: names, value => (value.members.lookup name).bind (at? names)

/-- A path turns off a row of names at one of its first two steps. -/
inductive Path.Avoids : List String → Path → Prop where
  | name {first text : String} {names : List String} (raw : text ≠ first)
      (lowered : lowerName text ≠ first) : Avoids (first :: names) (.name text)
  | sibling {first second text : String} {names : List String} (raw : text ≠ second)
      (lowered : lowerName text ≠ second) :
      Avoids (first :: second :: names) (.member (.name first) text)
  | member {names : List String} {parent : Path} (text : String) (before : Avoids names parent) :
      Avoids names (.member parent text)
  | element {names : List String} {parent : Path} (index : Int) (before : Avoids names parent) :
      Avoids names (.element parent index)

theorem Value.at?_singleton (name : String) (value : Value) :
    value.at? [name] = value.members.lookup name := by
  simp [at?]

namespace Path

variable {names : List String} {path : Path}

theorem at?_change_of_avoids (avoids : path.Avoids names) (change : Value → Value) (root : Value) :
    (path.change change root).at? names = root.at? names := by
  induction avoids generalizing change with
  | name raw lowered => simp [Path.change, Value.at?, lookup_changeMember, Ne.symm raw]
  | @sibling first second text names raw lowered =>
      simp only [Path.change, Value.at?, Value.lookup_change, if_true, Option.bind_some]
      cases root.members.lookup first <;> simp [Ne.symm raw]
  | member text before ih => exact ih _
  | element index before ih => exact ih _

theorem at?_put_of_avoids (avoids : path.Avoids names) (value root : Value) :
    (path.put value root).at? names = root.at? names := by
  cases avoids with
  | name raw lowered => simp [Path.put, Value.at?, Value.lookup_put, Ne.symm lowered]
  | @sibling first second text names raw lowered =>
      simp only [Path.put, Path.change, Value.at?, Value.lookup_change, if_true, Option.bind_some]
      cases root.members.lookup first <;> simp [Value.lookup_put, Ne.symm lowered]
  | member text before => exact at?_change_of_avoids before _ _
  | element index before => exact at?_change_of_avoids before _ _

/-- What is put at a path of one name is found there. -/
theorem at?_put_name {text : String} (lowered : lowerName text = text) (value root : Value) :
    ((name text).put value root).at? [text] =
      some (((root.at? [text]).getD .emptyTable).overlay value) := by
  simp [put, Value.at?_singleton, Value.lookup_put, lowered]

/-- What is put at a path of two names is found there. -/
theorem at?_put_member {first second : String} (lowered : lowerName second = second)
    (value root : Value) :
    ((member (name first) second).put value root).at? [first, second] =
      some (((root.at? [first, second]).getD .emptyTable).overlay value) := by
  simp only [put, change, Value.at?, Value.lookup_change, if_true, Option.bind_some]
  cases root.members.lookup first <;> simp [Value.lookup_put, lowered]

/-- Something under a name of a section makes a table of the section. -/
theorem isTable_put_member (first second : String) (value root : Value) :
    ∃ group : Value, group.IsTable ∧
      ((member (name first) second).put value root).members.lookup first = some group := by
  refine ⟨_, ?_, Value.lookup_change _ _ _ _ _ |>.trans (if_pos rfl)⟩
  exact Value.isTable_put _ _ _

end Path

/-- A key turns off a row of names, be it a path or not. -/
def KeyAvoids (names : List String) (key : String) : Prop :=
  match Path.parse? key with
  | some path => path.Avoids names
  | none => ∀ first ∈ names.head?, lowerName key ≠ first

theorem Value.at?_putAt_of_avoids {first : String} {names : List String} {key : String}
    (avoids : KeyAvoids (first :: names) key) (value root : Value) :
    (root.putAt key value).at? (first :: names) = root.at? (first :: names) := by
  rw [KeyAvoids] at avoids
  rw [Value.putAt]
  rcases found : Path.parse? key with _ | path <;> rw [found] at avoids
  · have apart : first ≠ lowerName key := (avoids first (by simp)).symm
    simp [at?, lookup_put, apart]
  · exact Path.at?_put_of_avoids avoids value root

/-! ## Names in any case -/

section

variable {α : Type}

/-- The value of the first member whose name, in lower case, is the given one. -/
def memberNamed? (name : String) (members : List (String × α)) : Option α :=
  (members.find? fun member => lowerName member.1 == name).map Prod.snd

/-- No two members have the given name, in whatever case. -/
def NamedOnce (name : String) (members : List (String × α)) : Prop :=
  (members.filter fun member => lowerName member.1 == name).length ≤ 1

variable {name : String} {member : String × α} {members : List (String × α)} {value : α}

theorem memberNamed?_cons (name : String) (member : String × α) (members : List (String × α)) :
    memberNamed? name (member :: members) =
      if lowerName member.1 = name then some member.2 else memberNamed? name members := by
  simp only [memberNamed?, List.find?_cons]
  split <;> simp_all

theorem mem_of_memberNamed? (found : memberNamed? name members = some value) :
    ∃ key, lowerName key = name ∧ (key, value) ∈ members := by
  rcases Option.map_eq_some_iff.mp found with ⟨⟨key, value⟩, first, rfl⟩
  exact ⟨key, by simpa using List.find?_some first, List.mem_of_find?_eq_some first⟩

theorem namedOnce_of_pairwise
    (apart : members.Pairwise fun one other => lowerName one.1 = name → lowerName other.1 ≠ name) :
    NamedOnce name members := by
  induction apart with
  | nil => exact Nat.zero_le 1
  | @cons member members first _ ih =>
      rw [NamedOnce, List.filter_cons]
      split
      · next named =>
          have others : members.filter (fun member => lowerName member.1 == name) = [] :=
            List.filter_eq_nil_iff.mpr fun other there same =>
              first other there (eq_of_beq named) (eq_of_beq same)
          rw [others]
          exact Nat.le_refl 1
      · exact ih

theorem namedOnce_of_nodup (distinct : (members.map fun member => lowerName member.1).Nodup)
    (name : String) : NamedOnce name members :=
  namedOnce_of_pairwise ((List.pairwise_map.mp distinct).imp fun apart one other =>
    apart (one.trans other.symm))

/-- If only the name itself becomes the name in lower case, then finding a member is looking it
up. -/
theorem memberNamed?_eq_lookup (lowered : lowerName name = name)
    (exact : ∀ member ∈ members, lowerName member.1 = name → member.1 = name) :
    memberNamed? name members = members.lookup name := by
  induction members with
  | nil => rfl
  | cons member members ih =>
      have later := ih fun member there => exact member (List.mem_cons_of_mem _ there)
      rw [memberNamed?_cons, List.lookup_cons]
      by_cases same : member.1 = name
      · rw [if_pos (same ▸ lowered), same, beq_self_eq_true]
      · rw [if_neg fun named => same (exact member List.mem_cons_self named),
          beq_false_of_ne (Ne.symm same)]
        exact later

theorem namedOnce_of_exact (distinct : (members.map Prod.fst).Nodup)
    (exact : ∀ member ∈ members, lowerName member.1 = name → member.1 = name) :
    NamedOnce name members :=
  namedOnce_of_pairwise ((List.pairwise_map.mp distinct).imp_of_mem
    fun isOne isOther apart one other =>
      apart ((exact _ isOne one).trans (exact _ isOther other).symm))

theorem NamedOnce.later (once : NamedOnce name (member :: members)) : NamedOnce name members := by
  rw [NamedOnce, List.filter_cons] at once
  split at once
  · exact Nat.le_of_succ_le once
  · exact once

theorem NamedOnce.none (once : NamedOnce name (member :: members))
    (named : lowerName member.1 = name) : memberNamed? name members = none := by
  have others : (members.filter fun member => lowerName member.1 == name) = [] := by
    simpa [NamedOnce, List.filter_cons, named] using once
  simpa [memberNamed?] using others

end

namespace Value

/-- A name is put into a table, or something else that leaves `name` alone. -/
theorem lookup_foldl {put : Value → String × Value → Value} {name : String}
    {members : List (String × Value)}
    (puts : ∀ member ∈ members, ∀ root : Value, (put root member).members.lookup name =
      if lowerName member.1 = name then
        some (((root.members.lookup name).getD emptyTable).overlay member.2)
      else root.members.lookup name)
    (once : NamedOnce name members) (root : Value) :
    (members.foldl put root).members.lookup name =
      match memberNamed? name members with
      | some value => some (((root.members.lookup name).getD emptyTable).overlay value)
      | none => root.members.lookup name := by
  induction members generalizing root with
  | nil => rfl
  | cons member members ih =>
      have now := puts member List.mem_cons_self root
      rw [List.foldl_cons, ih (fun member later => puts member (List.mem_cons_of_mem _ later))
        once.later, memberNamed?_cons]
      by_cases named : lowerName member.1 = name
      · rw [if_pos named] at now
        simp [named, once.none named, now]
      · rw [if_neg named] at now
        simp [named, now]

theorem putAll_eq_foldl (members : List (String × Value)) (root : Value) :
    root.putAll members = members.foldl (fun root member => root.put member.1 member.2) root := by
  induction members generalizing root with
  | nil => rw [putAll, List.foldl_nil]
  | cons member members ih => rw [putAll, ih, List.foldl_cons]

/-- What is found in a table after members have been put into it. -/
theorem lookup_putAll {name : String} {members : List (String × Value)}
    (once : NamedOnce name members) (root : Value) :
    (root.putAll members).members.lookup name =
      match memberNamed? name members with
      | some value => some (((root.members.lookup name).getD emptyTable).overlay value)
      | none => root.members.lookup name := by
  rw [putAll_eq_foldl]
  apply lookup_foldl _ once
  intro member _ root
  rw [lookup_put]
  split <;> simp_all [eq_comm]

end Value

/-- A key that is not a path of several steps. -/
def IsWord (key : String) : Prop :=
  Path.parse? key = none ∨ Path.parse? key = some (.name key)

/-- A key is a mere name, or a path that turns off the given name at once. -/
def KeyClear (name key : String) : Prop :=
  IsWord key ∨ (KeyAvoids [name] key ∧ lowerName key ≠ name)

/-- What is found in a configuration after the members of a source have been laid over it. -/
theorem Value.lookup_layer {name : String} {members : List (String × Value)}
    (clear : ∀ member ∈ members, KeyClear name member.1) (once : NamedOnce name members)
    (root : Value) :
    (root.layer members).members.lookup name =
      match memberNamed? name members with
      | some value => some (((root.members.lookup name).getD emptyTable).overlay value)
      | none => root.members.lookup name := by
  rw [layer]
  apply lookup_foldl _ once
  intro member there root
  change (root.putAt member.1 member.2).members.lookup name = _
  rcases clear member there with word | ⟨avoids, other⟩
  · have isPut : root.putAt member.1 member.2 = root.put member.1 member.2 := by
      rw [putAt]
      rcases word with none | name
      · rw [none]
      · rw [name]; rfl
    rw [isPut, lookup_put]
    split <;> simp_all [eq_comm]
  · have same := at?_putAt_of_avoids avoids member.2 root
    rw [if_neg other]
    simpa [at?_singleton] using same

end BridgeFinder.Layered
