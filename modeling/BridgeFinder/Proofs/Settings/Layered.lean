import BridgeFinder.Proofs.Layered.Merge
import BridgeFinder.Proofs.Settings.Conversion

/-!
# Reading a layered configuration

Reading all of a configuration comes to converting, for every setting, what stands at the end of
its route.  It succeeds if the sections are tables and all that is found there can be converted.
-/

namespace BridgeFinder.Settings

open Layered (Value)

/-! ## Sections -/

/-- Read one member of a section. -/
def Section.readMember (group : Section) (key : String) (s : Settings) (member : String × Value) :
    Except LayeredError Settings :=
  match group.leaves.lookup member.1 with
  | some leaf => leaf.readLayered (key ++ "." ++ member.1) member.2 s
  | none => .ok s

theorem Section.readMembers_eq_foldlM (group : Section) (key : String)
    (members : List (String × Value)) (s : Settings) :
    group.readMembers key members s = members.foldlM (group.readMember key) s := by
  induction members generalizing s with
  | nil => rfl
  | cons member members ih =>
      simp only [List.foldlM_cons, readMembers, readMember, ih]
      cases group.leaves.lookup member.1 <;> rfl

section

variable {group : Section} {name key : String} {field : Field} {s t : Settings}

/-- Values that are read into other settings leave a setting alone. -/
theorem get_readElements {entries : List (String × Leaf)}
    (apart : ∀ entry ∈ entries, ∃ other : Field, field ≠ other ∧ other.leaf = entry.2)
    {values : List Value} {index : Nat}
    (read : readElements key index entries values s = .ok t) : field.get t = field.get s := by
  induction entries generalizing values index s with
  | nil => cases read; rfl
  | cons entry entries ih =>
      rcases values with _ | ⟨value, values⟩
      · cases read; rfl
      · rcases bind_eq_ok.mp read with ⟨middle, first, read⟩
        rcases apart entry List.mem_cons_self with ⟨other, different, same⟩
        rw [← same] at first
        rw [ih (fun entry member => apart entry (List.mem_cons_of_mem _ member)) read,
          Field.get_readLayered_of_ne different first]

/-- A member of a section leaves the settings of other sections and names alone. -/
theorem Section.get_readMember_of_ne (known : schema.lookup name = some (.group group))
    {member : String × Value} (apart : field.group? ≠ some name ∨ field.name ≠ member.1)
    (read : group.readMember key s member = .ok t) : field.get t = field.get s := by
  rw [readMember] at read
  split at read
  · next found =>
      rcases Field.exists_of_lookup_section known found with ⟨other, place, named, rfl⟩
      refine Field.get_readLayered_of_ne ?_ read
      rintro rfl
      exact apart.elim (· place) (· named)
  · cases read; rfl

/-- Reading a section leaves the settings of other sections alone. -/
theorem Section.get_readLayered_of_group_ne (known : schema.lookup name = some (.group group))
    (elsewhere : field.group? ≠ some name) {value : Value}
    (read : group.readLayered key value s = .ok t) : field.get t = field.get s := by
  rcases value with _ | ⟨origin, values⟩ | ⟨origin, members⟩
  · cases read
  · refine get_readElements (fun entry member => ?_) read
    rw [Field.leaves_of_lookup known, Field.leaves_eq] at member
    simp only [List.mem_map, List.mem_filter, beq_iff_eq] at member
    rcases member with ⟨other, ⟨-, place⟩, rfl⟩
    exact ⟨other, fun same => elsewhere (same ▸ place), rfl⟩
  · change group.readMembers key members s = .ok t at read
    rw [readMembers_eq_foldlM] at read
    induction members generalizing s with
    | nil => cases read; rfl
    | cons member members ih =>
        rw [List.foldlM_cons] at read
        rcases bind_eq_ok.mp read with ⟨middle, first, read⟩
        rw [ih read, get_readMember_of_ne known (.inl elsewhere) first]

/-- Reading a section that is a table makes of a setting what the member of its name gives. -/
theorem Section.get_readMembers {members : List (String × Value)}
    (known : schema.lookup name = some (.group group)) (place : field.group? = some name)
    (distinct : (members.map Prod.fst).Nodup)
    (admits : ∀ value datum, members.lookup field.name = some value →
      field.leaf.convert? value = some datum → field.leaf.Admits datum)
    (read : group.readMembers key members s = .ok t) :
    field.get t = ((members.lookup field.name).bind field.leaf.convert?).getD (field.get s) := by
  rw [readMembers_eq_foldlM] at read
  refine get_foldlM field field.name field.leaf.convert? ?_ ?_ distinct read
  · exact fun entry _ other s t step => get_readMember_of_ne known (.inr (Ne.symm other)) step
  · intro value member s t step
    rw [readMember, Field.lookup_section place known] at step
    exact Field.get_readLayered step fun datum => admits value datum (lookup_of_mem distinct member)

/-- A section that is a table can be read if all that it has for its settings can be converted. -/
theorem Section.exists_readMembers {members : List (String × Value)}
    (known : schema.lookup name = some (.group group)) (distinct : (members.map Prod.fst).Nodup)
    (converts : ∀ (field : Field) (value : Value), field.group? = some name →
      members.lookup field.name = some value → (field.leaf.convert? value).isSome)
    (key : String) (s : Settings) : ∃ t, group.readMembers key members s = .ok t := by
  rw [readMembers_eq_foldlM]
  refine exists_foldlM (fun member there s => ?_) s
  simp only [readMember]
  split
  · next found =>
      rcases Field.exists_of_lookup_section known found with ⟨field, place, named, rfl⟩
      exact Field.exists_readLayered
        (converts field member.2 place (lookup_of_mem distinct (named ▸ there))) _ s
  · exact ⟨s, rfl⟩

end

/-! ## Whole configurations -/

/-- The names that lead to a setting. -/
def Field.route (field : Field) : List String :=
  field.group?.toList ++ [field.name]

theorem Field.at?_route_of_top {field : Field} (place : field.group? = none)
    (configuration : Value) :
    configuration.at? field.route = configuration.members.lookup field.name := by
  simp [route, place, Value.at?]

theorem Field.at?_route_of_section {field : Field} {name : String}
    (place : field.group? = some name) (configuration : Value) :
    configuration.at? field.route =
      (configuration.members.lookup name).bind fun value => value.members.lookup field.name := by
  simp [route, place, Value.at?]

/-- Read one member of a configuration. -/
def readMemberLayered (s : Settings) (member : String × Value) : Except LayeredError Settings :=
  match schema.lookup member.1 with
  | some entry => entry.readLayered member.1 member.2 s
  | none => .ok s

theorem readMembersLayered_eq_foldlM (members : List (String × Value)) (s : Settings) :
    readMembersLayered members s = members.foldlM readMemberLayered s := by
  induction members generalizing s with
  | nil => rfl
  | cons member members ih =>
      simp only [List.foldlM_cons, readMembersLayered, readMemberLayered, ih]
      cases schema.lookup member.1 <;> rfl

/-- What a configuration has for a section is a table. -/
def Tabular (configuration : Value) (name : String) : Prop :=
  ∀ value, configuration.members.lookup name = some value →
    ∃ origin members, value = .table origin members

section

variable {configuration : Value} {s t : Settings}

/-- A member with another name than the one at the top that leads to a setting leaves it alone. -/
theorem Field.get_readMemberLayered_of_ne {field : Field} {member : String × Value}
    (apart : member.1 ≠ field.group?.getD field.name)
    (read : readMemberLayered s member = .ok t) : field.get t = field.get s := by
  rw [readMemberLayered] at read
  split at read
  · next entry found =>
      rcases entry with leaf | group
      · rcases exists_of_lookup_leaf found with ⟨other, place, named, rfl⟩
        refine get_readLayered_of_ne ?_ read
        rintro rfl
        rw [place, Option.getD_none] at apart
        exact apart named.symm
      · refine Section.get_readLayered_of_group_ne found (fun place => ?_) read
        rw [place, Option.getD_some] at apart
        exact apart rfl
  · cases read; rfl

/-- Reading a configuration makes of a setting what stands at the end of its route. -/
theorem Field.get_readMembersLayered {field : Field} (distinct : configuration.Distinct)
    (tabular : ∀ name, field.group? = some name → Tabular configuration name)
    (admits : ∀ value datum, configuration.at? field.route = some value →
      field.leaf.convert? value = some datum → field.leaf.Admits datum)
    (read : readMembersLayered configuration.members s = .ok t) :
    field.get t =
      ((configuration.at? field.route).bind field.leaf.convert?).getD (field.get s) := by
  rw [readMembersLayered_eq_foldlM] at read
  rcases place : field.group? with _ | name
  · rw [at?_route_of_top place] at admits ⊢
    refine get_foldlM field _ _ (fun entry _ other s t => ?_) ?_ distinct.names read
    · exact get_readMemberLayered_of_ne (by rwa [place, Option.getD_none])
    · intro value member s t step
      rw [readMemberLayered, lookup_schema place] at step
      exact get_readLayered step fun datum =>
        admits value datum (lookup_of_mem distinct.names member)
  · rcases exists_section place with ⟨group, known⟩
    rw [at?_route_of_section place] at admits ⊢
    rw [Option.bind_assoc]
    refine get_foldlM field _ _ (fun entry _ other s t => ?_) ?_ distinct.names read
    · exact get_readMemberLayered_of_ne (by rwa [place, Option.getD_some])
    · intro value member s t step
      have there := lookup_of_mem distinct.names member
      rcases tabular name place value there with ⟨origin, members, rfl⟩
      rw [readMemberLayered, known] at step
      refine Section.get_readMembers known place (distinct.member member).names ?_ step
      intro value datum found
      exact admits value datum (by rw [there]; exact found)

/-- What is under the name of a section is a table if a setting is found in it. -/
theorem Field.tabular_of_at? {field : Field} {value : Value}
    (found : configuration.at? field.route = some value) {name : String}
    (place : field.group? = some name) : Tabular configuration name := by
  intro there isThere
  rw [at?_route_of_section place, isThere, Option.bind_some] at found
  rcases there with _ | _ | ⟨origin, members⟩
  · cases found
  · cases found
  · exact ⟨origin, members, rfl⟩

/-- A configuration can be read only if what it has for the settings can be converted. -/
theorem Field.exists_convert? {field : Field} {value : Value}
    (found : configuration.at? field.route = some value)
    (read : readMembersLayered configuration.members s = .ok t) :
    ∃ datum, field.leaf.convert? value = some datum := by
  have converted {key : String} {before after : Settings}
      (read : field.leaf.readLayered key value before = .ok after) :
      ∃ datum, field.leaf.convert? value = some datum := by
    rcases Leaf.readLayered_eq_ok.mp read with ⟨datum, converted, -⟩
    exact ⟨datum, converted⟩
  rw [readMembersLayered_eq_foldlM] at read
  rcases place : field.group? with _ | name
  · rw [at?_route_of_top place] at found
    rcases exists_of_foldlM read (mem_of_lookup found) with ⟨before, after, step⟩
    rw [readMemberLayered, lookup_schema place] at step
    exact converted step
  · have tabular := tabular_of_at? found place
    rw [at?_route_of_section place, Option.bind_eq_some_iff] at found
    rcases found with ⟨there, isThere, found⟩
    rcases tabular there isThere with ⟨origin, members, rfl⟩
    rcases exists_section place with ⟨group, known⟩
    rcases exists_of_foldlM read (mem_of_lookup isThere) with ⟨before, after, step⟩
    simp only [readMemberLayered, known] at step
    change group.readMembers name members before = .ok after at step
    rw [Section.readMembers_eq_foldlM] at step
    rcases exists_of_foldlM step (mem_of_lookup found) with ⟨first, last, inner⟩
    rw [Section.readMember, lookup_section place known] at inner
    exact converted inner

/-- A configuration can be read if its sections are tables and all that it has for the settings can
be converted. -/
theorem exists_readMembersLayered (distinct : configuration.Distinct)
    (tabular : ∀ name group, schema.lookup name = some (.group group) →
      Tabular configuration name)
    (converts : ∀ (field : Field) (value : Value), configuration.at? field.route = some value →
      (field.leaf.convert? value).isSome) (s : Settings) :
    ∃ t, readMembersLayered configuration.members s = .ok t := by
  rw [readMembersLayered_eq_foldlM]
  refine exists_foldlM (fun member there s => ?_) s
  have found := lookup_of_mem distinct.names there
  simp only [readMemberLayered]
  split
  · next setting known =>
      rcases setting with setting | group
      · rcases Field.exists_of_lookup_leaf known with ⟨field, place, named, rfl⟩
        refine Field.exists_readLayered (converts field member.2 ?_) _ s
        rw [Field.at?_route_of_top place, named, found]
      · rcases tabular _ group known _ found with ⟨origin, members, same⟩
        rw [same]
        have inner := (distinct.member there).names
        rw [same] at inner
        refine Section.exists_readMembers known inner ?_ _ s
        intro field value place given
        refine converts field value ?_
        rw [Field.at?_route_of_section place, found, Option.bind_some, same]
        exact given
  · exact ⟨s, rfl⟩

/-- What stands at the end of the route of a setting can be converted to the given value, or
nothing stands there. -/
def Tells (configuration : Value) (field : Field) : Option Datum → Prop
  | some datum => ∃ value, configuration.at? field.route = some value ∧
      field.leaf.convert? value = some datum ∧ field.leaf.Admits datum
  | none => configuration.at? field.route = none

/-- Reading a configuration that tells something sensible for every setting gives settings that are
what it tells, or else what they have been. -/
theorem exists_of_tells (distinct : configuration.Distinct)
    (tabular : ∀ name group, schema.lookup name = some (.group group) →
      Tabular configuration name)
    {said : Field → Option Datum} (tells : ∀ field, Tells configuration field (said field))
    (s : Settings) :
    ∃ t, readMembersLayered configuration.members s = .ok t ∧
      ∀ field : Field, field.get t = (said field).getD (field.get s) := by
  have meets (field : Field) (value : Value)
      (found : configuration.at? field.route = some value) :
      ∃ datum, field.leaf.convert? value = some datum ∧ field.leaf.Admits datum := by
    have tells := tells field
    generalize said field = datum? at tells
    rcases datum? with _ | datum
    · exact absurd (tells.symm.trans found) (by simp)
    · rcases tells with ⟨there, isThere, converted⟩
      cases isThere.symm.trans found
      exact ⟨datum, converted⟩
  have converts (field : Field) (value : Value)
      (found : configuration.at? field.route = some value) :
      (field.leaf.convert? value).isSome := by
    rcases meets field value found with ⟨datum, converted, -⟩
    rw [converted]; rfl
  rcases exists_readMembersLayered distinct tabular converts s with ⟨t, read⟩
  refine ⟨t, read, fun field => ?_⟩
  rw [Field.get_readMembersLayered distinct _ _ read]
  · have tells := tells field
    generalize said field = datum? at tells ⊢
    rcases datum? with _ | datum
    · rw [show configuration.at? field.route = none from tells]; rfl
    · rcases tells with ⟨value, isThere, converted, -⟩
      rw [isThere, Option.bind_some, converted]
  · intro name place
    rcases Field.exists_section place with ⟨group, known⟩
    exact tabular name group known
  · intro value datum found converted
    rcases meets field value found with ⟨other, made, admits⟩
    cases made.symm.trans converted
    exact admits

end

end BridgeFinder.Settings
