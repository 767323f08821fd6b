import BridgeFinder.Proofs.Settings.Layered
import Mathlib.Data.List.Basic

/-!
# What a file and the environment have for the settings

A file has a value for a setting under its name, in whatever case, in the table of its section.  A
variable has one if its name is made of the prefix and of the names of section and setting.  Laying
the environment over a file replaces the values of the settings that it names, and nothing else.
-/

namespace BridgeFinder.Settings

open Layered (Value Path Environment KeyClear NamedOnce lowerName memberNamed? variableKey?
  variableValue)

/-! ## Files -/

/-- What the members of a file have for a setting. -/
def Field.member? (field : Field) (members : List (String × Value)) : Option Value :=
  match field.group? with
  | none => memberNamed? field.name members
  | some name =>
      (memberNamed? name members).bind fun group => memberNamed? field.name group.members

/-- The members of a file say what they give: no name of the schema is repeated, whatever its case,
no other key is a path that begins with one, and what they have for a section is a table. -/
structure Unambiguous (members : List (String × Value)) : Prop where
  clear : ∀ name entry, schema.lookup name = some entry →
    ∀ member ∈ members, KeyClear name member.1
  once : ∀ name entry, schema.lookup name = some entry → NamedOnce name members
  table : ∀ name group value, schema.lookup name = some (.group group) →
    memberNamed? name members = some value → value.IsTable
  within : ∀ (field : Field) name value, field.group? = some name →
    memberNamed? name members = some value → NamedOnce field.name value.members

section

variable {members : List (String × Value)}

theorem Unambiguous.lookup_layer (unambiguous : Unambiguous members) {name : String}
    {entry : Entry} (known : schema.lookup name = some entry) :
    (Value.emptyTable.layer members).members.lookup name =
      (memberNamed? name members).map Value.emptyTable.overlay := by
  rw [Value.lookup_layer (unambiguous.clear name entry known) (unambiguous.once name entry known)]
  cases memberNamed? name members <;> rfl

/-- The sections of a file are tables after the file has been laid. -/
theorem Unambiguous.tabular (unambiguous : Unambiguous members) {name : String} {group : Section}
    (known : schema.lookup name = some (.group group)) :
    Tabular (Value.emptyTable.layer members) name := by
  intro value found
  rw [unambiguous.lookup_layer known, Option.map_eq_some_iff] at found
  rcases found with ⟨given, there, rfl⟩
  rcases unambiguous.table name group given known there with ⟨origin, inner, rfl⟩
  exact Value.IsTable.putAll ⟨_, _, rfl⟩ inner

/-- What a file has for a setting stands at the end of its route after the file has been laid. -/
theorem Unambiguous.at?_layer (unambiguous : Unambiguous members) (field : Field) :
    (Value.emptyTable.layer members).at? field.route =
      (field.member? members).map Value.emptyTable.overlay := by
  rcases place : field.group? with _ | name
  · simp only [Field.at?_route_of_top place, Field.member?, place,
      unambiguous.lookup_layer (Field.lookup_schema place)]
  · rcases Field.exists_section place with ⟨group, known⟩
    simp only [Field.at?_route_of_section place, Field.member?, place,
      unambiguous.lookup_layer known]
    rcases there : memberNamed? name members with _ | value
    · rfl
    · rcases unambiguous.table name group value known there with ⟨origin, inner, rfl⟩
      have once := unambiguous.within field name _ place there
      change NamedOnce field.name inner at once
      simp only [Option.map_some, Option.bind_some, Value.overlay, Value.members_table]
      rw [Value.lookup_putAll once]
      cases memberNamed? field.name inner <;> rfl

end

/-- What is put in place of nothing is the value itself, if a leaf can convert it. -/
theorem convert?_overlay (leaf : Leaf) (value : Value) :
    leaf.convert? (Value.emptyTable.overlay value) = leaf.convert? value := by
  rcases value with _ | _ | ⟨origin, members⟩
  · rfl
  · rfl
  · have table : Value.IsTable (Value.emptyTable.putAll members) :=
      Value.IsTable.putAll ⟨_, _, rfl⟩ members
    rcases table with ⟨other, inner, same⟩
    rw [Value.overlay, same]
    cases leaf with
    | natural width store => rfl
    | text store => rfl
    | address store => rfl
    | texts store => rfl

/-! ## Keys of settings -/

namespace Field

/-- The key of a setting. -/
def key (field : Field) : String :=
  field.group?.elim field.name fun group => group ++ "." ++ field.name

/-- The path that the key of a setting is. -/
def path (field : Field) : Path :=
  field.group?.elim (.name field.name) fun group => .member (.name group) field.name

theorem parse?_key (field : Field) : Path.parse? field.key = some field.path := by
  cases field <;> decide +kernel

theorem lowerName_name (field : Field) : lowerName field.name = field.name := by
  cases field <;> decide

theorem lowerName_group {field : Field} {name : String} (place : field.group? = some name) :
    lowerName name = name := by
  cases field <;> cases place <;> decide

/-- No setting at the top is called like a section. -/
theorem name_ne_group {field other : Field} {name : String} (place : other.group? = some name)
    (top : field.group? = none) : field.name ≠ name := by
  rintro rfl
  rcases exists_section place with ⟨group, known⟩
  rw [lookup_schema top] at known
  cases known

/-- The path of a setting turns off the ways to the others. -/
theorem path_avoids {field other : Field} (apart : other ≠ field) :
    field.path.Avoids other.route := by
  have names (group : field.group? = other.group?) : field.name ≠ other.name :=
    fun same => apart (eq_of_name group same).symm
  have lowered {name : String} (raw : field.name ≠ name) : lowerName field.name ≠ name :=
    field.lowerName_name.symm ▸ raw
  rcases mine : field.group? with _ | group <;> rcases yours : other.group? with _ | name <;>
    simp only [path, route, mine, yours, Option.elim_none, Option.elim_some, Option.toList_none,
      Option.toList_some, List.nil_append, List.singleton_append]
  · have raw := names (mine.trans yours.symm)
    exact .name raw (lowered raw)
  · have raw := name_ne_group yours mine
    exact .name raw (lowered raw)
  · have raw := (name_ne_group mine yours).symm
    exact .member _ (.name raw ((lowerName_group mine).symm ▸ raw))
  · by_cases same : group = name
    · subst same
      have raw := names (mine.trans yours.symm)
      exact .sibling raw (lowered raw)
    · exact .member _ (.name same ((lowerName_group mine).symm ▸ same))

theorem eq_of_key {one other : Field} (same : one.key = other.key) : one = other := by
  have paths : one.path = other.path :=
    Option.some.inj (one.parse?_key.symm.trans (same ▸ other.parse?_key))
  rcases mine : one.group? with _ | group <;> rcases yours : other.group? with _ | name <;>
    simp only [path, mine, yours, Option.elim_none, Option.elim_some, Path.name.injEq,
      Path.member.injEq, reduceCtorEq] at paths
  · exact eq_of_name (mine.trans yours.symm) paths
  · exact eq_of_name (mine.trans ((congrArg some paths.1).trans yours.symm)) paths.2

/-- A scalar that is put under the key of a setting is found at the end of its route, and it
changes nothing for the other settings. -/
theorem at?_putAt_key (field other : Field) (origin : Option String) (found : Found)
    (root : Value) :
    (root.putAt field.key (.scalar origin found)).at? other.route =
      if other = field then some (.scalar origin found) else root.at? other.route := by
  simp only [Value.putAt, field.parse?_key]
  by_cases same : other = field
  · subst same
    simp only [if_true, path, route]
    rcases other.group? with _ | group
    · exact Path.at?_put_name other.lowerName_name _ _
    · exact Path.at?_put_member other.lowerName_name _ _
  · rw [if_neg same]
    exact Path.at?_put_of_avoids (path_avoids same) _ _

end Field

/-- Sections stay tables when something is put under the key of a setting. -/
theorem Tabular.putAt_key {root : Value} {name : String} {group : Section}
    (known : schema.lookup name = some (.group group)) (tabular : Tabular root name)
    (field : Field) (value : Value) : Tabular (root.putAt field.key value) name := by
  intro there found
  simp only [Value.putAt, field.parse?_key] at found
  have avoided (avoids : field.path.Avoids [name]) : there.IsTable := by
    apply tabular there
    rw [← Value.at?_singleton] at found ⊢
    rw [← found, Path.at?_put_of_avoids avoids]
  rcases place : field.group? with _ | other
  · have raw : field.name ≠ name := by
      rintro rfl
      rw [Field.lookup_schema place] at known
      cases known
    refine avoided ?_
    simp only [Field.path, place, Option.elim_none]
    exact .name raw (field.lowerName_name.symm ▸ raw)
  · by_cases same : other = name
    · subst same
      rcases Path.isTable_put_member other field.name value root with ⟨group, table, isThere⟩
      simp only [Field.path, place, Option.elim_some] at found
      rw [isThere] at found
      exact Option.some.inj found ▸ table
    · refine avoided ?_
      simp only [Field.path, place, Option.elim_some]
      exact .member _ (.name same ((Field.lowerName_group place).symm ▸ same))

/-! ## Variables -/

/-- The name of the variable that overrides a setting. -/
def Field.variable (field : Field) : String :=
  "HUE_DISCOVERY__" ++
    Text.upper (field.group?.elim field.name fun group => group ++ "__" ++ field.name)

/-- The name of a variable begins with the prefix, in whatever case. -/
def hasPrefix (name : String) : Bool :=
  Layered.variablePrefix.isPrefixOf (lowerName name).toList

theorem variableKey?_eq_none {name : String} (other : hasPrefix name = false) :
    variableKey? name = none := by
  rw [variableKey?, Option.map_eq_none_iff, ← Option.not_isSome_iff_eq_none,
    List.isSome_isPrefixOf?_eq_isPrefixOf]
  exact Bool.not_eq_true _ ▸ other

/-- The text that the environment has for a setting. -/
def Field.override? (field : Field) (environment : Environment) : Option String :=
  memberNamed? (lowerName field.variable) environment

/-- The variables that have the prefix are each that of a setting, and none is repeated, whatever
the case of their names. -/
structure Overriding (environment : Environment) : Prop where
  known : ∀ entry ∈ environment, hasPrefix entry.1 = true →
    ∃ field : Field, lowerName entry.1 = lowerName field.variable
  once : ∀ field : Field, NamedOnce (lowerName field.variable) environment

theorem Overriding.cases {entry : String × String} {environment : Environment}
    (overriding : Overriding (entry :: environment)) :
    variableKey? entry.1 = none ∨
      ∃ field : Field, lowerName entry.1 = lowerName field.variable := by
  cases marked : hasPrefix entry.1
  · exact .inl (variableKey?_eq_none marked)
  · exact .inr (overriding.known entry List.mem_cons_self marked)

theorem Overriding.later {entry : String × String} {environment : Environment}
    (overriding : Overriding (entry :: environment)) : Overriding environment :=
  ⟨fun entry member => overriding.known entry (List.mem_cons_of_mem _ member),
    fun field => (overriding.once field).later⟩

theorem variableKey?_of_variable {field : Field} {name : String}
    (named : lowerName name = lowerName field.variable) : variableKey? name = some field.key := by
  rw [variableKey?, named]
  cases field <;> decide +kernel

theorem Field.eq_of_variable {one other : Field}
    (same : lowerName one.variable = lowerName other.variable) : one = other :=
  eq_of_key (Option.some.inj ((variableKey?_of_variable rfl).symm.trans
    (variableKey?_of_variable same)))

section

variable {environment : Environment}

theorem members_cons (entry : String × String) (environment : Environment) :
    Environment.members (entry :: environment) =
      match variableKey? entry.1 with
      | some key =>
          (key, .scalar (some Layered.environmentOrigin) (variableValue entry.2)) ::
            environment.members
      | none => environment.members := by
  simp only [Layered.Environment.members, List.filterMap_cons]
  cases variableKey? entry.1 <;> rfl

/-- Only the variables that have the prefix give anything. -/
theorem members_filter (environment : Environment) :
    Environment.members (environment.filter fun entry => hasPrefix entry.1) =
      environment.members := by
  rw [Environment.members, List.filterMap_filter]
  refine List.filterMap_congr fun ⟨name, text⟩ _ => ?_
  cases marked : hasPrefix name
  · simp [variableKey?_eq_none marked]
  · rfl

/-- The environment replaces what a configuration has for the settings that it names. -/
theorem Overriding.at?_layer (overriding : Overriding environment) (root : Value)
    (field : Field) :
    (root.layer environment.members).at? field.route =
      ((field.override? environment).map fun text =>
        .scalar (some Layered.environmentOrigin) (variableValue text)).or
          (root.at? field.route) := by
  induction environment generalizing root with
  | nil => rfl
  | cons entry environment ih =>
      have later := overriding.later
      rw [members_cons, Field.override?, Layered.memberNamed?_cons]
      rcases overriding.cases with other | ⟨named, isNamed⟩
      · have unnamed : lowerName entry.1 ≠ lowerName field.variable := by
          intro same
          rw [variableKey?_of_variable same] at other
          cases other
        rw [other, if_neg unnamed]
        exact ih later root
      · rw [variableKey?_of_variable isNamed]
        change (Value.layer (root.putAt named.key _)
          (Environment.members environment)).at? field.route = _
        rw [ih later, Field.at?_putAt_key, isNamed]
        by_cases same : field = named
        · subst same
          simp [Field.override?, (overriding.once field).none isNamed]
        · have apart : lowerName named.variable ≠ lowerName field.variable :=
            fun eq => same (Field.eq_of_variable eq).symm
          rw [if_neg same, if_neg apart]
          rfl

/-- Sections stay tables under the environment. -/
theorem Overriding.tabular (overriding : Overriding environment) {root : Value} {name : String}
    {group : Section} (known : schema.lookup name = some (.group group))
    (tabular : Tabular root name) : Tabular (root.layer environment.members) name := by
  induction environment generalizing root with
  | nil => exact tabular
  | cons entry environment ih =>
      have later := overriding.later
      rw [members_cons]
      rcases overriding.cases with other | ⟨named, isNamed⟩
      · rw [other]
        exact ih later tabular
      · rw [variableKey?_of_variable isNamed]
        exact ih later (tabular.putAt_key known named _)

end

/-! ## Both together -/

/-- The members of the file, if one is named. -/
def fileMembers (path : Option String) (files : Layered.Files) :
    Except Layered.FileError (List (String × Value)) :=
  match path with
  | some path => files.members path
  | none => pure []

section

variable {path : Option String} {files : Layered.Files} {environment : Environment}
  {members : List (String × Value)}

theorem ofLayers_eq (read : fileMembers path files = .ok members) (environment : Environment) :
    ofLayers path files environment =
      readMembersLayered
        ((Value.emptyTable.layer members).layer environment.members).members {} := by
  have given : layers path files environment =
      .ok ((Value.emptyTable.layer members).layer environment.members) := by
    rcases path with _ | path
    · cases read; rfl
    · change files.members path = _ at read
      simp [layers, read, bind, Except.bind, pure, Except.pure]
  simp [ofLayers, given, bind, Except.bind, Except.mapError]

/-- Nothing is loaded if the file cannot be read. -/
theorem exists_members_of_ofLayers {s : Settings}
    (loaded : ofLayers path files environment = .ok s) :
    ∃ members, fileMembers path files = .ok members := by
  rcases path with _ | path
  · exact ⟨[], rfl⟩
  · rcases read : files.members path with error | members
    · simp [ofLayers, layers, read, bind, Except.bind, Except.mapError] at loaded
    · exact ⟨members, read⟩

theorem distinct_layers (members : List (String × Value)) (environment : Environment) :
    ((Value.emptyTable.layer members).layer environment.members).Distinct :=
  (Value.distinct_emptyTable.layer members).layer environment.members

end

end BridgeFinder.Settings
