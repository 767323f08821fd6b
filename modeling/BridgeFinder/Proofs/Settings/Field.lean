import BridgeFinder.Settings.Schema

/-!
# Single settings

The schema lists what the formats call the settings.  Here every setting has a name of its own, so
that one can say what a single setting has become.  Storing a value changes one setting and leaves
the others alone; so going through the members of a source comes to looking every setting up.
-/

namespace BridgeFinder.Settings

/-- A single setting. -/
inductive Field where
  | workers
  | httpTimeout
  | configPath
  | cloudUrl
  | multicastAddress
  | multicastPort
  | multicastTimeout
  | sendCount
  | sendInterval
  | answerDelay
  | window
  | pollTimeout
  | serviceTypes
  | scanPort
  | connectTimeout
  | concurrency
deriving DecidableEq, Repr

/-- The value of a single setting. -/
inductive Datum where
  | natural (value : Nat)
  | text (value : String)
  | address (value : Net.Ipv4)
  | texts (values : List String)
deriving DecidableEq, Repr

namespace Field

/-- All single settings. -/
def all : List Field :=
  [workers, httpTimeout, configPath, cloudUrl, multicastAddress, multicastPort, multicastTimeout,
    sendCount, sendInterval, answerDelay, window, pollTimeout, serviceTypes, scanPort,
    connectTimeout, concurrency]

/-- The section that a setting belongs to, unless it stands at the top. -/
def group? : Field → Option String
  | workers | httpTimeout | configPath => none
  | cloudUrl => some "nupnp"
  | multicastAddress | multicastPort | multicastTimeout | sendCount | sendInterval | answerDelay =>
      some "upnp"
  | window | pollTimeout | serviceTypes => some "mdns"
  | scanPort | connectTimeout | concurrency => some "ipscan"

/-- The name of a setting in its section. -/
def name : Field → String
  | workers => "worker_threads"
  | httpTimeout => "http_timeout_ms"
  | configPath => "config_path"
  | cloudUrl => "url"
  | multicastAddress => "multicast_addr"
  | multicastPort => "port"
  | multicastTimeout => "timeout_ms"
  | sendCount => "send_count"
  | sendInterval => "send_interval_ms"
  | answerDelay => "mx"
  | window => "window_ms"
  | pollTimeout => "poll_timeout_ms"
  | serviceTypes => "service_types"
  | scanPort => "port"
  | connectTimeout => "connect_timeout_ms"
  | concurrency => "max_concurrent"

/-- What a setting is in given settings. -/
def get (field : Field) (s : Settings) : Datum :=
  match field with
  | workers => .natural s.workers.toNat
  | httpTimeout => .natural s.httpTimeout.toNat
  | configPath => .text s.configPath
  | cloudUrl => .text s.cloud.url
  | multicastAddress => .address s.multicast.address
  | multicastPort => .natural s.multicast.port.toNat
  | multicastTimeout => .natural s.multicast.timeout.toNat
  | sendCount => .natural s.multicast.sendCount.toNat
  | sendInterval => .natural s.multicast.sendInterval.toNat
  | answerDelay => .natural s.multicast.answerDelay.toNat
  | window => .natural s.browse.window.toNat
  | pollTimeout => .natural s.browse.pollTimeout.toNat
  | serviceTypes => .texts s.browse.serviceTypes
  | scanPort => .natural s.scan.port.toNat
  | connectTimeout => .natural s.scan.connectTimeout.toNat
  | concurrency => .natural s.scan.concurrency.toNat

/-- The setting of the given name in a section, or at the top. -/
def named? (group : Option String) (name : String) : Option Field :=
  all.find? fun field => field.group? == group && field.name == name

theorem named?_eq_some {group : Option String} {name : String} {field : Field} :
    named? group name = some field ↔ field.group? = group ∧ field.name = name := by
  constructor
  · intro found
    simpa using List.find?_some found
  · rintro ⟨rfl, rfl⟩
    cases field <;> decide

/-- A setting has a place of its own in the schema. -/
theorem eq_of_name {one other : Field} (group : one.group? = other.group?)
    (name : one.name = other.name) : one = other := by
  have found := named?_eq_some.mpr ⟨group, name⟩
  rw [named?_eq_some.mpr ⟨rfl, rfl⟩] at found
  exact (Option.some.inj found).symm

/-- The leaves of the schema in a section, or at the top. -/
def leaves : Option String → List (String × Leaf)
  | none => schema.filterMap fun (name, entry) =>
      match entry with
      | .leaf setting => some (name, setting)
      | .group _ => none
  | some group =>
      match schema.lookup group with
      | some (.group settings) => settings.leaves
      | _ => []

/-- The leaf of the schema that stands for a setting. -/
def leaf (field : Field) : Leaf :=
  ((leaves field.group?).lookup field.name).get (by cases field <;> decide)

theorem lookup_leaves (field : Field) :
    (leaves field.group?).lookup field.name = some field.leaf := by
  simp [leaf]

/-- Settings that agree in every single setting are the same. -/
theorem ext {s t : Settings} (agree : ∀ field : Field, field.get s = field.get t) : s = t := by
  rcases s with ⟨_, _, _, ⟨_⟩, ⟨_, _, _, _, _, _⟩, ⟨_, _, _⟩, ⟨_, _, _⟩⟩
  rcases t with ⟨_, _, _, ⟨_⟩, ⟨_, _, _, _, _, _⟩, ⟨_, _, _⟩, ⟨_, _, _⟩⟩
  have top := And.intro (agree workers) (And.intro (agree httpTimeout) (agree configPath))
  have cloud := agree cloudUrl
  have multicast := And.intro (agree multicastAddress) (And.intro (agree multicastPort)
    (And.intro (agree multicastTimeout) (And.intro (agree sendCount)
      (And.intro (agree sendInterval) (agree answerDelay)))))
  have browse := And.intro (agree window) (And.intro (agree pollTimeout) (agree serviceTypes))
  have scan := And.intro (agree scanPort) (And.intro (agree connectTimeout) (agree concurrency))
  simp only [get, Datum.natural.injEq, Datum.text.injEq, Datum.address.injEq, Datum.texts.injEq,
    UInt16.toNat_inj, UInt32.toNat_inj, UInt64.toNat_inj] at top cloud multicast browse scan
  simp only [top, cloud, multicast, browse, scan]

end Field

/-! ## The places of the settings in the schema -/

theorem mem_of_lookup {α : Type} {name : String} {value : α} {entries : List (String × α)}
    (found : entries.lookup name = some value) : (name, value) ∈ entries := by
  rcases List.lookup_eq_some_iff.mp found with ⟨before, after, rfl, _⟩
  simp

theorem lookup_of_mem {α : Type} {name : String} {value : α} {entries : List (String × α)}
    (distinct : (entries.map Prod.fst).Nodup) (member : (name, value) ∈ entries) :
    entries.lookup name = some value := by
  induction entries with
  | nil => cases member
  | cons entry entries ih =>
      rw [List.map_cons, List.nodup_cons] at distinct
      rcases List.mem_cons.mp member with rfl | later
      · exact List.lookup_cons_self
      · have apart : name ≠ entry.1 := by
          rintro rfl
          exact distinct.1 (List.mem_map.mpr ⟨_, later, rfl⟩)
        rw [List.lookup_cons, beq_false_of_ne apart]
        exact ih distinct.2 later

namespace Field

/-- A section of the schema, or its top, holds the settings that belong to it. -/
theorem leaves_eq (group : Option String) :
    leaves group = (all.filter fun field => field.group? == group).map fun field =>
      (field.name, field.leaf) := by
  rcases group with _ | group
  · rfl
  · by_cases known : group = "nupnp" ∨ group = "upnp" ∨ group = "mdns" ∨ group = "ipscan"
    · rcases known with rfl | rfl | rfl | rfl <;> rfl
    · simp only [not_or] at known
      have none : leaves (some group) = [] := by
        simp only [leaves]
        split
        · next settings found =>
            have place := mem_of_lookup found
            simp [schema, known] at place
        · rfl
      have elsewhere (field : Field) : field.group? ≠ some group := by
        intro place
        cases field <;> cases place <;> simp at known
      simp [none, elsewhere]

/-- A leaf in a section, or at the top, is that of a setting. -/
theorem exists_of_lookup_leaves {group : Option String} {name : String} {setting : Leaf}
    (found : (leaves group).lookup name = some setting) :
    ∃ field : Field, field.group? = group ∧ field.name = name ∧ field.leaf = setting := by
  have member := mem_of_lookup found
  rw [leaves_eq] at member
  simp only [List.mem_map, List.mem_filter, beq_iff_eq, Prod.mk.injEq] at member
  rcases member with ⟨field, ⟨-, place⟩, named, rfl⟩
  exact ⟨field, place, named, rfl⟩

/-- A name at the top that is that of a leaf is that of a setting. -/
theorem exists_of_lookup_leaf {name : String} {setting : Leaf}
    (found : schema.lookup name = some (.leaf setting)) :
    ∃ field : Field, field.group? = none ∧ field.name = name ∧ field.leaf = setting := by
  have member := mem_of_lookup found
  have leaf : (name, setting) ∈ leaves none :=
    List.mem_filterMap.mpr ⟨(name, .leaf setting), member, rfl⟩
  rw [leaves_eq] at leaf
  simp only [List.mem_map, List.mem_filter, beq_iff_eq, Prod.mk.injEq] at leaf
  rcases leaf with ⟨field, ⟨-, place⟩, named, rfl⟩
  exact ⟨field, place, named, rfl⟩

theorem lookup_schema {field : Field} (place : field.group? = none) :
    schema.lookup field.name = some (.leaf field.leaf) := by
  cases field <;> first | rfl | cases place

/-- The section of a setting is one of the schema. -/
theorem exists_section {field : Field} {group : String} (place : field.group? = some group) :
    ∃ settings : Section, schema.lookup group = some (.group settings) := by
  cases field <;> cases place <;> exact ⟨_, rfl⟩

/-- A section of the schema has the leaves of the settings that belong to it. -/
theorem leaves_of_lookup {group : String} {settings : Section}
    (found : schema.lookup group = some (.group settings)) :
    settings.leaves = leaves (some group) := by
  simp [leaves, found]

/-- A leaf of a section is that of a setting in it. -/
theorem exists_of_lookup_section {group name : String} {settings : Section} {setting : Leaf}
    (known : schema.lookup group = some (.group settings))
    (found : settings.leaves.lookup name = some setting) :
    ∃ field : Field, field.group? = some group ∧ field.name = name ∧ field.leaf = setting :=
  exists_of_lookup_leaves (leaves_of_lookup known ▸ found)

theorem lookup_section {field : Field} {group : String} {settings : Section}
    (place : field.group? = some group) (found : schema.lookup group = some (.group settings)) :
    settings.leaves.lookup field.name = some field.leaf := by
  rw [leaves_of_lookup found, ← place]
  exact field.lookup_leaves

end Field

/-! ## Storing values -/

/-- Store a value in a leaf; one of another type is left out. -/
def Leaf.put : Leaf → Datum → Settings → Settings
  | .natural _ store, .natural value => store value
  | .text store, .text value => store value
  | .address store, .address value => store value
  | .texts store, .texts values => store values
  | _, _ => id

/-- A leaf can hold a value: it is of the type of the leaf, and in its range. -/
def Leaf.Admits : Leaf → Datum → Prop
  | .natural width _, .natural value => value ≤ width.largest
  | .text _, .text _ => True
  | .address _, .address _ => True
  | .texts _, .texts _ => True
  | _, _ => False

namespace Field

/-- What is stored in the leaf of a setting is what that setting becomes. -/
theorem get_put {field : Field} {datum : Datum} (admits : field.leaf.Admits datum) (s : Settings) :
    field.get (field.leaf.put datum s) = datum := by
  have bits16 (value : Nat) (small : value ≤ Width.bits16.largest) :
      (UInt16.ofNat value).toNat = value := UInt16.toNat_ofNat_of_lt' (Nat.lt_succ_of_le small)
  have bits32 (value : Nat) (small : value ≤ Width.bits32.largest) :
      (UInt32.ofNat value).toNat = value := UInt32.toNat_ofNat_of_lt' (Nat.lt_succ_of_le small)
  have bits64 (value : Nat) (small : value ≤ Width.bits64.largest) :
      (UInt64.ofNat value).toNat = value := UInt64.toNat_ofNat_of_lt' (Nat.lt_succ_of_le small)
  cases field <;> cases datum <;> first
    | exact False.elim admits
    | rfl
    | exact congrArg Datum.natural (bits16 _ admits)
    | exact congrArg Datum.natural (bits32 _ admits)
    | exact congrArg Datum.natural (bits64 _ admits)

/-- What is stored in the leaf of a setting leaves the other settings alone. -/
theorem get_put_of_ne {field other : Field} (apart : other ≠ field) (datum : Datum)
    (s : Settings) : other.get (field.leaf.put datum s) = other.get s := by
  cases field <;> cases datum <;> cases other <;> first
    | rfl
    | exact absurd rfl apart

/-- The leaf of a setting holds what the setting is. -/
theorem admits_get (field : Field) (s : Settings) : field.leaf.Admits (field.get s) := by
  cases field <;> first
    | trivial
    | exact Nat.le_of_lt_succ (UInt16.toNat_lt _)
    | exact Nat.le_of_lt_succ (UInt32.toNat_lt _)
    | exact Nat.le_of_lt_succ (UInt64.toNat_lt _)

end Field

/-! ## Going through the members of a source -/

section

variable {α ε : Type} {step : Settings → String × α → Except ε Settings}
  {entries : List (String × α)} {s t : Settings}

/-- Every member of a source that has another name leaves a setting alone.  If no name is repeated,
then going through all members makes of the setting what the member of its name makes of it. -/
theorem get_foldlM (field : Field) (name : String) (given : α → Option Datum)
    (keeps : ∀ entry ∈ entries, entry.1 ≠ name → ∀ s t, step s entry = .ok t →
      field.get t = field.get s)
    (takes : ∀ value, (name, value) ∈ entries → ∀ s t, step s (name, value) = .ok t →
      field.get t = (given value).getD (field.get s))
    (distinct : (entries.map Prod.fst).Nodup) (read : entries.foldlM step s = .ok t) :
    field.get t = ((entries.lookup name).bind given).getD (field.get s) := by
  induction entries generalizing s with
  | nil => cases read; rfl
  | cons entry entries ih =>
      rcases entry with ⟨key, value⟩
      rw [List.foldlM_cons] at read
      rcases first : step s (key, value) with _ | middle <;> rw [first] at read
      · cases read
      · have rest := ih (fun entry member => keeps entry (List.mem_cons_of_mem _ member))
          (fun value member => takes value (List.mem_cons_of_mem _ member))
          (List.nodup_cons.mp distinct).2 read
        by_cases mine : key = name
        · subst mine
          have absent : entries.lookup key = none := by
            rw [List.lookup_eq_none_iff]
            intro other member
            have apart : key ≠ other.1 := fun same =>
              (List.nodup_cons.mp distinct).1 (List.mem_map.mpr ⟨other, member, same.symm⟩)
            simpa using apart
          have now := takes value List.mem_cons_self _ _ first
          simpa [absent, List.lookup_cons, now] using rest
        · rw [rest, keeps _ List.mem_cons_self mine _ _ first]
          simp [List.lookup_cons, beq_false_of_ne (Ne.symm mine)]

/-- Going through the members of a source succeeds if every single one can be read. -/
theorem exists_foldlM (reads : ∀ entry ∈ entries, ∀ s, ∃ t, step s entry = .ok t) (s : Settings) :
    ∃ t, entries.foldlM step s = .ok t := by
  induction entries generalizing s with
  | nil => exact ⟨s, rfl⟩
  | cons entry entries ih =>
      rcases reads entry List.mem_cons_self s with ⟨middle, first⟩
      rcases ih (fun entry member => reads entry (List.mem_cons_of_mem _ member)) middle with
        ⟨t, rest⟩
      exact ⟨t, by rw [List.foldlM_cons, first]; exact rest⟩

/-- Going through the members of a source succeeds only if every single one can be read. -/
theorem exists_of_foldlM (read : entries.foldlM step s = .ok t) {entry : String × α}
    (member : entry ∈ entries) : ∃ before after, step before entry = .ok after := by
  induction entries generalizing s with
  | nil => cases member
  | cons head entries ih =>
      rw [List.foldlM_cons] at read
      rcases first : step s head with _ | middle <;> rw [first] at read
      · cases read
      · rcases List.mem_cons.mp member with rfl | later
        · exact ⟨s, middle, first⟩
        · exact ih read later

end

end BridgeFinder.Settings
