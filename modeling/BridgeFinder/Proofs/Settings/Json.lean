import BridgeFinder.Proofs.Json.Layout
import BridgeFinder.Proofs.Json.Printing
import BridgeFinder.Proofs.Json.Reading
import BridgeFinder.Proofs.Net.Ipv4
import BridgeFinder.Proofs.Settings.Conversion
import BridgeFinder.Settings.Json
import Mathlib.Data.Finset.Basic

/-!
# Settings from JSON

An object carries some of the settings if it names just these, in any order and with anything else
between them, and gives each its value.  Read from such an object, the settings it carries are the
given ones, and all others have their defaults, whether their section is absent, empty or partial.
Printed settings carry everything, so they are read back as they were.
-/

namespace BridgeFinder.Settings

open Json
  (ElementTexts IsBlank IsText IsValue Layout MemberTexts Opens Reader Reads Takes Value reads_map)

/-! ## Copying settings -/

/-- Copy the listed settings of `c`. -/
def copy (c : Settings) (fields : List Field) (s : Settings) : Settings :=
  fields.foldl (fun s field => field.leaf.put (field.get c) s) s

section

variable {c s : Settings} {fields others : List Field}

theorem Field.get_copy (field : Field) :
    field.get (copy c fields s) = if field ∈ fields then field.get c else field.get s := by
  induction fields generalizing s with
  | nil => simp [copy]
  | cons other fields ih =>
      have later := ih (s := other.leaf.put (other.get c) s)
      rw [copy, List.foldl_cons, ← copy, later]
      by_cases same : field = other
      · subst same
        simp [get_put (admits_get field c)]
      · simp [same, get_put_of_ne same]

/-- Which settings are copied does not depend on the order. -/
theorem copy_congr (same : ∀ field, field ∈ fields ↔ field ∈ others) :
    copy c fields s = copy c others s :=
  Field.ext fun field => by simp only [Field.get_copy, same]

theorem Field.mem_all (field : Field) : field ∈ all := by
  cases field <;> decide

end

/-! ## Written values -/

/-- The text writes the value: a number in decimal, and texts in any spelling. -/
def Datum.IsWritten : Datum → List Char → Prop
  | .natural n, chars => chars = Nat.toDigits 10 n
  | .text value, chars => IsText value chars
  | .address value, chars => IsText value.text chars
  | .texts values, chars => ∃ items body, chars = '[' :: body ∧ ElementTexts true items body ∧
      List.Forall₂ IsText values items

theorem reads_texts {values : List String} {items : List (List Char)}
    (written : List.Forall₂ IsText values items) :
    List.Forall₂ (Reads Json.string) items values ∧ ∀ item ∈ items, Opens item := by
  induction written with
  | nil => exact ⟨.nil, nofun⟩
  | cons first _ ih =>
      refine ⟨.cons first.reads ih.1, fun item member => ?_⟩
      rcases List.mem_cons.mp member with rfl | later
      · exact first.opens
      · exact ih.2 item later

/-- A written value is read and stored. -/
theorem Datum.IsWritten.reads {datum : Datum} {text : List Char} (written : datum.IsWritten text)
    {leaf : Leaf} (admits : leaf.Admits datum) (s : Settings) :
    Reads (leaf.readJson s) text (leaf.put datum s) := by
  cases leaf <;> cases datum <;> first | exact False.elim admits | skip
  case natural width store n =>
    cases written
    exact reads_map (Json.reads_natural admits width.largest_lt _) fun n => store n s
  case text store value =>
    have isText : IsText value text := written
    exact reads_map isText.reads fun value => store value s
  case address store value =>
    have isText : IsText value.text text := written
    refine reads_map (isText.readsAs ?_) fun value => store value s
    simp only [Net.Ipv4.parse?_text]
  case texts store values =>
    rcases written with ⟨items, body, rfl, elements, each⟩
    rcases reads_texts each with ⟨reads, opens⟩
    exact reads_map (Json.reads_list elements reads opens) fun values => store values s

/-! ## Members -/

section

variable {α : Type} {entries : List (String × α)} {read : α → Settings → Reader Settings}
  {name : String} {members : List (String × List Char)} {c s t : Settings} {text : List Char}
  {given : List String}

theorem fieldNamed?_map (entries : List (String × α)) (read : α → Settings → Reader Settings)
    (name : String) :
    Json.fieldNamed? (entries.map fun (name, entry) => draftField name (read entry)) name =
      (entries.lookup name).map fun entry => draftField name (read entry) := by
  induction entries with
  | nil => rfl
  | cons entry entries ih =>
      rcases entry with ⟨key, value⟩
      simp only [Json.fieldNamed?, List.map_cons, List.find?_cons, List.lookup_cons] at ih ⊢
      by_cases same : name = key
      · subst same
        simp [draftField]
      · simpa [draftField, beq_false_of_ne same, beq_false_of_ne (Ne.symm same)] using ih

theorem reads_draftField {entry : α} (reads : Reads (read entry s) text t) :
    Reads ((draftField name (read entry)).read ⟨given, s⟩) text ⟨name :: given, t⟩ :=
  reads_map reads (Draft.mk (name :: given))

/-- Members of which none is known twice are taken one after another, if every known one copies some
settings and every other one is a value of any shape. -/
theorem takes_of_members {copied : String × List Char → List Field}
    (known : ∀ member ∈ members, ∀ entry, entries.lookup member.1 = some entry →
      ∀ s, Reads (read entry s) member.2 (copy c (copied member) s))
    (unknown : ∀ member ∈ members, entries.lookup member.1 = none →
      IsValue member.2 ∧ copied member = [])
    (once : ∀ name entry, entries.lookup name = some entry →
      (members.map Prod.fst).count name ≤ 1)
    (fresh : ∀ member ∈ members, ∀ entry, entries.lookup member.1 = some entry →
      member.1 ∉ given) (s : Settings) :
    ∃ given', Takes (entries.map fun (name, entry) => draftField name (read entry)) ⟨given, s⟩
      members ⟨given', copy c (members.flatMap copied) s⟩ := by
  induction members generalizing given s with
  | nil => exact ⟨given, .nil _⟩
  | cons member members ih =>
      rcases member with ⟨name, text⟩
      have knownLater := fun member there => known member (List.mem_cons_of_mem _ there)
      have unknownLater := fun member there => unknown member (List.mem_cons_of_mem _ there)
      have onceLater : ∀ name entry, entries.lookup name = some entry →
          (members.map Prod.fst).count name ≤ 1 := fun name entry found =>
        Nat.le_trans (List.count_le_count_cons ..) (once name entry found)
      have found := fieldNamed?_map entries read name
      rw [List.flatMap_cons, copy, List.foldl_append, ← copy, ← copy]
      rcases isKnown : entries.lookup name with _ | entry <;> rw [isKnown] at found
      · rcases unknown _ List.mem_cons_self isKnown with ⟨value, nothing⟩
        rcases ih knownLater unknownLater onceLater
          (fun member there => fresh member (List.mem_cons_of_mem _ there)) s with ⟨last, takes⟩
        rw [nothing]
        exact ⟨last, .unknown found value takes⟩
      · have apart : ∀ member ∈ members, ∀ entry, entries.lookup member.1 = some entry →
            member.1 ∉ name :: given := by
          intro member there other isOther
          rw [List.mem_cons, not_or]
          refine ⟨?_, fresh member (List.mem_cons_of_mem _ there) other isOther⟩
          rintro rfl
          have twice := once _ _ isKnown
          have again : 0 < (members.map Prod.fst).count member.1 :=
            List.count_pos_iff.mpr (List.mem_map.mpr ⟨member, there, rfl⟩)
          rw [List.map_cons, List.count_cons_self] at twice
          omega
        rcases ih knownLater unknownLater onceLater apart (copy c (copied (name, text)) s) with
          ⟨last, takes⟩
        have reads := known _ List.mem_cons_self entry isKnown s
        refine ⟨last, .known found ?_ (reads_draftField reads) takes⟩
        have free := fresh _ List.mem_cons_self entry isKnown
        simpa [draftField] using free

/-- A record is read by copying what its members copy. -/
theorem reads_recordOver {copied : String × List Char → List Field} {body : List Char}
    (object : MemberTexts IsText true members body)
    (known : ∀ member ∈ members, ∀ entry, entries.lookup member.1 = some entry →
      ∀ s, Reads (read entry s) member.2 (copy c (copied member) s))
    (unknown : ∀ member ∈ members, entries.lookup member.1 = none →
      IsValue member.2 ∧ copied member = [])
    (once : ∀ name entry, entries.lookup name = some entry →
      (members.map Prod.fst).count name ≤ 1) (title : String) (s : Settings) :
    Reads (recordOver s title (entries.map fun (name, entry) => draftField name (read entry))).read
      ('\x7b' :: body) (copy c (members.flatMap copied) s) := by
  rcases takes_of_members known unknown once (fun _ _ _ _ => List.not_mem_nil) s with ⟨last, takes⟩
  exact Json.reads_record object takes rfl

end

/-! ## Objects that carry settings -/

/-- The name is that of a section. -/
def IsGroup (name : String) : Prop :=
  ∃ field : Field, field.group? = some name

/-- The names of the sections, in order. -/
def groupNames : List String :=
  ["nupnp", "upnp", "mdns", "ipscan"]

theorem isGroup_iff_mem {name : String} : IsGroup name ↔ name ∈ groupNames := by
  constructor
  · rintro ⟨field, place⟩
    cases field <;> cases place <;> decide
  · simp only [groupNames, List.mem_cons, List.not_mem_nil, or_false]
    rintro (rfl | rfl | rfl | rfl)
    · exact ⟨.cloudUrl, rfl⟩
    · exact ⟨.multicastPort, rfl⟩
    · exact ⟨.window, rfl⟩
    · exact ⟨.scanPort, rfl⟩

theorem isGroup_iff {name : String} :
    IsGroup name ↔ ∃ group, schema.lookup name = some (.group group) := by
  constructor
  · rintro ⟨field, place⟩
    exact Field.exists_section place
  · rintro ⟨group, found⟩
    have member := mem_of_lookup found
    simp only [schema, List.mem_cons, Prod.mk.injEq, reduceCtorEq, and_false, false_or,
      List.not_mem_nil, or_false] at member
    rw [isGroup_iff_mem]
    rcases member with ⟨rfl, -⟩ | ⟨rfl, -⟩ | ⟨rfl, -⟩ | ⟨rfl, -⟩ <;> decide

/-- The members of a section, or of the top, carry exactly the settings of `S` that belong there:
each is given once, with the value that it has in `c`. -/
structure Carries (c : Settings) (S : Finset Field) (group : Option String)
    (members : List (String × List Char)) : Prop where
  given : ∀ field : Field, field.group? = group →
    (members.map Prod.fst).count field.name = if field ∈ S then 1 else 0
  values : ∀ field : Field, field.group? = group → ∀ member ∈ members, member.1 = field.name →
    (field.get c).IsWritten member.2

/-- The members of a section; those with other names may have any values. -/
structure IsSection (c : Settings) (S : Finset Field) (name : String)
    (members : List (String × List Char)) : Prop where
  carries : Carries c S (some name) members
  others : ∀ member ∈ members, (∀ field : Field, field.group? = some name →
    member.1 ≠ field.name) → IsValue member.2

/-- The members at the top.  A section is given at most once, and it must be given only if it has a
setting to carry. -/
structure IsTop (c : Settings) (S : Finset Field) (members : List (String × List Char)) : Prop where
  carries : Carries c S none members
  inside : ∀ field ∈ S, ∀ name, field.group? = some name → name ∈ members.map Prod.fst
  once : ∀ name, IsGroup name → (members.map Prod.fst).count name ≤ 1
  sections : ∀ member ∈ members, IsGroup member.1 → ∃ inner body, member.2 = '\x7b' :: body ∧
    MemberTexts IsText true inner body ∧ IsSection c S member.1 inner
  others : ∀ member ∈ members, ¬ IsGroup member.1 → (∀ field : Field, field.group? = none →
    member.1 ≠ field.name) → IsValue member.2

/-- A document that carries exactly the settings of `S` from `c`. -/
def IsDocument (c : Settings) (S : Finset Field) (document : String) : Prop :=
  ∃ before members body after, document.toList = before ++ ('\x7b' :: body ++ after) ∧
    IsBlank before ∧ IsBlank after ∧ MemberTexts IsText true members body ∧ IsTop c S members

section

variable {c s : Settings} {S : Finset Field} {place : Option String} {name : String}
  {members : List (String × List Char)} {field : Field}

theorem Carries.mem_iff (carries : Carries c S place members) (here : field.group? = place) :
    field.name ∈ members.map Prod.fst ↔ field ∈ S := by
  have count := carries.given field here
  rw [← List.count_pos_iff, count]
  split <;> simp [*]

theorem Carries.count_le (carries : Carries c S place members) (here : field.group? = place) :
    (members.map Prod.fst).count field.name ≤ 1 := by
  rw [carries.given field here]
  split <;> omega

/-- The setting that a name stands for in a section, or at the top, as a list. -/
def copiedAt (place : Option String) (name : String) : List Field :=
  (Field.named? place name).toList

theorem mem_copiedAt : field ∈ copiedAt place name ↔ field.group? = place ∧ field.name = name := by
  rw [copiedAt, Option.mem_toList, Field.named?_eq_some]

theorem copiedAt_eq (here : field.group? = place) (named : field.name = name) :
    copiedAt place name = [field] := by
  rw [copiedAt, Field.named?_eq_some.mpr ⟨here, named⟩]
  rfl

theorem copiedAt_eq_nil (other : ∀ field : Field, field.group? = place → name ≠ field.name) :
    copiedAt place name = [] := by
  rw [List.eq_nil_iff_forall_not_mem]
  intro field member
  rcases mem_copiedAt.mp member with ⟨here, named⟩
  exact other field here named.symm

/-- What the members of a section copy. -/
theorem mem_flatMap_copiedAt (carries : Carries c S place members) :
    field ∈ members.flatMap (fun member => copiedAt place member.1) ↔
      field.group? = place ∧ field ∈ S := by
  simp only [List.mem_flatMap, mem_copiedAt]
  constructor
  · rintro ⟨member, there, here, named⟩
    exact ⟨here, (carries.mem_iff here).mp (List.mem_map.mpr ⟨member, there, named.symm⟩)⟩
  · rintro ⟨here, carried⟩
    rcases List.mem_map.mp ((carries.mem_iff here).mpr carried) with ⟨member, there, named⟩
    exact ⟨member, there, here, named.symm⟩

/-- The settings of a section that are carried. -/
def copiedIn (S : Finset Field) (name : String) : List Field :=
  Field.all.filter fun field => field.group? = some name ∧ field ∈ S

theorem mem_copiedIn : field ∈ copiedIn S name ↔ field.group? = some name ∧ field ∈ S := by
  simp [copiedIn, Field.mem_all]

theorem copiedIn_eq_nil (other : ¬ IsGroup name) : copiedIn S name = [] := by
  rw [List.eq_nil_iff_forall_not_mem]
  exact fun field member => other ⟨field, (mem_copiedIn.mp member).1⟩

/-- A section is read by copying the settings that it carries. -/
theorem IsSection.reads (isSection : IsSection c S name members) {body : List Char}
    (object : MemberTexts IsText true members body) {group : Section}
    (isKnown : schema.lookup name = some (.group group)) (s : Settings) :
    Reads (group.readJson s) ('\x7b' :: body) (copy c (copiedIn S name) s) := by
  have reads : Reads (group.readJson s) ('\x7b' :: body)
      (copy c (members.flatMap fun member => copiedAt (some name) member.1) s) := by
    refine reads_recordOver object ?_ ?_ ?_ group.title s
    · intro member there leaf found s
      rcases Field.exists_of_lookup_section isKnown found with ⟨field, here, named, rfl⟩
      rw [copiedAt_eq here named]
      exact (isSection.carries.values field here member there named.symm).reads
        (field.admits_get c) s
    · intro member there notFound
      have other : ∀ field : Field, field.group? = some name → member.1 ≠ field.name := by
        intro field here named
        rw [named, Field.lookup_section here isKnown] at notFound
        cases notFound
      exact ⟨isSection.others member there other, copiedAt_eq_nil other⟩
    · intro key leaf found
      rcases Field.exists_of_lookup_section isKnown found with ⟨field, here, rfl, -⟩
      exact isSection.carries.count_le here
  have same : copy c (members.flatMap fun member => copiedAt (some name) member.1) s =
      copy c (copiedIn S name) s :=
    copy_congr fun field => (mem_flatMap_copiedAt isSection.carries).trans mem_copiedIn.symm
  exact same ▸ reads

/-- What the members at the top copy. -/
theorem IsTop.mem_flatMap (isTop : IsTop c S members) :
    field ∈ members.flatMap (fun member => copiedAt none member.1 ++ copiedIn S member.1) ↔
      field ∈ S := by
  simp only [List.mem_flatMap, List.mem_append, mem_copiedAt, mem_copiedIn]
  constructor
  · rintro ⟨member, there, ⟨here, named⟩ | ⟨-, carried⟩⟩
    · exact (isTop.carries.mem_iff here).mp (List.mem_map.mpr ⟨member, there, named.symm⟩)
    · exact carried
  · intro carried
    rcases here : field.group? with _ | name
    · rcases List.mem_map.mp ((isTop.carries.mem_iff here).mpr carried) with ⟨member, there, named⟩
      exact ⟨member, there, .inl ⟨rfl, named.symm⟩⟩
    · rcases List.mem_map.mp (isTop.inside field carried name here) with ⟨member, there, named⟩
      exact ⟨member, there, .inr ⟨by rw [named], carried⟩⟩

theorem Field.not_isGroup (here : field.group? = none) : ¬ IsGroup field.name := by
  intro isGroup
  rcases isGroup_iff.mp isGroup with ⟨group, found⟩
  cases (lookup_schema here).symm.trans found

/-- The whole of the settings is read by copying what is carried. -/
theorem IsTop.reads (isTop : IsTop c S members) {body : List Char}
    (object : MemberTexts IsText true members body) :
    Reads readJson ('\x7b' :: body) (copy c
      (members.flatMap fun member => copiedAt none member.1 ++ copiedIn S member.1) {}) := by
  refine reads_recordOver object ?_ ?_ ?_ title {}
  · intro member there entry found s
    rcases entry with leaf | group
    · rcases Field.exists_of_lookup_leaf found with ⟨field, here, named, rfl⟩
      rw [copiedAt_eq here named, ← named, copiedIn_eq_nil (Field.not_isGroup here)]
      exact (isTop.carries.values field here member there named.symm).reads (field.admits_get c) s
    · have isGroup := isGroup_iff.mpr ⟨group, found⟩
      rcases isTop.sections member there isGroup with ⟨inner, body, same, object, isSection⟩
      rw [same, copiedAt_eq_nil fun field here named => Field.not_isGroup here (named ▸ isGroup)]
      exact isSection.reads object found s
  · intro member there notFound
    have noGroup : ¬ IsGroup member.1 := by
      intro isGroup
      rcases isGroup_iff.mp isGroup with ⟨group, found⟩
      cases notFound.symm.trans found
    have other : ∀ field : Field, field.group? = none → member.1 ≠ field.name := by
      intro field here named
      rw [named, Field.lookup_schema here] at notFound
      cases notFound
    refine ⟨isTop.others member there noGroup other, ?_⟩
    rw [copiedAt_eq_nil other, copiedIn_eq_nil noGroup]
    rfl
  · intro name entry found
    rcases entry with leaf | group
    · rcases Field.exists_of_lookup_leaf found with ⟨field, here, rfl, -⟩
      exact isTop.carries.count_le here
    · exact isTop.once name (isGroup_iff.mpr ⟨group, found⟩)

/-- A document is read as the settings that it carries, over the defaults. -/
theorem IsDocument.ofJson_eq {document : String} (isDocument : IsDocument c S document) :
    ∃ s, ofJson document = .ok s ∧
      ∀ field : Field, field.get s = if field ∈ S then field.get c else field.get {} := by
  rcases isDocument with ⟨before, members, body, after, isText, blank, blankAfter, object, isTop⟩
  refine ⟨_, Json.decode_eq_ok isText blank blankAfter (isTop.reads object), fun field => ?_⟩
  simp only [Field.get_copy, isTop.mem_flatMap]

end

/-! ## Printed settings -/

/-- A value of a setting as a JSON value. -/
def Datum.toValue : Datum → Value
  | .natural n => .natural n
  | .text value => .string value
  | .address value => .string value.text
  | .texts values => .array (values.map .string)

/-- The settings of a section, or of the top, in order. -/
def fieldsAt (place : Option String) : List Field :=
  Field.all.filter fun field => field.group? = place

/-- The members that the settings of a section, or of the top, are printed as. -/
def membersAt (c : Settings) (place : Option String) : List (String × Value) :=
  (fieldsAt place).map fun field => (field.name, (field.get c).toValue)

/-- Settings are printed in the order of the schema, with an object for each section. -/
theorem toJson_eq (c : Settings) :
    toJson c = .object (membersAt c none ++
      groupNames.map fun name => (name, .object (membersAt c (some name)))) :=
  rfl

section

variable {write : Nat → Value → List Char} {c : Settings} {place : Option String}

/-- A printed value is a written one. -/
theorem Datum.isWritten_toValue (layout : ∀ level, Layout (write level) (write (level + 1)))
    (level : Nat) (datum : Datum) : datum.IsWritten (write level datum.toValue) := by
  have text (level : Nat) (value : String) : IsText value (write level (.string value)) := by
    rw [(layout level).string]
    exact Json.isText_quote value
  cases datum with
  | natural n => exact (layout level).natural n
  | text value => exact text level value
  | address value => exact text level value.text
  | texts values =>
      rcases (layout level).array (values.map .string) with ⟨body, same, elements⟩
      refine ⟨_, body, same, elements, ?_⟩
      rw [List.map_map, List.forall₂_map_right_iff, List.forall₂_same]
      exact fun value _ => text (level + 1) value

theorem mem_fieldsAt {field : Field} : field ∈ fieldsAt place ↔ field.group? = place := by
  simp [fieldsAt, Field.mem_all]

theorem nodup_names (place : Option String) : ((fieldsAt place).map Field.name).Nodup := by
  have distinct : Field.all.Nodup := by decide
  apply List.Nodup.map_on _ (distinct.filter _)
  intro one isOne other isOther same
  exact Field.eq_of_name ((mem_fieldsAt.mp isOne).trans (mem_fieldsAt.mp isOther).symm) same

/-- The members that are printed for a place carry all its settings. -/
theorem carries_membersAt (layout : ∀ level, Layout (write level) (write (level + 1)))
    (level : Nat) (c : Settings) (place : Option String) :
    Carries c Field.all.toFinset place
      ((membersAt c place).map fun member => (member.1, write level member.2)) := by
  have names :
      ((membersAt c place).map fun member => (member.1, write level member.2)).map Prod.fst =
      (fieldsAt place).map Field.name := by
    simp [membersAt]
  refine ⟨fun field here => ?_, fun field here member there named => ?_⟩
  · rw [names, if_pos (List.mem_toFinset.mpr field.mem_all)]
    exact List.count_eq_one_of_mem (nodup_names place)
      (List.mem_map.mpr ⟨field, mem_fieldsAt.mpr here, rfl⟩)
  · simp only [membersAt, List.map_map, List.mem_map, Function.comp_apply] at there
    rcases there with ⟨other, isOther, rfl⟩
    rw [← Field.eq_of_name ((mem_fieldsAt.mp isOther).trans here.symm) named]
    exact (other.get c).isWritten_toValue layout level

/-- The members of a place carry what they carry also if others stand with them. -/
theorem Carries.append {S : Finset Field} {members more : List (String × List Char)}
    (carries : Carries c S place members)
    (apart : ∀ member ∈ more, ∀ field : Field, field.group? = place → member.1 ≠ field.name) :
    Carries c S place (members ++ more) := by
  refine ⟨fun field here => ?_, fun field here member there named => ?_⟩
  · have none : (more.map Prod.fst).count field.name = 0 := by
      rw [List.count_eq_zero]
      intro there
      rcases List.mem_map.mp there with ⟨member, isMember, named⟩
      exact apart member isMember field here named
    rw [List.map_append, List.count_append, none, Nat.add_zero]
    exact carries.given field here
  · rcases List.mem_append.mp there with first | later
    · exact carries.values field here member first named
    · exact absurd named (apart member later field here)

theorem exists_of_mem_membersAt {print : Value → List Char} {member : String × List Char}
    (there : member ∈ (membersAt c place).map fun member => (member.1, print member.2)) :
    ∃ field : Field, field.group? = place ∧ member.1 = field.name := by
  simp only [membersAt, List.map_map, List.mem_map, Function.comp_apply] at there
  rcases there with ⟨field, isHere, rfl⟩
  exact ⟨field, mem_fieldsAt.mp isHere, rfl⟩

/-- The members of a printed section. -/
theorem isSection_membersAt (layout : ∀ level, Layout (write level) (write (level + 1)))
    (level : Nat) (c : Settings) (name : String) :
    IsSection c Field.all.toFinset name
      ((membersAt c (some name)).map fun member => (member.1, write level member.2)) := by
  refine ⟨carries_membersAt layout level c (some name), fun member there other => ?_⟩
  rcases exists_of_mem_membersAt there with ⟨field, here, named⟩
  exact absurd named (other field here)

/-- Printed settings are a document that carries all of them. -/
theorem isDocument_toJson (layout : ∀ level, Layout (write level) (write (level + 1)))
    (c : Settings) : IsDocument c Field.all.toFinset (String.ofList (write 0 (toJson c))) := by
  let sections := groupNames.map fun name => (name, Value.object (membersAt c (some name)))
  rcases (layout 0).object (membersAt c none ++ sections) with ⟨body, same, object⟩
  refine ⟨[], _, body, [], ?_, Json.isBlank_nil, Json.isBlank_nil, object, ?_⟩
  · rw [toJson_eq, same, String.toList_ofList, List.append_nil, List.nil_append]
  have printed {member : String × List Char}
      (there : member ∈ sections.map fun member => (member.1, write 1 member.2)) :
      ∃ name ∈ groupNames, member = (name, write 1 (.object (membersAt c (some name)))) := by
    simp only [sections, List.map_map, List.mem_map, Function.comp_apply] at there
    rcases there with ⟨name, isName, rfl⟩
    exact ⟨name, isName, rfl⟩
  rw [List.map_append]
  constructor
  case carries =>
    refine (carries_membersAt layout 1 c none).append fun member there field here named => ?_
    rcases printed there with ⟨name, isName, rfl⟩
    exact Field.not_isGroup here (named ▸ isGroup_iff_mem.mpr isName)
  case inside =>
    intro field _ name here
    rw [List.map_append, List.mem_append]
    right
    simpa [sections] using isGroup_iff_mem.mp ⟨field, here⟩
  case once =>
    intro name _
    have distinct : (((membersAt c none).map fun member => (member.1, write 1 member.2)) ++
        sections.map fun member => (member.1, write 1 member.2)).map Prod.fst =
          ["worker_threads", "http_timeout_ms", "config_path", "nupnp", "upnp", "mdns", "ipscan"] :=
      rfl
    rw [distinct]
    exact List.nodup_iff_count_le_one.mp (by decide) name
  case sections =>
    intro member there isGroup
    rcases List.mem_append.mp there with first | later
    · rcases exists_of_mem_membersAt first with ⟨field, here, named⟩
      exact absurd (named ▸ isGroup) (Field.not_isGroup here)
    · rcases printed later with ⟨name, -, rfl⟩
      rcases (layout 1).object (membersAt c (some name)) with ⟨body, same, object⟩
      exact ⟨_, body, same, object, isSection_membersAt layout 2 c name⟩
  case others =>
    intro member there noGroup other
    rcases List.mem_append.mp there with first | later
    · rcases exists_of_mem_membersAt first with ⟨field, here, named⟩
      exact absurd named (other field here)
    · rcases printed later with ⟨name, isName, rfl⟩
      exact absurd (isGroup_iff_mem.mpr isName) noGroup

/-- All settings are read from a document that carries all of them. -/
theorem IsDocument.ofJson_all {document : String}
    (isDocument : IsDocument c Field.all.toFinset document) : ofJson document = .ok c := by
  rcases isDocument.ofJson_eq with ⟨s, read, settings⟩
  have same : s = c := Field.ext fun field =>
    (settings field).trans (if_pos (List.mem_toFinset.mpr field.mem_all))
  exact same ▸ read

end

/-! ## The round trip -/

/-- From a document that carries some of the settings, these are read as they are and the others as
their defaults; so it does not matter in which order they come, whether a section without any is
there, and what else there is.  Printed settings are read back. -/
theorem ofJson_of_isDocument (c : Settings) :
    (∀ S document, IsDocument c S document → ∃ s, ofJson document = .ok s ∧
      ∀ field : Field, field.get s = if field ∈ S then field.get c else field.get {}) ∧
    (∀ S one other, IsDocument c S one → IsDocument c S other → ofJson one = ofJson other) ∧
    ofJson (toJson c).compact = .ok c ∧ ofJson (toJson c).pretty = .ok c := by
  refine ⟨fun S document isDocument => isDocument.ofJson_eq, fun S one other isOne isOther => ?_,
    (isDocument_toJson (fun _ => Json.layout_compact) c).ofJson_all,
    (isDocument_toJson Json.layout_pretty c).ofJson_all⟩
  rcases isOne.ofJson_eq with ⟨s, readOne, settingsOne⟩
  rcases isOther.ofJson_eq with ⟨t, readOther, settingsOther⟩
  have same : s = t := Field.ext fun field => (settingsOne field).trans (settingsOther field).symm
  rw [readOne, readOther, same]

/-- A document with an unknown member, a section with one setting and a section without any. -/
theorem ofJson_of_isDocument_partial :
    ofJson "\x7b\"x\": [1e9,\x7b\"a\":null\x7d],\"upnp\":\x7b\"mx\":7\x7d,\"nupnp\":\x7b\x7d\x7d" =
      .ok { multicast := { answerDelay := 7 } } := by
  let c : Settings := { workers := 9, multicast := { answerDelay := 7 } }
  have blank := Json.isBlank_nil
  have space := Json.isBlank_space
  have number : IsValue "1e9".toList :=
    .number ⟨[], by decide, ['1'], [], ['e', '9'], by decide, .inl rfl,
      .inr ⟨'e', by decide, [], by decide, ['9'], by decide, rfl⟩, by decide⟩
  have name : Json.IsString ['"', 'a', '"'] :=
    ⟨[['a']], List.forall_mem_singleton.mpr (.plain (by decide)), rfl⟩
  have object : MemberTexts (fun _ : Unit => Json.IsString) true [((), ['n', 'u', 'l', 'l'])] _ :=
    .member blank blank name blank blank (.close blank)
  have array : ElementTexts true ["1e9".toList, "\x7b\"a\":null\x7d".toList]
      "1e9,\x7b\"a\":null\x7d]".toList :=
    .element blank blank (.element blank blank (.close blank))
  have value : IsValue "[1e9,\x7b\"a\":null\x7d]".toList :=
    .array array (List.forall_mem_cons.mpr ⟨number,
      List.forall_mem_singleton.mpr (.object object (List.forall_mem_singleton.mpr .null))⟩)
  have inner : MemberTexts IsText true [("mx", ['7'])] "\"mx\":7\x7d".toList :=
    .member blank blank (Json.isText_quote "mx") blank blank (.close blank)
  have top : MemberTexts IsText true [("x", "[1e9,\x7b\"a\":null\x7d]".toList),
      ("upnp", "\x7b\"mx\":7\x7d".toList), ("nupnp", "\x7b\x7d".toList)]
      "\"x\": [1e9,\x7b\"a\":null\x7d],\"upnp\":\x7b\"mx\":7\x7d,\"nupnp\":\x7b\x7d\x7d".toList :=
    .member blank blank (Json.isText_quote "x") blank space
      (.member blank blank (Json.isText_quote "upnp") blank blank
        (.member blank blank (Json.isText_quote "nupnp") blank blank (.close blank)))
  let S : Finset Field := {.answerDelay}
  have upnp : IsSection c S "upnp" [("mx", ['7'])] := by
    refine ⟨⟨fun field => by cases field <;> decide, fun field here member there named => ?_⟩,
      fun member there other => ?_⟩ <;> cases List.mem_singleton.mp there
    · have same : field = .answerDelay := Field.eq_of_name here named.symm
      subst same
      exact show _ = Nat.toDigits 10 7 by decide
    · exact absurd rfl (other .answerDelay rfl)
  have nupnp : IsSection c S "nupnp" [] :=
    ⟨⟨fun field => by cases field <;> decide, nofun⟩, nofun⟩
  have isTop : IsTop c S [("x", "[1e9,\x7b\"a\":null\x7d]".toList),
      ("upnp", "\x7b\"mx\":7\x7d".toList), ("nupnp", "\x7b\x7d".toList)] := by
    refine ⟨⟨fun field => by cases field <;> decide, fun field here member there named => ?_⟩,
      fun field isIn name here => ?_, fun name _ => ?_, fun member there isGroup => ?_,
      fun member there noGroup other => ?_⟩
    · have keys : ∀ key ∈ ["x", "upnp", "nupnp"], field.group? = none → key ≠ field.name := by
        cases field <;> decide
      exact absurd named (keys member.1 (List.mem_map.mpr ⟨member, there, rfl⟩) here)
    · cases Finset.mem_singleton.mp isIn
      cases here
      decide
    · exact List.nodup_iff_count_le_one.mp (by decide) name
    · simp only [List.mem_cons, List.not_mem_nil, or_false] at there
      rcases there with rfl | rfl | rfl
      · exact absurd (isGroup_iff_mem.mp isGroup) (by decide)
      · exact ⟨_, _, rfl, inner, upnp⟩
      · exact ⟨[], _, rfl, .close blank, nupnp⟩
    · simp only [List.mem_cons, List.not_mem_nil, or_false] at there
      rcases there with rfl | rfl | rfl
      · exact value
      · exact absurd (isGroup_iff_mem.mpr (by decide)) noGroup
      · exact absurd (isGroup_iff_mem.mpr (by decide)) noGroup
  have carried : IsDocument c S
      "\x7b\"x\": [1e9,\x7b\"a\":null\x7d],\"upnp\":\x7b\"mx\":7\x7d,\"nupnp\":\x7b\x7d\x7d" :=
    ⟨[], _, _, [], by decide, blank, blank, top, isTop⟩
  rcases (ofJson_of_isDocument c).1 S _ carried with ⟨s, read, settings⟩
  have same : s = { multicast := { answerDelay := 7 } } := Field.ext fun field => by
    rw [settings field]
    cases field <;> decide
  exact same ▸ read

/-- A member whose name is half of a surrogate pair is not passed over, although no text has this
name: without it the object gives the defaults, and with it nothing. -/
theorem ofJson_of_unnamed :
    Json.IsObject [] "\x7b\x7d" ∧ ofJson "\x7b\x7d" = .ok {} ∧
      Json.IsObject [(none, ['1'])] "\x7b\"\\ud800\":1\x7d" ∧
      ofJson "\x7b\"\\ud800\":1\x7d" = .error ⟨.endOfEscape, 1, 9⟩ := by
  have blank := Json.isBlank_nil
  have isNumber : IsValue ['1'] :=
    .number ⟨[], by simp, ['1'], [], [], .inr (by decide), .inl rfl, .inl rfl, rfl⟩
  refine ⟨⟨[], _, [], blank, ⟨_, rfl, .close blank, nofun⟩, blank, by decide +kernel⟩, ?_,
    ⟨[], _, [], blank, ⟨_, rfl, .member blank blank Json.isKey_half blank blank (.close blank),
      by simpa using isNumber⟩, blank, by decide +kernel⟩, ?_⟩
  · decide +kernel
  · decide +kernel

end BridgeFinder.Settings
