import BridgeFinder.Proofs.Json.Labelled
import Mathlib.Data.List.Count

/-!
# Rearranged objects

An object may be written in many ways that make no difference to a record of optional texts: its
members may come in another order, members with other names may stand among them, whatever their
values are, an absent text may as well be `null`, and there may be other blanks between the tokens.
-/

namespace BridgeFinder.Json

/-! ## Blanks between tokens -/

/-- A key is told by its text. -/
def IsSpelling (spelling key : List Char) : Prop :=
  key = spelling ∧ IsString key

/-- Two texts of one value, with other blanks between its tokens. -/
inductive Respaced : List Char → List Char → Prop where
  | same {text : List Char} (value : IsValue text) : Respaced text text
  | array {pairs : List (List Char × List Char)} {text other : List Char}
      (layout : ElementTexts true (pairs.map Prod.fst) text)
      (layoutToo : ElementTexts true (pairs.map Prod.snd) other)
      (each : ∀ pair ∈ pairs, Respaced pair.1 pair.2) : Respaced ('[' :: text) ('[' :: other)
  | object {members : List (List Char × List Char × List Char)} {text other : List Char}
      (layout : MemberTexts IsSpelling true (members.map (Prod.map id Prod.fst)) text)
      (layoutToo : MemberTexts IsSpelling true (members.map (Prod.map id Prod.snd)) other)
      (each : ∀ member ∈ members, Respaced member.2.1 member.2.2) :
      Respaced ('\x7b' :: text) ('\x7b' :: other)

section

variable {item other : List Char}

theorem Respaced.isValue (respaced : Respaced item other) : IsValue item ∧ IsValue other := by
  have object {members : List (List Char × List Char)} {text : List Char}
      (layout : MemberTexts IsSpelling true members text)
      (each : ∀ member ∈ members, IsValue member.2) : IsValue ('\x7b' :: text) :=
    .object (layout.map (fun _ => ()) fun _ _ spelling => spelling.2) (List.forall_mem_map.mpr each)
  induction respaced with
  | same value => exact ⟨value, value⟩
  | array layout layoutToo _ ih =>
      constructor
      · exact .array layout (List.forall_mem_map.mpr fun pair member => (ih pair member).1)
      · exact .array layoutToo (List.forall_mem_map.mpr fun pair member => (ih pair member).2)
  | object layout layoutToo _ ih =>
      constructor
      · exact object layout (List.forall_mem_map.mpr fun member there => (ih member there).1)
      · exact object layoutToo (List.forall_mem_map.mpr fun member there => (ih member there).2)

/-- There is no room for blanks in `null` or in a string. -/
theorem Respaced.isOptional_iff {text : Option String} (respaced : Respaced item other) :
    IsOptional IsText text item ↔ IsOptional IsText text other := by
  have apart {c : Char} {rest : List Char} (bracket : c = '[' ∨ c = '\x7b') :
      ¬IsOptional IsText text (c :: rest) := by
    intro written
    cases text with
    | none =>
        obtain rfl := (List.cons.inj written).1
        rcases bracket with same | same <;> cases same
    | some text =>
        rcases written with ⟨body, -, front⟩
        obtain rfl := (List.cons.inj front).1
        rcases bracket with same | same <;> cases same
  cases respaced with
  | same => exact Iff.rfl
  | array => exact iff_of_false (apart (.inl rfl)) (apart (.inl rfl))
  | object => exact iff_of_false (apart (.inr rfl)) (apart (.inr rfl))

end

/-! ## Members -/

/-- Members that amount to the same for a record with texts of the given names. -/
inductive Rearranged (names : List String) :
    List (Option String × List Char) → List (Option String × List Char) → Prop where
  | permuted {members others : List (Option String × List Char)} (perm : members.Perm others) :
      Rearranged names members others
  | inserted {members : List (Option String × List Char)} {name : String} {item : List Char}
      (unknown : name ∉ names) (value : IsValue item) :
      Rearranged names members ((some name, item) :: members)
  | nullified {members : List (Option String × List Char)} {name : String} (known : name ∈ names)
      (absent : some name ∉ members.map Prod.fst) :
      Rearranged names members ((some name, ['n', 'u', 'l', 'l']) :: members)
  | respaced {members : List (Option String × List Char)} {name? : Option String}
      {item other : List Char} (respaced : Respaced item other) :
      Rearranged names ((name?, item) :: members) ((name?, other) :: members)
  | symm {members others : List (Option String × List Char)}
      (rearranged : Rearranged names members others) : Rearranged names others members
  | trans {members others last : List (Option String × List Char)}
      (first : Rearranged names members others) (second : Rearranged names others last) :
      Rearranged names members last

/-- Elements of an array that amount to the same for a record with texts of the given names: they
are the same, or objects with members that amount to the same. -/
inductive Exchanged (names : List String) : List Char → List Char → Prop where
  | same (item : List Char) : Exchanged names item item
  | object {members others : List (Option String × List Char)} {item other : List Char}
      (hasMembers : HasMembers members item) (hasMembersToo : HasMembers others other)
      (rearranged : Rearranged names members others) : Exchanged names item other

/-- Members of which no record with texts of the given names is made: one of them has no name, or
one of the texts is given twice. -/
inductive Spoiled (names : List String) (members : List (Option String × List Char)) : Prop where
  | unnamed (there : none ∈ members.map Prod.fst)
  | repeated {name : String} (known : name ∈ names)
      (twice : 2 ≤ (members.map Prod.fst).count (some name))

namespace Labelling

variable {ι σ α : Type} {record : Record σ α}

/-- The members of an object give a value. -/
structure Gives (labelling : Labelling ι record) (members : List (Option String × List Char))
    (value : α) : Prop where
  named : none ∉ members.map Prod.fst
  /-- No text is given for a second time. -/
  once : ∀ label, (members.map Prod.fst).count (some (labelling.key label)) ≤ 1
  /-- The members with the name of a label are written for its text. -/
  written : ∀ label item, (some (labelling.key label), item) ∈ members →
    IsOptional IsText (labelling.get label value) item
  /-- Where there are none, there is no text. -/
  absent : ∀ label, some (labelling.key label) ∉ members.map Prod.fst →
    labelling.get label value = none
  values : ∀ member ∈ members, IsValue member.2

variable {labelling : Labelling ι record} {members others : List (Option String × List Char)}
  {value : α} {name : String} {item other : List Char}

theorem mem_names : name ∈ labelling.names ↔ ∃ label, labelling.key label = name := by
  simp [names, labelling.complete]

/-- Members with names give a value exactly if they complete the empty draft to it. -/
theorem gives_map_some {members : List (String × List Char)} :
    labelling.Gives (members.map (Prod.map some id)) value ↔
      labelling.Completes members record.empty value := by
  have fronts : (members.map (Prod.map some id)).map Prod.fst =
      (members.map Prod.fst).map some := by
    simp
  have count (name : String) : ((members.map Prod.fst).map some).count (some name) =
      (members.map Prod.fst).count name :=
    List.count_map_of_injective _ _ (Option.some_injective _) name
  have there (name : String) : some name ∈ (members.map Prod.fst).map some ↔
      name ∈ members.map Prod.fst :=
    List.mem_map_of_injective (Option.some_injective _)
  have pair (name : String) (item : List Char) :
      (some name, item) ∈ members.map (Prod.map some id) ↔ (name, item) ∈ members := by
    simp
  constructor
  · rintro ⟨-, once, written, absent, values⟩
    simp only [fronts, count, there, pair] at once written absent
    constructor
    · exact once
    · simp [labelling.given_empty]
    · exact written
    · intro label apart
      rw [absent label apart, labelling.get_empty]
    · exact fun member isMember => values _ (List.mem_map_of_mem isMember)
  · rintro ⟨once, -, written, kept, values⟩
    constructor
    · simp
    · simpa only [fronts, count] using once
    · simpa only [pair] using written
    · intro label apart
      rw [fronts, there] at apart
      rw [kept label apart, labelling.get_empty]
    · exact List.forall_mem_map.mpr values

theorem exists_named (named : none ∉ members.map Prod.fst) :
    ∃ texts : List (String × List Char), members = texts.map (Prod.map some id) := by
  induction members with
  | nil => exact ⟨[], rfl⟩
  | cons member members ih =>
      rcases member with ⟨name?, item⟩
      rw [List.map_cons, List.mem_cons, not_or] at named
      rcases ih named.2 with ⟨texts, rfl⟩
      cases name? with
      | none => exact absurd rfl named.1
      | some name => exact ⟨(name, item) :: texts, rfl⟩

/-- An object is written for the value that its members give. -/
theorem isWritten_iff_gives (hasMembers : HasMembers members item) :
    labelling.IsWritten value item ↔ labelling.Gives members value := by
  rcases hasMembers with ⟨object, rfl, layout, each⟩
  constructor
  · intro isWritten
    cases isWritten with
    | @object texts _ layoutToo completes =>
        have keyed : MemberTexts IsKey true (texts.map (Prod.map some id)) object :=
          layoutToo.map some fun _ _ isText => isText
        have same : object ++ [] = object ++ [] := rfl
        obtain rfl :=
          layout.eq_of_append keyed each (List.forall_mem_map.mpr completes.values) same
        exact gives_map_some.mpr completes
  · intro gives
    rcases exists_named gives.named with ⟨texts, rfl⟩
    exact .object layout.of_map (gives_map_some.mp gives)

/-- An object is decoded as the value that its members give. -/
theorem decode_object_iff {document : String} (isObject : IsObject members document) :
    decode record.read document = .ok value ↔ labelling.Gives members value := by
  rcases isObject with ⟨before, text, after, blank, hasMembers, ends, split⟩
  rw [labelling.isReader.decode_iff hasMembers.isValue blank ends split,
    isWritten_iff_gives hasMembers]

/-! ## What makes no difference -/

/-- Members give the same in another order. -/
theorem Gives.perm (gives : labelling.Gives members value) (perm : members.Perm others) :
    labelling.Gives others value := by
  have fronts := perm.map Prod.fst
  constructor
  · exact mt fronts.mem_iff.mpr gives.named
  · intro label
    rw [← fronts.count_eq]
    exact gives.once label
  · exact fun label item member => gives.written label item (perm.mem_iff.mpr member)
  · exact fun label apart => gives.absent label (mt fronts.mem_iff.mp apart)
  · exact fun member there => gives.values member (perm.mem_iff.mpr there)

/-- A member with a name of its own makes no difference. -/
theorem gives_inserted (unknown : name ∉ labelling.names) (isValue : IsValue item) :
    labelling.Gives ((some name, item) :: members) value ↔ labelling.Gives members value := by
  have apart : ∀ label, labelling.key label ≠ name :=
    fun label same => unknown (mem_names.mpr ⟨label, same⟩)
  constructor
  · intro gives
    have named := gives.named
    rw [List.map_cons, List.mem_cons, not_or] at named
    rcases exists_named named.2 with ⟨texts, rfl⟩
    have completes : labelling.Completes ((name, item) :: texts) record.empty value :=
      gives_map_some.mp gives
    exact gives_map_some.mpr ((completes_cons_unknown apart).mp completes).2
  · intro gives
    rcases exists_named gives.named with ⟨texts, rfl⟩
    have completes := (completes_cons_unknown apart).mpr ⟨isValue, gives_map_some.mp gives⟩
    exact gives_map_some.mpr completes

/-- A text that is absent may as well be `null`. -/
theorem gives_nullified (known : name ∈ labelling.names)
    (absent : some name ∉ members.map Prod.fst) :
    labelling.Gives ((some name, ['n', 'u', 'l', 'l']) :: members) value ↔
      labelling.Gives members value := by
  rcases mem_names.mp known with ⟨label, rfl⟩
  have count := List.count_eq_zero.mpr absent
  constructor
  · rintro ⟨named, once, written, missing, values⟩
    have none : labelling.get label value = none := by
      have isNull := written label _ List.mem_cons_self
      cases given : labelling.get label value with
      | none => rfl
      | some text =>
          rw [given] at isNull
          rcases isNull with ⟨body, -, front⟩
          cases front
    constructor
    · exact fun member => named (List.mem_cons_of_mem _ member)
    · exact fun other => Nat.le_trans (List.count_le_count_cons ..) (once other)
    · exact fun other item member => written other item (List.mem_cons_of_mem _ member)
    · intro other apart
      by_cases same : other = label
      · rw [same, none]
      · refine missing other ?_
        rw [List.map_cons, List.mem_cons, not_or]
        exact ⟨fun keys => same (labelling.key_inj (Option.some.inj keys)), apart⟩
    · exact fun member there => values member (List.mem_cons_of_mem _ there)
  · rintro ⟨named, once, written, missing, values⟩
    constructor
    · simpa using named
    · intro other
      rw [List.map_cons, List.count_cons]
      split
      · rename_i same
        rw [← beq_iff_eq.mp same, count]
      · exact once other
    · intro other text member
      rcases List.mem_cons.mp member with same | member
      · obtain rfl := labelling.key_inj (Option.some.inj (congrArg Prod.fst same))
        rw [missing other absent]
        exact congrArg Prod.snd same
      · exact written other text member
    · exact fun other apart => missing other fun member => apart (List.mem_cons_of_mem _ member)
    · exact List.forall_mem_cons.mpr ⟨.null, values⟩

/-- The blanks within a value make no difference. -/
theorem gives_respaced {name? : Option String} (respaced : Respaced item other) :
    labelling.Gives ((name?, item) :: members) value ↔
      labelling.Gives ((name?, other) :: members) value := by
  -- Either text of the value may be written in the place of the other one.
  have change {item other : List Char} (isValue : IsValue other)
      (same : ∀ text, IsOptional IsText text item → IsOptional IsText text other)
      (gives : labelling.Gives ((name?, item) :: members) value) :
      labelling.Gives ((name?, other) :: members) value := by
    rcases gives with ⟨named, once, written, absent, values⟩
    refine ⟨named, once, ?_, absent, ?_⟩
    · intro label text member
      rcases List.mem_cons.mp member with front | member
      · obtain rfl := congrArg Prod.fst front
        obtain rfl : text = other := congrArg Prod.snd front
        exact same _ (written label item List.mem_cons_self)
      · exact written label text (List.mem_cons_of_mem _ member)
    · exact List.forall_mem_cons.mpr ⟨isValue, (List.forall_mem_cons.mp values).2⟩
  rcases respaced.isValue with ⟨value, valueToo⟩
  exact ⟨change valueToo fun _ => respaced.isOptional_iff.mp,
    change value fun _ => respaced.isOptional_iff.mpr⟩

/-- Spoiled members give nothing. -/
theorem Gives.not_spoiled (gives : labelling.Gives members value) :
    ¬Spoiled labelling.names members := by
  rintro (there | ⟨known, twice⟩)
  · exact gives.named there
  · rcases mem_names.mp known with ⟨label, rfl⟩
    exact absurd (gives.once label) (Nat.not_le.mpr twice)

/-- Rearranged members give the same. -/
theorem gives_iff (rearranged : Rearranged labelling.names members others) :
    labelling.Gives members value ↔ labelling.Gives others value := by
  induction rearranged with
  | permuted perm => exact ⟨fun gives => gives.perm perm, fun gives => gives.perm perm.symm⟩
  | inserted unknown isValue => exact (gives_inserted unknown isValue).symm
  | nullified known absent => exact (gives_nullified known absent).symm
  | respaced respaced => exact gives_respaced respaced
  | symm _ ih => exact ih.symm
  | trans _ _ first second => exact first.trans second

/-! ## What is decoded -/

variable {document changed : String} {items more : List (List Char)} {values : List α}

/-- An object is decoded as the same value when its members are rearranged. -/
theorem decode_rearranged (isObject : IsObject members document)
    (isObjectToo : IsObject others changed)
    (rearranged : Rearranged labelling.names members others) :
    (decode record.read document).toOption = (decode record.read changed).toOption := by
  apply toOption_congr
  intro value
  rw [decode_object_iff isObject, decode_object_iff isObjectToo, gives_iff rearranged]

/-- An object with spoiled members is not decoded. -/
theorem decode_spoiled (isObject : IsObject members document)
    (spoiled : Spoiled labelling.names members) (value : α) :
    decode record.read document ≠ .ok value :=
  fun decoded => ((decode_object_iff isObject).mp decoded).not_spoiled spoiled

theorem isWritten_exchanged (exchanged : Exchanged labelling.names item other) :
    labelling.IsWritten value item ↔ labelling.IsWritten value other := by
  cases exchanged with
  | same => exact Iff.rfl
  | object hasMembers hasMembersToo rearranged =>
      rw [isWritten_iff_gives hasMembers, isWritten_iff_gives hasMembersToo, gives_iff rearranged]

/-- An array is decoded as the same list when members of its elements are rearranged. -/
theorem decode_exchanged (isArray : IsArray items document) (isArrayToo : IsArray more changed)
    (exchanged : List.Forall₂ (Exchanged labelling.names) items more) :
    (decode (list record.read) document).toOption =
      (decode (list record.read) changed).toOption := by
  have each (values : List α) :
      List.Forall₂ (fun item value => labelling.IsWritten value item) items values ↔
        List.Forall₂ (fun item value => labelling.IsWritten value item) more values := by
    clear isArray isArrayToo
    induction exchanged generalizing values with
    | nil => exact Iff.rfl
    | cons now _ ih => simp only [List.forall₂_cons_left_iff, isWritten_exchanged now, ih]
  apply toOption_congr
  intro values
  rw [labelling.isReader.decode_list_iff isArray, labelling.isReader.decode_list_iff isArrayToo,
    each values]

/-- An array with an element whose members are spoiled is not decoded. -/
theorem decode_list_spoiled (isArray : IsArray items document) (there : item ∈ items)
    (hasMembers : HasMembers members item) (spoiled : Spoiled labelling.names members)
    (values : List α) : decode (list record.read) document ≠ .ok values := by
  intro decoded
  have each := (labelling.isReader.decode_list_iff isArray).mp decoded
  rcases exists_of_forall₂ each there with ⟨value, written⟩
  exact ((isWritten_iff_gives hasMembers).mp written).not_spoiled spoiled

end Labelling

end BridgeFinder.Json
