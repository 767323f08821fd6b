import BridgeFinder.Proofs.Json.Lists

/-!
# Records of optional texts

Some records are made of nothing but optional texts.  Each of them has a label, which is the name of
a member of an object, and a place in an array.  Such a record is taken from an object exactly if
none of the members gives a text for a second time, and those with the name of a label are written
for its text; the others may be values of any shape.  It is taken from an array as if the elements
were members with the names of the labels, in their order.
-/

namespace BridgeFinder.Json

variable {ι σ α : Type}

/-- The field of a draft into which an optional text is read. -/
def textField (name : String) (given : σ → List String) (store : Option String → σ → σ) :
    RecordField σ where
  name := name
  isSet draft := (given draft).contains name
  read draft text := do
    let (value, rest) ← optional string text
    pure (store value draft, rest)

/-- Labels for the optional texts that a record is made of. -/
structure Labelling (ι : Type) (record : Record σ α) where
  /-- The labels in the order of an array. -/
  labels : List ι
  /-- The name of the member of an object. -/
  key : ι → String
  /-- The text of a value. -/
  get : ι → α → Option String
  /-- What a draft amounts to. -/
  value : σ → α
  /-- The names of the members that a draft has been given. -/
  given : σ → List String
  /-- The draft with a further text. -/
  store : ι → Option String → σ → σ
  nodup : labels.Nodup
  complete : ∀ label, label ∈ labels
  key_inj : ∀ {label other}, key label = key other → label = other
  /-- A value is nothing but its texts. -/
  ext_get : ∀ {value other}, (∀ label, get label value = get label other) → value = other
  get_store : ∀ label text draft, get label (value (store label text draft)) = text
  get_store_of_ne : ∀ {label other} text draft, other ≠ label →
    get other (value (store label text draft)) = get other (value draft)
  given_store : ∀ label text draft, given (store label text draft) = key label :: given draft
  given_empty : given record.empty = []
  get_empty : ∀ label, get label (value record.empty) = none
  fields_eq : record.fields = labels.map fun label => textField (key label) given (store label)
  ofObject_eq : ∀ draft, record.ofObject draft = .ok (value draft)
  ofArray_eq : ∀ count draft, record.ofArray count draft = .ok (value draft)

namespace Labelling

variable {record : Record σ α} (labelling : Labelling ι record)

/-- The field into which the text of a label is read. -/
def field (label : ι) : RecordField σ :=
  textField (labelling.key label) labelling.given (labelling.store label)

/-- The names of the members, in the order of an array. -/
def names : List String :=
  labelling.labels.map labelling.key

/-- A text is written for a label: `null` if there is none, or else in a spelling of it.  The draft
takes it and keeps the name of the label. -/
def Stores (field : RecordField σ) (draft next : σ) (item : List Char) : Prop :=
  ∃ (label : ι) (text : Option String), field = labelling.field label ∧
    IsOptional IsText text item ∧ next = labelling.store label text draft

/-- Named items make a value out of a draft. -/
structure Completes (members : List (String × List Char)) (draft : σ) (value : α) : Prop where
  /-- None of them gives a text for a second time. -/
  once : ∀ label, (members.map Prod.fst).count (labelling.key label) ≤ 1
  /-- Nor is one given that the draft has. -/
  fresh : ∀ label, labelling.key label ∈ labelling.given draft →
    labelling.key label ∉ members.map Prod.fst
  /-- Those with the name of a label are written for its text. -/
  written : ∀ label item, (labelling.key label, item) ∈ members →
    IsOptional IsText (labelling.get label value) item
  /-- Where there are none, the draft stays as it is. -/
  kept : ∀ label, labelling.key label ∉ members.map Prod.fst →
    labelling.get label value = labelling.get label (labelling.value draft)
  values : ∀ member ∈ members, IsValue member.2

variable {members : List (String × List Char)} {items : List (List Char)} {draft : σ} {value : α}
  {label : ι} {name : String} {item text : List Char}

/-! ## Fields -/

theorem fieldNamed?_key (label : ι) :
    fieldNamed? record.fields (labelling.key label) = some (labelling.field label) := by
  have found (labels : List ι) (member : label ∈ labels) :
      fieldNamed? (labels.map labelling.field) (labelling.key label) =
        some (labelling.field label) := by
    induction labels with
    | nil => cases member
    | cons first labels ih =>
        rw [fieldNamed?, List.map_cons]
        by_cases same : label = first
        · subst same
          exact List.find?_cons_of_pos (beq_self_eq_true (labelling.key label))
        · rw [List.find?_cons_of_neg]
          · exact ih ((List.mem_cons.mp member).resolve_left same)
          · exact fun keys => same (labelling.key_inj (beq_iff_eq.mp keys)).symm
  rw [labelling.fields_eq]
  exact found labelling.labels (labelling.complete label)

theorem fieldNamed?_eq_none (unknown : ∀ label, labelling.key label ≠ name) :
    fieldNamed? record.fields name = none := by
  rw [fieldNamed?, List.find?_eq_none, labelling.fields_eq]
  intro field member
  rcases List.mem_map.mp member with ⟨label, -, rfl⟩
  simpa [textField] using unknown label

theorem isSet_field (label : ι) (draft : σ) : (labelling.field label).isSet draft = false ↔
    labelling.key label ∉ labelling.given draft := by
  simp [field, textField]

theorem takesOnly (label : ι) (draft : σ) : TakesOnly ((labelling.field label).read draft)
    (labelling.Stores (labelling.field label) draft) := by
  intro text rest next read
  rcases bind_eq_ok.mp read with ⟨⟨value, later⟩, taken, made⟩
  cases made
  rcases takesOnly_string.optional taken with ⟨before, item, blank, written, split⟩
  exact ⟨before, item, blank, ⟨label, value, rfl, written, rfl⟩, split⟩

variable {labelling}

theorem Stores.reads {field : RecordField σ} {next : σ}
    (stores : labelling.Stores field draft next item) :
    Opens item ∧ Reads (field.read draft) item next := by
  rcases stores with ⟨label, text, rfl, written, rfl⟩
  have stored := reads_map written.reads fun text => labelling.store label text draft
  exact ⟨written.isValue.opens, stored⟩

/-- The label of a stored text is that of its field. -/
theorem stores_field {next : σ} : labelling.Stores (labelling.field label) draft next item ↔
    ∃ text, IsOptional IsText text item ∧ next = labelling.store label text draft := by
  constructor
  · rintro ⟨other, text, same, written, rfl⟩
    obtain rfl := labelling.key_inj (congrArg RecordField.name same)
    exact ⟨text, written, rfl⟩
  · rintro ⟨text, written, rfl⟩
    exact ⟨label, text, rfl, written, rfl⟩

/-! ## Members and elements -/

theorem completes_nil : labelling.Completes [] draft value ↔ value = labelling.value draft := by
  constructor
  · exact fun completes => labelling.ext_get fun label => completes.kept label List.not_mem_nil
  · rintro rfl
    exact ⟨fun _ => Nat.zero_le 1, fun _ _ => List.not_mem_nil, nofun, fun _ _ => rfl, nofun⟩

/-- The first item has the name of a label: it is written for the text, which none of the others
gives. -/
theorem completes_cons_key :
    labelling.Completes ((labelling.key label, item) :: members) draft value ↔
      labelling.key label ∉ labelling.given draft ∧ ∃ text, IsOptional IsText text item ∧
        labelling.Completes members (labelling.store label text draft) value := by
  constructor
  · rintro ⟨once, fresh, written, kept, values⟩
    simp only [List.map_cons, List.mem_cons, not_or] at fresh kept
    refine ⟨fun given => (fresh label given).1 rfl, labelling.get label value,
      written label item List.mem_cons_self, ?_⟩
    constructor
    · exact fun other => Nat.le_trans (List.count_le_count_cons ..) (once other)
    · intro other given
      rw [labelling.given_store] at given
      rcases List.mem_cons.mp given with same | given
      · have alone := once label
        rw [List.map_cons, List.count_cons_self] at alone
        rw [same, ← List.count_eq_zero]
        omega
      · exact (fresh other given).2
    · exact fun other item member => written other item (List.mem_cons_of_mem _ member)
    · intro other absent
      by_cases same : other = label
      · rw [same, labelling.get_store]
      · rw [labelling.get_store_of_ne _ _ same]
        exact kept other ⟨fun keys => same (labelling.key_inj keys), absent⟩
    · exact fun member there => values member (List.mem_cons_of_mem _ there)
  · rintro ⟨free, text, isWritten, once, fresh, written, kept, values⟩
    simp only [labelling.given_store] at fresh
    have absent := fresh label List.mem_cons_self
    constructor
    · intro other
      rw [List.map_cons, List.count_cons]
      split
      · rename_i same
        rw [← beq_iff_eq.mp same, List.count_eq_zero.mpr absent]
      · exact once other
    · intro other given
      rw [List.map_cons, List.mem_cons, not_or]
      refine ⟨fun same => ?_, fresh other (List.mem_cons_of_mem _ given)⟩
      obtain rfl := labelling.key_inj same
      exact free given
    · intro other text member
      rcases List.mem_cons.mp member with same | member
      · obtain rfl := labelling.key_inj (congrArg Prod.fst same)
        obtain rfl : text = item := congrArg Prod.snd same
        rw [kept other absent, labelling.get_store]
        exact isWritten
      · exact written other text member
    · intro other apart
      rw [List.map_cons, List.mem_cons, not_or] at apart
      rw [kept other apart.2,
        labelling.get_store_of_ne _ _ fun same => apart.1 (congrArg labelling.key same)]
    · exact List.forall_mem_cons.mpr ⟨isWritten.isValue, values⟩

/-- The first item has a name of its own: it may be a value of any shape. -/
theorem completes_cons_unknown (unknown : ∀ label, labelling.key label ≠ name) :
    labelling.Completes ((name, item) :: members) draft value ↔
      IsValue item ∧ labelling.Completes members draft value := by
  have elsewhere (label : ι) : labelling.key label ∈ ((name, item) :: members).map Prod.fst ↔
      labelling.key label ∈ members.map Prod.fst := by
    rw [List.map_cons, List.mem_cons, or_iff_right (unknown label)]
  have count (label : ι) : (((name, item) :: members).map Prod.fst).count (labelling.key label) =
      (members.map Prod.fst).count (labelling.key label) := by
    rw [List.map_cons, List.count_cons_of_ne (unknown label).symm]
  constructor
  · rintro ⟨once, fresh, written, kept, values⟩
    simp only [elsewhere, count] at once fresh kept
    rw [List.forall_mem_cons] at values
    exact ⟨values.1, once, fresh,
      fun label item member => written label item (List.mem_cons_of_mem _ member), kept, values.2⟩
  · rintro ⟨isValue, once, fresh, written, kept, values⟩
    constructor
    · simpa only [count] using once
    · simpa only [elsewhere] using fresh
    · intro label text member
      rcases List.mem_cons.mp member with same | member
      · exact absurd (congrArg Prod.fst same) (unknown label)
      · exact written label text member
    · simpa only [elsewhere] using kept
    · exact List.forall_mem_cons.mpr ⟨isValue, values⟩

/-- What the members of an object amount to does not depend on their order. -/
theorem collects_iff :
    (∃ last, labelling.value last = value ∧
        Collects labelling.Stores record.fields draft members last) ↔
      labelling.Completes members draft value := by
  induction members generalizing draft with
  | nil =>
      rw [completes_nil]
      constructor
      · rintro ⟨last, rfl, ⟨⟩⟩
        rfl
      · rintro rfl
        exact ⟨draft, rfl, .nil draft⟩
  | cons member members ih =>
      rcases member with ⟨name, item⟩
      by_cases known : ∃ label, labelling.key label = name
      · rcases known with ⟨label, rfl⟩
        simp only [completes_cons_key, ← ih]
        constructor
        · rintro ⟨last, rfl, collects⟩
          cases collects with
          | known found isFree stores others =>
              rw [labelling.fieldNamed?_key] at found
              cases found
              rcases stores_field.mp stores with ⟨text, written, rfl⟩
              exact ⟨(labelling.isSet_field ..).mp isFree, text, written, last, rfl, others⟩
          | unknown notFound =>
              rw [labelling.fieldNamed?_key] at notFound
              cases notFound
        · rintro ⟨free, text, written, last, same, others⟩
          exact ⟨last, same, .known (labelling.fieldNamed?_key label)
            ((labelling.isSet_field ..).mpr free) (stores_field.mpr ⟨text, written, rfl⟩) others⟩
      · have unknown : ∀ label, labelling.key label ≠ name := not_exists.mp known
        have notFound := labelling.fieldNamed?_eq_none unknown
        simp only [completes_cons_unknown unknown, ← ih]
        constructor
        · rintro ⟨last, rfl, collects⟩
          cases collects with
          | known found =>
              rw [notFound] at found
              cases found
          | unknown _ isValue others => exact ⟨isValue, last, rfl, others⟩
        · rintro ⟨isValue, last, same, others⟩
          exact ⟨last, same, .unknown notFound isValue others⟩

theorem fills_nil {fields : List (RecordField σ)} :
    (∃ last, labelling.value last = value ∧ Fills labelling.Stores fields draft [] last) ↔
      labelling.Completes [] draft value := by
  rw [completes_nil]
  constructor
  · rintro ⟨last, rfl, ⟨⟩⟩
    rfl
  · rintro rfl
    exact ⟨draft, rfl, .nil fields draft⟩

/-- The elements of an array count as members with the names of the labels. -/
theorem fills_iff {labels : List ι} (distinct : labels.Nodup)
    (free : ∀ label ∈ labels, labelling.key label ∉ labelling.given draft) :
    (∃ last, labelling.value last = value ∧
        Fills labelling.Stores (labels.map labelling.field) draft items last) ↔
      items.length ≤ labels.length ∧
        labelling.Completes ((labels.map labelling.key).zip items) draft value := by
  induction labels generalizing draft items with
  | nil =>
      cases items with
      | nil => simpa using fills_nil
      | cons item items =>
          constructor
          · rintro ⟨last, -, fills⟩
            cases fills
          · rintro ⟨few, -⟩
            cases few
  | cons label labels ih =>
      cases items with
      | nil => simpa using fills_nil
      | cons item items =>
          rw [List.nodup_cons] at distinct
          have freeLater (text : Option String) : ∀ other ∈ labels,
              labelling.key other ∉ labelling.given (labelling.store label text draft) := by
            intro other member
            rw [labelling.given_store, List.mem_cons, not_or]
            refine ⟨fun same => distinct.1 (labelling.key_inj same ▸ member), ?_⟩
            exact free other (List.mem_cons_of_mem _ member)
          simp only [List.map_cons, List.zip_cons_cons, completes_cons_key, List.length_cons,
            Nat.succ_le_succ_iff]
          constructor
          · rintro ⟨last, same, fills⟩
            cases fills with
            | cons stores others =>
                rcases stores_field.mp stores with ⟨text, written, rfl⟩
                rcases (ih distinct.2 (freeLater text)).mp ⟨last, same, others⟩ with
                  ⟨few, completes⟩
                exact ⟨few, free label List.mem_cons_self, text, written, completes⟩
          · rintro ⟨few, -, text, written, completes⟩
            rcases (ih distinct.2 (freeLater text)).mpr ⟨few, completes⟩ with
              ⟨last, same, others⟩
            exact ⟨last, same, .cons (stores_field.mpr ⟨text, written, rfl⟩) others⟩

/-! ## Values -/

variable (labelling)

/-- A value is written as an object, whose members have the names of its texts, or as an array, in
which each text has its place. -/
inductive IsWritten (value : α) : List Char → Prop where
  | object {members : List (String × List Char)} {object : List Char}
      (layout : MemberTexts IsText true members object)
      (completes : labelling.Completes members record.empty value) :
      IsWritten value ('\x7b' :: object)
  | array {items : List (List Char)} {array : List Char} (layout : ElementTexts true items array)
      (few : items.length ≤ labelling.labels.length)
      (completes : labelling.Completes (labelling.names.zip items) record.empty value) :
      IsWritten value ('[' :: array)

variable {labelling}

theorem isRecord_iff : IsRecord labelling.Stores record value text ↔
    labelling.IsWritten value text := by
  have free : ∀ label ∈ labelling.labels,
      labelling.key label ∉ labelling.given record.empty := by
    simp [labelling.given_empty]
  constructor
  · intro isRecord
    cases isRecord with
    | object layout collects complete =>
        rw [labelling.ofObject_eq] at complete
        exact .object layout (collects_iff.mp ⟨_, Except.ok.inj complete, collects⟩)
    | array layout fills complete =>
        rw [labelling.ofArray_eq] at complete
        rw [labelling.fields_eq] at fills
        rcases (fills_iff labelling.nodup free).mp ⟨_, Except.ok.inj complete, fills⟩ with
          ⟨few, completes⟩
        exact .array layout few completes
  · intro isWritten
    cases isWritten with
    | object layout completes =>
        rcases collects_iff.mpr completes with ⟨last, rfl, collects⟩
        exact .object layout collects (labelling.ofObject_eq last)
    | array layout few completes =>
        rcases (fills_iff labelling.nodup free).mpr ⟨few, completes⟩ with ⟨last, rfl, fills⟩
        exact .array layout (labelling.fields_eq ▸ fills) (labelling.ofArray_eq _ last)

/-- An element of an array is `null` or a string. -/
theorem Completes.optional (completes : labelling.Completes (labelling.names.zip items) draft value)
    (few : items.length ≤ labelling.labels.length) :
    ∀ item ∈ items, ∃ text, IsOptional IsText text item := by
  intro item member
  have each : (labelling.names.zip items).map Prod.snd = items :=
    List.map_snd_zip (by simpa [names] using few)
  rw [← each] at member
  rcases List.mem_map.mp member with ⟨⟨name, item⟩, pair, rfl⟩
  rcases List.mem_map.mp (List.of_mem_zip pair).1 with ⟨label, -, rfl⟩
  exact ⟨_, completes.written label item pair⟩

theorem IsWritten.isValue (isWritten : labelling.IsWritten value text) : IsValue text := by
  cases isWritten with
  | object layout completes =>
      exact .object layout.isString (List.forall_mem_map.mpr completes.values)
  | array layout few completes =>
      refine .array layout fun item member => ?_
      rcases completes.optional few item member with ⟨text, written⟩
      exact written.isValue

variable (labelling) in
theorem takesOnly_field : ∀ field ∈ record.fields, ∀ draft,
    TakesOnly (field.read draft) (labelling.Stores field draft) := by
  intro field member draft
  rw [labelling.fields_eq] at member
  rcases List.mem_map.mp member with ⟨label, -, rfl⟩
  exact labelling.takesOnly label draft

variable (labelling) in
/-- A value is read from what is written for it, and from nothing else. -/
theorem isReader : IsReader record.read labelling.IsWritten := by
  constructor
  · intro text rest value read
    simpa only [isRecord_iff] using takesOnly_record labelling.takesOnly_field read
  · exact fun isWritten => (isRecord_iff.mpr isWritten).reads fun _ _ _ _ => Stores.reads
  · exact IsWritten.isValue

/-- A document is decoded as a value exactly if the value is written in it, with blanks around
it. -/
theorem decode_iff {document : String} : decode record.read document = .ok value ↔
    ∃ before item after, IsBlank before ∧ labelling.IsWritten value item ∧ IsBlank after ∧
      document.toList = before ++ (item ++ after) := by
  rw [decode_record_iff labelling.takesOnly_field fun _ _ _ _ => Stores.reads]
  simp only [isRecord_iff]

end Labelling

end BridgeFinder.Json
