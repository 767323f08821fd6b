import BridgeFinder.Proofs.Json.Layout

/-!
# Lists

A list is taken from an array exactly if each of the elements is written for its value.  So it takes
no more to know whether a document is decoded as a list than to know which of the elements are
decoded, each by itself.
-/

namespace BridgeFinder.Json

variable {α : Type} {reader : Reader α} {Written : α → List Char → Prop} {values : List α}

/-- What is related to another list element by element has a partner for each of its elements. -/
theorem exists_of_forall₂ {β γ : Type} {related : β → γ → Prop} {first : List β} {second : List γ}
    (each : List.Forall₂ related first second) {element : β} (member : element ∈ first) :
    ∃ partner, related element partner := by
  rcases List.mem_iff_get.mp member with ⟨place, rfl⟩
  exact ⟨_, each.get place.isLt (each.length_eq ▸ place.isLt)⟩

/-! ## Taking lists -/

/-- A list is written as an array, with its values in their order. -/
def IsList (Written : α → List Char → Prop) (values : List α) (text : List Char) : Prop :=
  ∃ items array, text = '[' :: array ∧ ElementTexts true items array ∧
    List.Forall₂ (fun item value => Written value item) items values

/-- What is taken of the elements of an array is written for the values. -/
theorem elementsUpTo_ok (takes : TakesOnly reader Written) {bound : Nat} {first : Bool}
    {text rest : List Char} (taken : elementsUpTo reader bound first text = .ok (values, rest)) :
    ∃ items array after, ElementTexts first items array ∧
      List.Forall₂ (fun item value => Written value item) items values ∧ rest = ']' :: after ∧
      text = array ++ after := by
  induction bound generalizing first text values with
  | zero => cases taken
  | succ bound ih =>
      rw [elementsUpTo] at taken
      rcases bind_eq_ok.mp taken with ⟨next?, found, onward⟩
      cases next? with
      | none =>
          rcases nextElement?_none found with ⟨gap, after, blank, front, rfl⟩
          cases onward
          exact ⟨[], _, after, .close blank, .nil, front, by simp⟩
      | some next =>
          rcases nextElement?_ok found with ⟨gap, before, blank, blankBefore, rfl⟩
          rcases bind_eq_ok.mp onward with ⟨⟨value, later⟩, given, more⟩
          rcases bind_eq_ok.mp more with ⟨⟨others, last⟩, elements, made⟩
          cases made
          rcases takes given with ⟨between, item, blankBetween, written, rfl⟩
          rcases ih elements with ⟨items, array, after, layout, each, rfl, rfl⟩
          have blanks : IsBlank (before ++ between) := fun c member =>
            (List.mem_append.mp member).elim (blankBefore c) (blankBetween c)
          exact ⟨item :: items, _, after, .element blank blanks layout, .cons written each, rfl,
            by simp⟩

/-- A list is taken only if it is written as one. -/
theorem TakesOnly.list (takes : TakesOnly reader Written) :
    TakesOnly (list reader) (IsList Written) := by
  intro text rest values read
  rw [Json.list] at read
  rcases bind_eq_ok.mp read with ⟨token, found, taken⟩
  rcases nextToken_ok found with ⟨before, blank, rfl⟩
  split at taken
  · rcases bind_eq_ok.mp taken with ⟨⟨given, later⟩, elements, onward⟩
    rcases bind_eq_ok.mp onward with ⟨last, closed, made⟩
    cases made
    rcases elementsUpTo_ok takes elements with ⟨items, array, after, layout, each, rfl, rfl⟩
    cases closed
    exact ⟨before, _, blank, ⟨items, array, rfl, layout, each⟩, rfl⟩
  · exact absurd taken (wrongTypeAt_ne_ok _ _ _)

/-! ## Documents -/

/-- The reader takes a value from every text that is written for it, and from no other text. -/
structure IsReader (reader : Reader α) (Written : α → List Char → Prop) : Prop where
  takes : TakesOnly reader Written
  reads : ∀ {value text}, Written value text → Reads reader text value
  isValue : ∀ {value text}, Written value text → IsValue text

namespace IsReader

variable {items : List (List Char)} {item : List Char} {value : α} {document : String}

/-- A document that is one value is decoded for what this value is written for. -/
theorem decode_iff (isReader : IsReader reader Written) (isValue : IsValue item)
    {before after : List Char} (blank : IsBlank before) (blankAfter : IsBlank after)
    (split : document.toList = before ++ (item ++ after)) :
    decode reader document = .ok value ↔ Written value item := by
  constructor
  · intro decoded
    rcases decode_ok isReader.takes decoded with
      ⟨gap, text, rest, blankToo, written, blankAfterToo, splitToo⟩
    rwa [isValue.eq_of_document (isReader.isValue written) blank blankAfter blankToo blankAfterToo
      (split.symm.trans splitToo)]
  · exact fun written => decode_eq_ok split blank blankAfter (isReader.reads written)

theorem decode_ofList_iff (isReader : IsReader reader Written) (isValue : IsValue item) :
    decode reader (String.ofList item) = .ok value ↔ Written value item :=
  isReader.decode_iff isValue isBlank_nil isBlank_nil (by simp)

theorem forall_isValue (isReader : IsReader reader Written)
    (each : List.Forall₂ (fun item value => Written value item) items values) :
    ∀ item ∈ items, IsValue item := by
  intro item member
  rcases exists_of_forall₂ each member with ⟨value, written⟩
  exact isReader.isValue written

/-- Lists of what is read are read in turn. -/
theorem list (isReader : IsReader reader Written) :
    IsReader (list reader) (IsList Written) := by
  constructor
  · exact isReader.takes.list
  · rintro values _ ⟨items, array, rfl, layout, each⟩
    exact reads_list layout (each.imp fun _ _ => isReader.reads)
      fun item member => (isReader.forall_isValue each item member).opens
  · rintro values _ ⟨items, array, rfl, layout, each⟩
    exact .array layout (isReader.forall_isValue each)

/-- Only an array is decoded as a list. -/
theorem exists_isArray (isReader : IsReader reader Written)
    (decoded : decode (Json.list reader) document = .ok values) :
    ∃ items, IsArray items document := by
  rcases decode_ok isReader.takes.list decoded with
    ⟨before, _, after, blank, ⟨items, array, rfl, layout, each⟩, ends, split⟩
  exact ⟨items, before, array, after, blank, layout, isReader.forall_isValue each, ends, split⟩

/-- An array is decoded as the list of what its elements are written for. -/
theorem decode_list_iff (isReader : IsReader reader Written) (isArray : IsArray items document) :
    decode (Json.list reader) document = .ok values ↔
      List.Forall₂ (fun item value => Written value item) items values := by
  rcases isArray with ⟨before, array, after, blank, layout, isValue, ends, split⟩
  rw [isReader.list.decode_iff (.array layout isValue) blank ends split]
  constructor
  · rintro ⟨others, more, front, layoutToo, each⟩
    have same : array ++ [] = more ++ [] := congrArg (· ++ []) (List.cons.inj front).2
    rwa [layout.eq_of_append layoutToo isValue (isReader.forall_isValue each) same]
  · exact fun each => ⟨items, array, rfl, layout, each⟩

/-- An array is decoded as the list of what its elements are decoded as, each by itself. -/
theorem decode_list_iff_each (isReader : IsReader reader Written)
    (isArray : IsArray items document) :
    decode (Json.list reader) document = .ok values ↔
      List.Forall₂ (fun item value => decode reader (String.ofList item) = .ok value) items
        values := by
  rw [isReader.decode_list_iff isArray]
  have isValue := isArray.isValue
  clear isArray
  induction items generalizing values with
  | nil => simp only [List.forall₂_nil_left_iff]
  | cons item items ih =>
      rw [List.forall_mem_cons] at isValue
      simp only [List.forall₂_cons_left_iff, isReader.decode_ofList_iff isValue.1, ih isValue.2]

end IsReader

end BridgeFinder.Json
