import BridgeFinder.Proofs.Json.Printing
import BridgeFinder.Proofs.Json.Reading

/-!
# Reading printed trees

A tree of texts, arrays and objects is read back from what is printed of it, in whichever of the two
ways it was printed.
-/

namespace BridgeFinder.Json

/-- A tree whose leaves are texts. -/
inductive Value.IsTextual : Value → Prop where
  | string (text : String) : IsTextual (.string text)
  | array {elements : List Value} (each : ∀ element ∈ elements, IsTextual element) :
      IsTextual (.array elements)
  | object {members : List (String × Value)} (each : ∀ member ∈ members, IsTextual member.2) :
      IsTextual (.object members)

/-- The text is read for the tree, up to what follows it. -/
def Parses (text : List Char) (value : Value) : Prop :=
  ∀ (bound : Nat) ⦃before rest : List Char⦄, text.length ≤ bound → IsBlank before → Stops rest →
    readValueUpTo bound (before ++ (text ++ rest)) = .ok (value, rest)

/-- A text is read if it is read without blanks before it. -/
theorem parses_of_succ {text : List Char} {value : Value} (opens : Opens text)
    (parses : ∀ bound rest, text.length ≤ bound + 1 → Stops rest →
      readValueUpTo (bound + 1) (text ++ rest) = .ok (value, rest)) : Parses text value := by
  intro bound before rest enough blank stops
  rcases bound with _ | bound
  · exact absurd (Nat.lt_of_lt_of_le opens.length_pos enough) (Nat.lt_irrefl 0)
  · have front := nextToken_append isBlank_nil opens rest
    rw [List.nil_append] at front
    rw [← parses bound rest enough stops, readValueUpTo.eq_def, readValueUpTo.eq_def]
    simp only [nextToken_append blank opens, front]

theorem IsText.parses {value : String} {text : List Char} (isText : IsText value text) :
    Parses text (.string value) := by
  apply parses_of_succ isText.opens
  intro bound rest _ _
  have front := nextToken_append isBlank_nil isText.opens rest
  rcases isText.readString rest with ⟨body, same, read⟩
  rw [List.nil_append, same] at front
  rw [same, readValueUpTo]
  simp only [front, bind, Except.bind, read]
  rfl

section

variable {first : Bool} {text : List Char}

/-- The elements of an array are read one after another. -/
theorem readElementsUpTo_append {items : List (List Char)} {values : List Value}
    (elements : ElementTexts first items text) (each : List.Forall₂ Parses items values)
    (opens : ∀ item ∈ items, Opens item) {bound : Nat} (enough : text.length ≤ bound)
    (rest : List Char) : readElementsUpTo bound first (text ++ rest) = .ok (values, rest) := by
  induction elements generalizing bound values with
  | @close first gap blank =>
      rcases bound with _ | bound
      · simp at enough
      · cases each
        have front : skipSpace (gap ++ [']'] ++ rest) = ']' :: rest := by
          rw [List.append_assoc, skipSpace_append blank]
          rfl
        simp only [readElementsUpTo, nextElement?, front, bind, Except.bind]
        rfl
  | @element first gap before item text items blank blankBefore others ih =>
      have opensLater := fun item there => opens item (List.mem_cons_of_mem _ there)
      have filled := (opens item List.mem_cons_self).length_pos
      have more := others.length_lt opensLater
      have next := nextElement?_append first blank blankBefore (opens item List.mem_cons_self)
        (text ++ rest)
      simp only [List.length_append] at enough
      rcases bound with _ | bound
      · omega
      · cases each with
        | cons now each =>
            have read := now bound (by omega) isBlank_nil (others.stops rest)
            have later := ih each opensLater (show text.length ≤ bound by omega)
            simp only [List.nil_append] at read
            simp only [List.append_assoc, readElementsUpTo, next, bind, Except.bind, read, later]
            rfl

theorem parses_array {items : List (List Char)} {values : List Value}
    (elements : ElementTexts true items text) (each : List.Forall₂ Parses items values)
    (opens : ∀ item ∈ items, Opens item) : Parses ('[' :: text) (.array values) := by
  apply parses_of_succ ⟨_, _, rfl, by decide, by decide⟩
  intro bound rest enough _
  have read := readElementsUpTo_append elements each opens (Nat.le_of_succ_le_succ enough) rest
  rw [List.cons_append, readValueUpTo.eq_def]
  simp only [nextToken, skipSpace_cons (show isSpace '[' = false by decide), bind, Except.bind,
    read]
  rfl

/-- The members of an object are read one after another. -/
theorem readMembersUpTo_append {members : List (String × List Char)}
    {values : List (String × Value)} (object : MemberTexts IsText first members text)
    (each : List.Forall₂ (fun member value => member.1 = value.1 ∧ Parses member.2 value.2)
      members values)
    {bound : Nat} (enough : text.length ≤ bound) (rest : List Char) :
    readMembersUpTo bound first (text ++ rest) = .ok (values, rest) := by
  induction object generalizing bound values with
  | @close first gap blank =>
      rcases bound with _ | bound
      · simp at enough
      · cases each
        have front : skipSpace (gap ++ ['\x7d'] ++ rest) = '\x7d' :: rest := by
          rw [List.append_assoc, skipSpace_append blank]
          rfl
        simp only [readMembersUpTo, nextKey?, front, bind, Except.bind]
        rfl
  | @member first gap before after between key item text name members blank blankBefore isKey
      blankAfter blankBetween others ih =>
      have next := nextKey?_append first blank blankBefore isKey.isString
        (after ++ ':' :: (between ++ (item ++ (text ++ rest))))
      rcases isKey.readString (after ++ ':' :: (between ++ (item ++ (text ++ rest)))) with
        ⟨body, front, read⟩
      rw [front] at next
      simp only [List.length_append, List.length_cons] at enough
      rcases bound with _ | bound
      · omega
      · cases each with
        | @cons _ value _ values now each =>
            rcases value with ⟨_, value⟩
            rcases now with ⟨rfl, parses⟩
            have value := parses bound (show item.length ≤ bound by omega) blankBetween
              (others.stops rest)
            have later := ih each (show text.length ≤ bound by omega)
            simp only [List.append_assoc, List.cons_append, readMembersUpTo, next, bind,
              Except.bind, List.drop_succ_cons, List.drop_zero, read, readColon_append blankAfter,
              value, later, front]
            rfl

theorem parses_object {members : List (String × List Char)} {values : List (String × Value)}
    (object : MemberTexts IsText true members text)
    (each : List.Forall₂ (fun member value => member.1 = value.1 ∧ Parses member.2 value.2)
      members values) : Parses ('\x7b' :: text) (.object values) := by
  apply parses_of_succ ⟨_, _, rfl, by decide, by decide⟩
  intro bound rest enough _
  have read := readMembersUpTo_append object each (Nat.le_of_succ_le_succ enough) rest
  rw [List.cons_append, readValueUpTo.eq_def]
  simp only [nextToken, skipSpace_cons (show isSpace '\x7b' = false by decide), bind, Except.bind,
    read]
  rfl

end

section

variable {write : Nat → Value → List Char} {value : Value}

/-- What is printed of a tree of texts begins like a value. -/
theorem Value.IsTextual.opens (textual : value.IsTextual) {outer inner : Value → List Char}
    (layout : Layout outer inner) : Opens (outer value) := by
  cases textual with
  | string text =>
      rw [layout.string]
      exact (isText_quote text).opens
  | @array elements _ =>
      rcases layout.array elements with ⟨text, same, -⟩
      exact same ▸ ⟨_, _, rfl, by decide, by decide⟩
  | @object members _ =>
      rcases layout.object members with ⟨text, same, -⟩
      exact same ▸ ⟨_, _, rfl, by decide, by decide⟩

/-- A printed tree of texts is read as it was. -/
theorem Value.IsTextual.parses (textual : value.IsTextual)
    (layout : ∀ level, Layout (write level) (write (level + 1))) (level : Nat) :
    Parses (write level value) value := by
  induction textual generalizing level with
  | string text =>
      rw [(layout level).string]
      exact (isText_quote text).parses
  | @array elements each ih =>
      rcases (layout level).array elements with ⟨text, same, isArray⟩
      rw [same]
      apply parses_array isArray
      · rw [List.forall₂_map_left_iff, List.forall₂_same]
        exact fun element member => ih element member (level + 1)
      · rw [List.forall_mem_map]
        exact fun element member => (each element member).opens (layout (level + 1))
  | @object members each ih =>
      rcases (layout level).object members with ⟨text, same, isObject⟩
      rw [same]
      apply parses_object isObject
      rw [List.forall₂_map_left_iff, List.forall₂_same]
      exact fun member there => ⟨rfl, ih member there (level + 1)⟩

/-- A text that is a printed tree of texts, with blanks after it, is a document of that tree. -/
theorem Value.IsTextual.parse_eq (textual : value.IsTextual)
    (layout : ∀ level, Layout (write level) (write (level + 1))) {after : List Char}
    (blank : IsBlank after) {document : String}
    (isText : document.toList = write 0 value ++ after) : Value.parse document = .ok value := by
  have reads : Reads readValue (write 0 value) value := by
    intro before rest isBlank stops
    refine textual.parses layout 0 _ ?_ isBlank stops
    simp only [List.length_append]
    omega
  have isDocument : document.toList = [] ++ (write 0 value ++ after) := isText
  exact decode_eq_ok isDocument isBlank_nil blank reads

end

end BridgeFinder.Json
