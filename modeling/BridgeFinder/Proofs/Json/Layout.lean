import BridgeFinder.Proofs.Json.Records

/-!
# Layouts

The text of an object fixes its members: their order, their names, and the texts of their values.
Every object has such a layout.  Not every string spells a name, though: one with half of a
surrogate pair is a string of JSON, but it stands for no text.  A document that is an object or an
array has a layout, too, whatever the blanks around it are.
-/

namespace BridgeFinder.Json

/-! ## Keys -/

/-- How the name of a member is written.  A string that spells no text gives a member no name. -/
def IsKey : Option String → List Char → Prop
  | some name, key => IsText name key
  | none, key => IsString key ∧ ∀ name, ¬ IsText name key

section

variable {name? other? : Option String} {name other : String} {key : List Char}

theorem IsKey.isString (isKey : IsKey name? key) : IsString key := by
  cases name? with
  | none => exact isKey.1
  | some name => exact IsText.isString isKey

/-- Every string is the key of a member, with or without a name. -/
theorem exists_isKey (isString : IsString key) : ∃ name?, IsKey name? key := by
  by_cases spells : ∃ name, IsText name key
  · rcases spells with ⟨name, isText⟩
    exact ⟨some name, isText⟩
  · exact ⟨none, isString, not_exists.mp spells⟩

/-- Half of a surrogate pair spells no text. -/
theorem isKey_half : IsKey none ['"', '\\', 'u', 'd', '8', '0', '0', '"'] := by
  constructor
  · refine ⟨[['\\', 'u', 'd', '8', '0', '0']], ?_, rfl⟩
    have isUnit : IsCodeUnit ['d', '8', '0', '0'] 0xD800 := by decide
    simpa using IsPiece.unit isUnit
  · intro name isText
    rcases isText.readString [] with ⟨body, front, read⟩
    obtain rfl := (List.cons.inj front).2
    cases read

/-- A text spells one string only. -/
theorem IsText.eq (isText : IsText name key) (isTextToo : IsText other key) : name = other := by
  rcases isText.readString [] with ⟨body, front, read⟩
  rcases isTextToo.readString [] with ⟨body', front', read'⟩
  obtain rfl := (List.cons.inj (front.symm.trans front')).2
  rw [read] at read'
  cases read'
  rfl

/-- A key gives one name, or none. -/
theorem IsKey.eq (isKey : IsKey name? key) (isKeyToo : IsKey other? key) : name? = other? := by
  cases name? with
  | none =>
      cases other? with
      | none => rfl
      | some other => exact absurd isKeyToo (isKey.2 other)
  | some name =>
      cases other? with
      | none => exact absurd isKey (isKeyToo.2 name)
      | some other => exact congrArg some (IsText.eq isKey isKeyToo)

end

/-! ## Objects -/

section

variable {first : Bool} {gap text more object rest after : List Char}
  {members others : List (Option String × List Char)}

/-- The members of an object whose names are all given in one way are members with these names. -/
theorem MemberTexts.of_map {κ ι : Type} {Key : ι → List Char → Prop} {rename : κ → ι}
    {members : List (κ × List Char)}
    (object : MemberTexts Key first (members.map (Prod.map rename id)) text) :
    MemberTexts (fun name => Key (rename name)) first members text := by
  induction members generalizing first text with
  | nil =>
      cases object with
      | close blank => exact .close blank
  | cons member members ih =>
      cases object with
      | member blank blankBefore isKey blankAfter blankBetween others =>
          exact .member blank blankBefore isKey blankAfter blankBetween (ih others)

/-- Each string of an object is the key of a member. -/
theorem MemberTexts.exists_isKey {shapes : List (Unit × List Char)}
    (object : MemberTexts (fun _ => IsString) first shapes text) :
    ∃ members, MemberTexts IsKey first members text ∧
      members.map Prod.snd = shapes.map Prod.snd := by
  induction object with
  | close blank => exact ⟨[], .close blank, rfl⟩
  | @member _ _ _ _ _ key item _ _ _ blank blankBefore isString blankAfter blankBetween _ ih =>
      rcases ih with ⟨members, layout, same⟩
      rcases Json.exists_isKey isString with ⟨name?, isKey⟩
      exact ⟨(name?, item) :: members,
        .member blank blankBefore isKey blankAfter blankBetween layout, congrArg _ same⟩

/-- The text is an object with the given members. -/
def HasMembers (members : List (Option String × List Char)) (text : List Char) : Prop :=
  ∃ object, text = '\x7b' :: object ∧ MemberTexts IsKey true members object ∧
    ∀ member ∈ members, IsValue member.2

theorem HasMembers.isValue (hasMembers : HasMembers members text) : IsValue text := by
  rcases hasMembers with ⟨object, rfl, layout, each⟩
  exact .object (layout.map (fun _ => ()) fun _ _ => IsKey.isString) (List.forall_mem_map.mpr each)

/-- Every object has members. -/
theorem IsValue.exists_members (value : IsValue ('\x7b' :: object)) :
    ∃ members, HasMembers members ('\x7b' :: object) := by
  generalize front : '\x7b' :: object = text at value
  cases value with
  | object isObject each =>
      obtain rfl := (List.cons.inj front).2
      rcases isObject.exists_isKey with ⟨members, layout, same⟩
      refine ⟨members, object, rfl, layout, fun member there => ?_⟩
      have item : member.2 ∈ members.map Prod.snd := List.mem_map_of_mem there
      rw [same] at item
      rcases List.mem_map.mp item with ⟨shape, isShape, text⟩
      exact text ▸ each shape isShape
  | number isNumber =>
      rcases isNumber with ⟨sign, isSign, whole, fraction, exponent, isWhole, -, -, rfl⟩
      rcases isWhole.exists_cons with ⟨c, later, rfl, digit⟩
      simp only [List.mem_cons, List.not_mem_nil, or_false] at isSign
      rcases isSign with rfl | rfl
      · obtain rfl := (List.cons.inj front).1
        cases digit
      · cases (List.cons.inj front).1
  | string isString =>
      rcases isString with ⟨pieces, -, rfl⟩
      cases (List.cons.inj front).1
  | _ => cases (List.cons.inj front).1

theorem nextKey?_close (first : Bool) (blank : IsBlank gap) (rest : List Char) :
    nextKey? first (gap ++ ['\x7d'] ++ rest) = .ok none := by
  rw [nextKey?, List.append_assoc, skipSpace_append blank]
  rfl

/-- A member at the front of a text has one key and one value, which ends where what follows it
begins. -/
theorem member_eq_of_append {key item gapAfter gapBetween : List Char}
    {keyToo other gapAfterToo gapBetweenToo : List Char} (isKey : IsString key)
    (isKeyToo : IsString keyToo) (blank : IsBlank gapAfter) (blankToo : IsBlank gapAfterToo)
    (blankBetween : IsBlank gapBetween) (blankBetweenToo : IsBlank gapBetweenToo)
    (value : IsValue item) (valueToo : IsValue other) (stops : Stops rest) (stopsToo : Stops after)
    (same : key ++ (gapAfter ++ ':' :: (gapBetween ++ (item ++ rest))) =
      keyToo ++ (gapAfterToo ++ ':' :: (gapBetweenToo ++ (other ++ after)))) :
    key = keyToo ∧ item = other ∧ rest = after := by
  have colon (rest : List Char) : Stops (':' :: rest) := stops_cons (by decide) (by decide) rest
  rcases (IsValue.string isKey).eq_of_append (.string isKeyToo) (stops_append blank (colon _))
    (stops_append blankToo (colon _)) same with ⟨keys, onward⟩
  have read := readColon_append blank (gapBetween ++ (item ++ rest))
  rw [onward, readColon_append blankToo] at read
  have front := value.opens.eq_of_append blankBetween valueToo.opens blankBetweenToo
    (Except.ok.inj read).symm
  exact ⟨keys, value.eq_of_append valueToo stops stopsToo front⟩

/-- Two objects at the front of one text have the same members. -/
theorem MemberTexts.eq_of_append (object : MemberTexts IsKey first members text)
    (objectToo : MemberTexts IsKey first others more) (each : ∀ member ∈ members, IsValue member.2)
    (eachToo : ∀ member ∈ others, IsValue member.2) (same : text ++ rest = more ++ after) :
    members = others := by
  induction object generalizing others more with
  | @close first gap blank =>
      cases objectToo with
      | close => rfl
      | member blankToo blankBefore isKey =>
          have found := nextKey?_append first blankToo blankBefore isKey.isString
          have ended := nextKey?_close first blank rest
          rw [same] at ended
          simp only [List.append_assoc, found] at ended
          cases ended
  | @member first gap before after' between key item text name? members blank blankBefore isKey
      blankAfter blankBetween later ih =>
      have found := nextKey?_append first blank blankBefore isKey.isString
        (after' ++ ':' :: (between ++ (item ++ (text ++ rest))))
      cases objectToo with
      | close blankToo =>
          have ended := nextKey?_close first blankToo after
          rw [← same] at ended
          simp only [List.append_assoc, List.cons_append, found] at ended
          cases ended
      | @member _ _ _ afterToo betweenToo keyToo other more nameToo? others blankToo blankBeforeToo
          isKeyToo blankAfterToo blankBetweenToo laterToo =>
          have foundToo := nextKey?_append first blankToo blankBeforeToo isKeyToo.isString
            (afterToo ++ ':' :: (betweenToo ++ (other ++ (more ++ after))))
          simp only [List.append_assoc, List.cons_append] at same
          rw [same, foundToo] at found
          have front := (Option.some.inj (Except.ok.inj found)).symm
          rcases member_eq_of_append isKey.isString isKeyToo.isString blankAfter blankAfterToo
            blankBetween blankBetweenToo (each _ List.mem_cons_self) (eachToo _ List.mem_cons_self)
            (later.stops rest) (laterToo.stops after) front with ⟨rfl, rfl, onward⟩
          have eachLater := fun member there => each member (List.mem_cons_of_mem _ there)
          have eachLaterToo := fun member there => eachToo member (List.mem_cons_of_mem _ there)
          rw [isKey.eq isKeyToo, ih laterToo eachLater eachLaterToo onward]

end

/-! ## Documents -/

/-- The document is an array with the given elements, and blanks around it. -/
def IsArray (items : List (List Char)) (document : String) : Prop :=
  ∃ before array after, IsBlank before ∧ ElementTexts true items array ∧
    (∀ item ∈ items, IsValue item) ∧ IsBlank after ∧
    document.toList = before ++ ('[' :: array ++ after)

/-- The document is an object with the given members, and blanks around it. -/
def IsObject (members : List (Option String × List Char)) (document : String) : Prop :=
  ∃ before text after, IsBlank before ∧ HasMembers members text ∧ IsBlank after ∧
    document.toList = before ++ (text ++ after)

/-- Any values are the elements of an array. -/
theorem exists_isArray {items : List (List Char)} (each : ∀ item ∈ items, IsValue item) :
    ∃ document, IsArray items document := by
  have layout (first : Bool) : ∃ array, ElementTexts first items array := by
    clear each
    induction items generalizing first with
    | nil => exact ⟨_, .close isBlank_nil⟩
    | cons item items ih =>
        rcases ih false with ⟨array, others⟩
        exact ⟨_, .element isBlank_nil isBlank_nil others⟩
  rcases layout true with ⟨array, elements⟩
  exact ⟨String.ofList ('[' :: array), [], array, [], isBlank_nil, elements, each, isBlank_nil,
    by simp⟩

theorem IsArray.isValue {items : List (List Char)} {document : String}
    (isArray : IsArray items document) : ∀ item ∈ items, IsValue item := by
  rcases isArray with ⟨-, -, -, -, -, each, -, -⟩
  exact each

/-- A document is one value only. -/
theorem IsValue.eq_of_document {before after gap rest text other : List Char}
    (value : IsValue text) (valueToo : IsValue other) (blank : IsBlank before)
    (blankAfter : IsBlank after) (blankToo : IsBlank gap) (blankAfterToo : IsBlank rest)
    (same : before ++ (text ++ after) = gap ++ (other ++ rest)) : text = other := by
  have front := value.opens.eq_of_append blank valueToo.opens blankToo same
  exact (value.eq_of_append valueToo blankAfter.stops blankAfterToo.stops front).1

end BridgeFinder.Json
