import BridgeFinder.Proofs.Json.Decoded
import BridgeFinder.Proofs.Json.Reading

/-!
# Records as they are written

What is taken for a record is exactly what is written as one, be it an object or an array.  A text
is written as an array in one way only.
-/

namespace BridgeFinder.Json

/-! ## Shapes -/

/-- The names of the members of an object may be told in another way. -/
theorem MemberTexts.map {κ ι : Type} {Key : κ → List Char → Prop} {Other : ι → List Char → Prop}
    {first : Bool} {members : List (κ × List Char)} {text : List Char}
    (object : MemberTexts Key first members text) (rename : κ → ι)
    (renamed : ∀ name key, Key name key → Other (rename name) key) :
    MemberTexts Other first (members.map (Prod.map rename id)) text := by
  induction object with
  | close blank => exact .close blank
  | member blank blankBefore isKey blankAfter blankBetween _ ih =>
      exact .member blank blankBefore (renamed _ _ isKey) blankAfter blankBetween ih

/-- An object keeps its shape when the names of its members are forgotten. -/
theorem MemberTexts.isString {first : Bool} {members : List (String × List Char)}
    {text : List Char} (object : MemberTexts IsText first members text) :
    MemberTexts (fun _ : Unit => IsString) first (members.map (Prod.map (fun _ => ()) id)) text :=
  object.map (fun _ => ()) fun _ _ => IsText.isString

/-! ## Optional values -/

section

variable {α : Type} {decode : Reader α} {text : List Char} {value : α}

theorem reads_null : Reads (optional decode) ['n', 'u', 'l', 'l'] none := by
  intro before rest blank _
  have front : skipSpace (['n', 'u', 'l', 'l'] ++ rest) = ['n', 'u', 'l', 'l'] ++ rest :=
    skipSpace_cons (by decide) _
  rw [optional, skipSpace_append blank, front]
  rfl

/-- A value that cannot be mistaken for `null` is read as one that is given. -/
theorem Reads.optional (reads : Reads decode text value) (opens : Opens text)
    (apart : text.head? ≠ some 'n') : Reads (optional decode) text (some value) := by
  intro before rest blank stops
  have read := reads isBlank_nil stops
  rw [List.nil_append] at read
  rw [Json.optional, skipSpace_append blank, opens.skipSpace]
  split
  · rename_i later front
    rcases opens with ⟨c, others, rfl, -, -⟩
    cases front
    exact absurd rfl apart
  · simp only [read, bind, Except.bind]
    rfl

/-- `null` is read as no string, and a string as itself. -/
theorem IsOptional.reads {string? : Option String} (written : IsOptional IsText string? text) :
    Reads (Json.optional string) text string? := by
  cases string? with
  | none => exact written ▸ reads_null
  | some string =>
      have opens := IsText.opens written
      rcases written with ⟨body, spelled, rfl⟩
      exact (IsText.reads ⟨body, spelled, rfl⟩).optional opens (by simp)

theorem IsOptional.isValue {string? : Option String} (written : IsOptional IsText string? text) :
    IsValue text := by
  cases string? with
  | none => exact written ▸ .null
  | some string => exact .string written.isString

end

/-! ## One reading -/

section

variable {gap item other text more rest after : List Char} {items others : List (List Char)}
  {first : Bool}

/-- Two texts that begin behind blanks in one text are the same. -/
theorem Opens.eq_of_append {gapToo : List Char} (opens : Opens text) (blank : IsBlank gap)
    (opensToo : Opens more) (blankToo : IsBlank gapToo)
    (same : gap ++ (text ++ rest) = gapToo ++ (more ++ after)) : text ++ rest = more ++ after := by
  rw [← opens.skipSpace rest, ← skipSpace_append blank, same, skipSpace_append blankToo,
    opensToo.skipSpace]

theorem nextElement?_close (first : Bool) (blank : IsBlank gap) (rest : List Char) :
    nextElement? first (gap ++ [']'] ++ rest) = .ok none := by
  rw [nextElement?, List.append_assoc, skipSpace_append blank]
  rfl

theorem closeArray_append (blank : IsBlank gap) (rest : List Char) :
    closeArray (gap ++ [']'] ++ rest) = .ok rest := by
  rw [closeArray, List.append_assoc, skipSpace_append blank]
  rfl

/-- Two values at the front of one text are the same. -/
theorem IsValue.eq_of_append (value : IsValue item) (valueToo : IsValue other) (stops : Stops rest)
    (stopsToo : Stops after) (same : item ++ rest = other ++ after) :
    item = other ∧ rest = after := by
  have skipped := skipValue_append value isBlank_nil stops
  have skippedToo := skipValue_append valueToo isBlank_nil stopsToo
  rw [List.nil_append] at skipped skippedToo
  rw [same, skippedToo] at skipped
  cases skipped
  exact ⟨List.append_cancel_right same, rfl⟩

/-- Two arrays at the front of one text have the same elements. -/
theorem ElementTexts.eq_of_append (elements : ElementTexts first items text)
    (elementsToo : ElementTexts first others more) (each : ∀ item ∈ items, IsValue item)
    (eachToo : ∀ item ∈ others, IsValue item) (same : text ++ rest = more ++ after) :
    items = others := by
  induction elements generalizing others more with
  | @close first gap blank =>
      cases elementsToo with
      | close => rfl
      | element blankToo blankBefore later =>
          have opens := (eachToo _ List.mem_cons_self).opens
          have found := nextElement?_append first blankToo blankBefore opens
          have ended := nextElement?_close first blank rest
          rw [same] at ended
          simp only [List.append_assoc, found] at ended
          cases ended
  | @element first gap before item text items blank blankBefore later ih =>
      have value := each _ List.mem_cons_self
      have found := nextElement?_append first blank blankBefore value.opens (text ++ rest)
      cases elementsToo with
      | close blankToo =>
          have ended := nextElement?_close first blankToo after
          rw [← same] at ended
          simp only [List.append_assoc, found] at ended
          cases ended
      | @element _ _ _ other more others blankToo blankBeforeToo laterToo =>
          have valueToo := eachToo _ List.mem_cons_self
          have foundToo :=
            nextElement?_append first blankToo blankBeforeToo valueToo.opens (more ++ after)
          simp only [List.append_assoc] at same
          rw [same, foundToo] at found
          have front : item ++ (text ++ rest) = other ++ (more ++ after) :=
            (Option.some.inj (Except.ok.inj found)).symm
          rcases value.eq_of_append valueToo (later.stops rest) (laterToo.stops after) front with
            ⟨rfl, onward⟩
          have eachLater := fun item member => each item (List.mem_cons_of_mem _ member)
          have eachLaterToo := fun item member => eachToo item (List.mem_cons_of_mem _ member)
          rw [ih laterToo eachLater eachLaterToo onward]

end

/-! ## Records -/

section

variable {σ α : Type} {Written : RecordField σ → σ → σ → List Char → Prop}
  {fields : List (RecordField σ)} {draft last : σ} {text : List Char}

/-- What is collected is taken. -/
theorem Collects.takes {members : List (String × List Char)}
    (collects : Collects Written fields draft members last)
    (each : ∀ field draft next text, Written field draft next text →
      Reads (field.read draft) text next) : Takes fields draft members last := by
  induction collects with
  | nil draft => exact .nil draft
  | known found isFree written _ ih => exact .known found isFree (each _ _ _ _ written) ih
  | unknown notFound value _ ih => exact .unknown notFound value ih

/-- The elements of an array are read into the fields, one after another. -/
theorem elementsInto_append {items : List (List Char)} {first : Bool}
    (elements : ElementTexts first items text) (fills : Fills Written fields draft items last)
    (each : ∀ field draft next text, Written field draft next text →
      Opens text ∧ Reads (field.read draft) text next) (count : Nat) (rest : List Char) :
    ∃ after, elementsInto fields first count draft (text ++ rest) =
        .ok (count + items.length, last, after) ∧ closeArray after = .ok rest := by
  induction fills generalizing first text count with
  | nil fields draft =>
      cases elements with
      | close blank =>
          have closed := closeArray_append blank rest
          cases fields with
          | nil => exact ⟨_, rfl, closed⟩
          | cons field fields =>
              have ended := nextElement?_close first blank rest
              refine ⟨']' :: rest, ?_, rfl⟩
              simp only [elementsInto, ended, bind, Except.bind]
              rw [List.append_assoc, skipSpace_append blank]
              rfl
  | cons written _ ih =>
      cases elements with
      | @element _ gap before item text items blank blankBefore later =>
          rcases each _ _ _ _ written with ⟨opens, reads⟩
          have found := nextElement?_append first blank blankBefore opens (text ++ rest)
          have read := reads isBlank_nil (later.stops rest)
          rw [List.nil_append] at read
          rcases ih later (count + 1) with ⟨after, others, closed⟩
          refine ⟨after, ?_, closed⟩
          simp only [List.append_assoc, elementsInto, found, read, bind, Except.bind, others,
            List.length_cons]
          congr 2
          omega

/-- A record is read however it is written. -/
theorem IsRecord.reads {record : Record σ α} {value : α}
    (isRecord : IsRecord Written record value text)
    (each : ∀ field draft next text, Written field draft next text →
      Opens text ∧ Reads (field.read draft) text next) : Reads record.read text value := by
  cases isRecord with
  | object layout collects complete =>
      exact reads_record layout
        (collects.takes fun field draft next text written => (each _ _ _ _ written).2) complete
  | array layout fills complete =>
      intro before rest blank _
      rcases elementsInto_append layout fills each 0 rest with ⟨after, read, closed⟩
      rw [Nat.zero_add] at read
      rw [Record.read, nextToken_append blank ⟨_, _, rfl, by decide, by decide⟩]
      simp only [List.cons_append, bind, Except.bind, read, complete, closed]
      rfl

/-- A document is decoded as a record exactly if the record is written in it, with blanks around
it. -/
theorem decode_record_iff {record : Record σ α} {document : String} {value : α}
    (takes : ∀ field ∈ record.fields, ∀ draft, TakesOnly (field.read draft) (Written field draft))
    (reads : ∀ field draft next text, Written field draft next text →
      Opens text ∧ Reads (field.read draft) text next) :
    decode record.read document = .ok value ↔
      ∃ before item after, IsBlank before ∧ IsRecord Written record value item ∧ IsBlank after ∧
        document.toList = before ++ (item ++ after) := by
  constructor
  · exact decode_ok (takesOnly_record takes)
  · rintro ⟨before, item, after, blank, isRecord, blankAfter, split⟩
    exact decode_eq_ok split blank blankAfter (isRecord.reads reads)

end

end BridgeFinder.Json
