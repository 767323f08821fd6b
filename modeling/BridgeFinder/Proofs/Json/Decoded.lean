import BridgeFinder.Json.Decoder
import BridgeFinder.Proofs.Json.Skipped

/-!
# What is decoded

A decoder takes only what is written in the way that its values are: strings are spelled between
quotation marks, an object has its members between braces, and an array its elements between
brackets.  What a record makes of either follows from what each of its fields takes.
-/

namespace BridgeFinder.Json

/-- Whatever the decoder takes off the front of a text is written, behind blanks, in the way that
belongs to its value. -/
def TakesOnly {α : Type} (decode : Reader α) (Written : α → List Char → Prop) : Prop :=
  ∀ ⦃text rest : List Char⦄ ⦃value : α⦄, decode text = .ok (value, rest) →
    ∃ before item, IsBlank before ∧ Written value item ∧ text = before ++ (item ++ rest)

section

variable {text rest : List Char}

theorem nextToken_ok (found : nextToken text = .ok rest) :
    ∃ gap, IsBlank gap ∧ text = gap ++ rest := by
  rcases exists_skipSpace text with ⟨gap, blank, split⟩
  rw [nextToken] at found
  split at found
  · cases found
  · cases found
    exact ⟨gap, blank, split⟩

/-- A value of the wrong type is never taken. -/
theorem wrongTypeAt_ne_ok {α : Type} (expected : String) (text : List Char) (value : α) :
    wrongTypeAt expected text ≠ .ok value := by
  have bound {β : Type} {read : Except Fault β} {fault : β → Fault}
      (taken : (read >>= fun result => throw (fault result)) = Except.ok value) : False := by
    rcases bind_eq_ok.mp taken with ⟨result, -, thrown⟩
    cases thrown
  intro taken
  rw [wrongTypeAt.eq_def] at taken
  split at taken
  · exact bound taken
  · exact bound taken
  · exact bound taken
  · exact bound taken
  · exact bound taken
  · cases taken
  · cases taken
  · cases taken
  · split at taken
    · exact bound taken
    · cases taken

end

/-! ## Strings -/

section

variable {text rest : List Char} {unit : Nat} {c : Char}

/-- Four hexadecimal digits write a number of sixteen bits. -/
theorem IsCodeUnit.lt {digits : List Char} (isUnit : IsCodeUnit digits unit) : unit < 0x10000 := by
  rcases isUnit with ⟨four, read⟩
  rcases digits with _ | ⟨a, _ | ⟨b, _ | ⟨c, _ | ⟨d, _ | _⟩⟩⟩⟩ <;> simp at four
  simp only [Text.naturalInBase?, List.isEmpty_cons, Bool.false_eq_true, if_false,
    List.foldlM_cons, List.foldlM_nil, bind, Option.bind_eq_some_iff, pure,
    Option.ite_none_right_eq_some, Option.some.injEq] at read
  rcases read with ⟨w, ⟨i, -, small, rfl⟩, x, ⟨j, -, small', rfl⟩, y, ⟨k, -, small'', rfl⟩, z,
    ⟨l, -, small''', rfl⟩, rfl⟩
  omega

theorem toNat_ofNat_of_not_surrogate (apart : unit < 0xD800 ∨ 0xDFFF < unit)
    (small : unit < 0x110000) : (Char.ofNat unit).toNat = unit := by
  have isValid : unit.isValidChar := apart.imp_right fun above => ⟨above, small⟩
  rw [Char.ofNat, dif_pos isValid]
  rfl

/-- What is read behind the letter of an escape spells the character. -/
theorem readEscapedChar_ok (read : readEscapedChar text = .ok (c, rest)) :
    ∃ piece, SpelledChar c ('\\' :: 'u' :: piece) ∧ text = piece ++ rest := by
  rw [readEscapedChar] at read
  rcases bind_eq_ok.mp read with ⟨⟨unit, later⟩, first, onward⟩
  rcases readCodeUnit_ok first with ⟨digits, isUnit, rfl⟩
  have fits := isUnit.lt
  dsimp only at onward
  split at onward
  · cases onward
  · rename_i notTrailing
    split at onward
    · rename_i leading
      split at onward
      · cases onward
      · cases onward
      · rename_i after
        rcases bind_eq_ok.mp onward with ⟨⟨second, last⟩, another, char⟩
        rcases readCodeUnit_ok another with ⟨trailing, isSecond, rfl⟩
        dsimp only at char
        split at char
        · rename_i isTrailing
          rcases Prod.mk.inj (Except.ok.inj char) with ⟨rfl, rfl⟩
          have high : 0xD800 + (unit - 0xD800) = unit := by omega
          have low : 0xDC00 + (second - 0xDC00) = second := by omega
          refine ⟨digits ++ '\\' :: 'u' :: trailing, ?_, by simp⟩
          apply SpelledChar.pair (high.symm ▸ isUnit) (by omega) (low.symm ▸ isSecond) (by omega)
          exact toNat_ofNat_of_not_surrogate (.inr (by omega)) (by omega)
        · cases char
      · cases onward
      · cases onward
    · cases onward
      refine ⟨digits, .unit ?_, rfl⟩
      rwa [toNat_ofNat_of_not_surrogate (by omega) (by omega)]

/-- What is read of a string spells its characters, up to the closing quotation mark. -/
theorem readCharsUpTo_ok {bound : Nat} {chars : List Char}
    (read : readCharsUpTo bound text = .ok (chars, rest)) :
    ∃ body, Spelled chars body ∧ text = body ++ '"' :: rest := by
  induction bound generalizing text chars with
  | zero =>
      cases text <;> cases read
  | succ bound ih =>
      have onward {c : Char} {piece later : List Char} (spelled : SpelledChar c piece)
          (split : text = piece ++ later)
          (read : (readCharsUpTo bound later >>= fun taken => pure (c :: taken.1, taken.2)) =
            Except.ok (chars, rest)) :
          ∃ body, Spelled chars body ∧ text = body ++ '"' :: rest := by
        rcases bind_eq_ok.mp read with ⟨⟨others, last⟩, taken, made⟩
        cases made
        rcases ih taken with ⟨body, isSpelled, rfl⟩
        exact ⟨piece ++ body, .cons spelled isSpelled, by simp [split]⟩
      cases text with
      | nil => cases read
      | cons c text =>
          rw [readCharsUpTo.eq_def] at read
          simp only at read
          split at read
          · rename_i quote
            cases read
            exact ⟨[], .nil, by rw [quote]; rfl⟩
          · rename_i notQuote
            split at read
            · rename_i backslash
              subst backslash
              split at read
              · cases read
              · rcases bind_eq_ok.mp read with ⟨⟨char, later⟩, escaped, others⟩
                rcases readEscapedChar_ok escaped with ⟨piece, spelled, rfl⟩
                exact onward spelled rfl others
              · split at read
                · rename_i char isChar
                  exact onward (.escaped (mem_escapes_of_simpleEscape? isChar)) rfl read
                · cases read
            · rename_i notBackslash
              split at read
              · cases read
              · rename_i visible
                exact onward (.plain ⟨notQuote, notBackslash, Nat.not_lt.mp visible⟩) rfl read

theorem readString_ok {value : String} (read : readString text = .ok (value, rest)) :
    ∃ body, IsText value ('"' :: body) ∧ text = body ++ rest := by
  rw [readString] at read
  rcases bind_eq_ok.mp read with ⟨⟨chars, last⟩, taken, made⟩
  cases made
  rcases readCharsUpTo_ok taken with ⟨body, spelled, rfl⟩
  refine ⟨body ++ ['"'], ⟨body, ?_, rfl⟩, by simp⟩
  rwa [String.toList_ofList]

/-- A string is taken only in one of its spellings. -/
theorem takesOnly_string : TakesOnly string IsText := by
  intro text rest value read
  rw [string] at read
  rcases bind_eq_ok.mp read with ⟨token, found, taken⟩
  rcases nextToken_ok found with ⟨before, blank, rfl⟩
  split at taken
  · rcases readString_ok taken with ⟨body, isText, rfl⟩
    exact ⟨before, _, blank, isText, rfl⟩
  · exact absurd taken (wrongTypeAt_ne_ok _ _ _)

/-- An absent value is written as `null`, and any other one in its own way. -/
def IsOptional {α : Type} (Written : α → List Char → Prop) : Option α → List Char → Prop
  | none, text => text = ['n', 'u', 'l', 'l']
  | some value, text => Written value text

theorem TakesOnly.optional {α : Type} {decode : Reader α} {Written : α → List Char → Prop}
    (takes : TakesOnly decode Written) : TakesOnly (optional decode) (IsOptional Written) := by
  intro text rest value read
  rcases exists_skipSpace text with ⟨before, blank, split⟩
  rw [Json.optional] at read
  split at read
  · rename_i later front
    rcases bind_eq_ok.mp read with ⟨after, word, read⟩
    cases read
    rw [front, readWord_ok word] at split
    exact ⟨before, _, blank, rfl, split⟩
  · rcases bind_eq_ok.mp read with ⟨⟨given, after⟩, taken, read⟩
    cases read
    rcases takes taken with ⟨gap, item, blank', written, front⟩
    rw [front, ← List.append_assoc] at split
    refine ⟨before ++ gap, item, ?_, written, split⟩
    exact fun c member => (List.mem_append.mp member).elim (blank c) (blank' c)

end

/-! ## Arrays and objects -/

section

variable {text rest : List Char} {first : Bool}

theorem nextElement?_ok (found : nextElement? first text = .ok (some rest)) :
    ∃ gap before, IsBlank gap ∧ IsBlank before ∧
      text = gap ++ (comma first ++ (before ++ rest)) := by
  rcases exists_skipSpace text with ⟨gap, blank, split⟩
  rw [nextElement?] at found
  split at found
  · cases found
  · cases found
  · rename_i c later _ front
    rw [front] at split
    cases first with
    | true =>
        cases found
        exact ⟨gap, [], blank, isBlank_nil, split⟩
    | false =>
        rcases exists_skipSpace later with ⟨before, blankBefore, more⟩
        simp only [Bool.false_eq_true, if_false] at found
        split at found
        · rename_i isComma
          subst isComma
          split at found
          · cases found
          · cases found
          · cases found
            refine ⟨gap, before, blank, blankBefore, ?_⟩
            rw [split, comma_false, List.singleton_append, ← more]
        · cases found

theorem nextElement?_none (ended : nextElement? first text = .ok none) :
    ∃ gap after, IsBlank gap ∧ skipSpace text = ']' :: after ∧ text = gap ++ ']' :: after := by
  rcases exists_skipSpace text with ⟨gap, blank, split⟩
  rw [nextElement?] at ended
  split at ended
  · cases ended
  · rename_i after front
    rw [front] at split
    exact ⟨gap, after, blank, front, split⟩
  · split at ended
    · cases ended
    · split at ended
      · split at ended <;> cases ended
      · cases ended

theorem closeArray_ok (closed : closeArray text = .ok rest) :
    ∃ gap, IsBlank gap ∧ text = gap ++ ']' :: rest := by
  rcases exists_skipSpace text with ⟨gap, blank, split⟩
  rw [closeArray] at closed
  split at closed
  · rename_i front
    rw [front] at split
    cases closed
    exact ⟨gap, blank, split⟩
  · split at closed <;> cases closed
  · cases closed
  · cases closed

theorem nextKey?_ok (found : nextKey? first text = .ok (some rest)) :
    ∃ gap before body, IsBlank gap ∧ IsBlank before ∧ rest = '"' :: body ∧
      text = gap ++ (comma first ++ (before ++ rest)) := by
  rcases exists_skipSpace text with ⟨gap, blank, split⟩
  rw [nextKey?] at found
  split at found
  · cases found
  · cases found
  · rename_i c later _ front
    rw [front] at split
    cases first with
    | true =>
        simp only [if_true] at found
        split at found
        · rename_i isQuote
          subst isQuote
          cases found
          exact ⟨gap, [], later, blank, isBlank_nil, rfl, split⟩
        · cases found
    | false =>
        rcases exists_skipSpace later with ⟨before, blankBefore, more⟩
        simp only [Bool.false_eq_true, if_false] at found
        split at found
        · rename_i isComma
          subst isComma
          split at found
          · rename_i body quote
            rw [quote] at more
            cases found
            refine ⟨gap, before, body, blank, blankBefore, rfl, ?_⟩
            rw [split, comma_false, List.singleton_append, ← more]
          · cases found
          · cases found
          · cases found
        · cases found

theorem nextKey?_none (ended : nextKey? first text = .ok none) :
    ∃ gap after, IsBlank gap ∧ skipSpace text = '\x7d' :: after ∧
      text = gap ++ '\x7d' :: after := by
  rcases exists_skipSpace text with ⟨gap, blank, split⟩
  rw [nextKey?] at ended
  split at ended
  · cases ended
  · rename_i after front
    rw [front] at split
    exact ⟨gap, after, blank, front, split⟩
  · split at ended
    · split at ended <;> cases ended
    · split at ended
      · split at ended <;> cases ended
      · cases ended

end

/-! ## Records -/

section

variable {σ α : Type} {Written : RecordField σ → σ → σ → List Char → Prop}
  {fields : List (RecordField σ)} {draft last : σ} {text rest : List Char} {first : Bool}

/-- A draft collects the members of an object, one after another: what is written in a known one,
which has not been given before, and nothing from an unknown one. -/
inductive Collects (Written : RecordField σ → σ → σ → List Char → Prop)
    (fields : List (RecordField σ)) : σ → List (String × List Char) → σ → Prop where
  | nil (draft : σ) : Collects Written fields draft [] draft
  | known {draft next last : σ} {name : String} {text : List Char} {field : RecordField σ}
      {members : List (String × List Char)} (found : fieldNamed? fields name = some field)
      (isFree : field.isSet draft = false) (written : Written field draft next text)
      (others : Collects Written fields next members last) :
      Collects Written fields draft ((name, text) :: members) last
  | unknown {draft last : σ} {name : String} {text : List Char}
      {members : List (String × List Char)} (notFound : fieldNamed? fields name = none)
      (value : IsValue text) (others : Collects Written fields draft members last) :
      Collects Written fields draft ((name, text) :: members) last

/-- A draft is filled with the elements of an array: the first of them is written in the first
field, and so on.  There may be more fields than elements. -/
inductive Fills (Written : RecordField σ → σ → σ → List Char → Prop) :
    List (RecordField σ) → σ → List (List Char) → σ → Prop where
  | nil (fields : List (RecordField σ)) (draft : σ) : Fills Written fields draft [] draft
  | cons {field : RecordField σ} {fields : List (RecordField σ)} {draft next last : σ}
      {item : List Char} {items : List (List Char)} (written : Written field draft next item)
      (others : Fills Written fields next items last) :
      Fills Written (field :: fields) draft (item :: items) last

/-- A record is written as an object, or as an array. -/
inductive IsRecord (Written : RecordField σ → σ → σ → List Char → Prop) (record : Record σ α) :
    α → List Char → Prop where
  | object {members : List (String × List Char)} {object : List Char} {last : σ} {value : α}
      (layout : MemberTexts IsText true members object)
      (collects : Collects Written record.fields record.empty members last)
      (complete : record.ofObject last = .ok value) :
      IsRecord Written record value ('\x7b' :: object)
  | array {items : List (List Char)} {array : List Char} {last : σ} {value : α}
      (layout : ElementTexts true items array)
      (fills : Fills Written record.fields record.empty items last)
      (complete : record.ofArray items.length last = .ok value) :
      IsRecord Written record value ('[' :: array)

/-- What is taken of the members of an object is collected. -/
theorem membersUpTo_ok
    (each : ∀ field ∈ fields, ∀ draft, TakesOnly (field.read draft) (Written field draft))
    {bound : Nat} (taken : membersUpTo fields bound first draft text = .ok (.complete last rest)) :
    ∃ members object after, MemberTexts IsText first members object ∧
      Collects Written fields draft members last ∧ rest = '\x7d' :: after ∧
      text = object ++ after := by
  induction bound generalizing first draft text with
  | zero => cases taken
  | succ bound ih =>
      rw [membersUpTo] at taken
      rcases bind_eq_ok.mp taken with ⟨next?, found, onward⟩
      cases next? with
      | none =>
          rcases nextKey?_none found with ⟨gap, after, blank, front, rfl⟩
          cases onward
          exact ⟨[], _, after, .close blank, .nil _, front, by simp⟩
      | some next =>
          rcases nextKey?_ok found with ⟨gap, before, body, blank, blankBefore, rfl, rfl⟩
          rcases bind_eq_ok.mp onward with ⟨⟨name, afterKey⟩, isKey, named⟩
          rw [List.drop_succ_cons, List.drop_zero] at isKey
          rcases readString_ok isKey with ⟨key, isText, rfl⟩
          dsimp only at named
          split at named
          · rename_i field known
            split at named
            · cases named
            · rename_i free
              rcases bind_eq_ok.mp named with ⟨afterColon, colon, given⟩
              rcases bind_eq_ok.mp given with ⟨⟨changed, later⟩, value, others⟩
              rcases readColon_ok colon with ⟨after, blankAfter, rfl⟩
              rcases each field (List.mem_of_find?_eq_some known) draft value with
                ⟨between, item, blankBetween, written, rfl⟩
              rcases ih others with ⟨members, object, tail, layout, collects, rfl, rfl⟩
              exact ⟨(name, item) :: members, _, tail,
                .member blank blankBefore isText blankAfter blankBetween layout,
                .known known (by simpa using free) written collects, rfl, by simp⟩
          · rename_i unknown
            rcases bind_eq_ok.mp named with ⟨afterColon, colon, given⟩
            rcases bind_eq_ok.mp given with ⟨later, skipped, others⟩
            rcases readColon_ok colon with ⟨after, blankAfter, rfl⟩
            rcases skipValue_ok skipped with ⟨between, item, blankBetween, value, rfl⟩
            rcases ih others with ⟨members, object, tail, layout, collects, rfl, rfl⟩
            exact ⟨(name, item) :: members, _, tail,
              .member blank blankBefore isText blankAfter blankBetween layout,
              .unknown unknown value collects, rfl, by simp⟩

/-- What is taken of the elements of an array, which then ends, fills the fields. -/
theorem elementsInto_ok
    (each : ∀ field ∈ fields, ∀ draft, TakesOnly (field.read draft) (Written field draft))
    {count total : Nat} {after : List Char}
    (taken : elementsInto fields first count draft text = .ok (total, last, rest))
    (closed : closeArray rest = .ok after) :
    ∃ items array, ElementTexts first items array ∧ Fills Written fields draft items last ∧
      total = count + items.length ∧ text = array ++ after := by
  induction fields generalizing first count draft text with
  | nil =>
      cases taken
      rcases closeArray_ok closed with ⟨gap, blank, rfl⟩
      exact ⟨[], _, .close blank, .nil [] _, rfl, by simp⟩
  | cons field fields ih =>
      rw [elementsInto] at taken
      rcases bind_eq_ok.mp taken with ⟨next?, found, onward⟩
      cases next? with
      | none =>
          rcases nextElement?_none found with ⟨gap, later, blank, front, rfl⟩
          cases onward
          rw [front] at closed
          cases closed
          exact ⟨[], _, .close blank, .nil _ _, rfl, by simp⟩
      | some next =>
          rcases nextElement?_ok found with ⟨gap, before, blank, blankBefore, rfl⟩
          rcases bind_eq_ok.mp onward with ⟨⟨changed, later⟩, value, others⟩
          rcases each field List.mem_cons_self draft value with
            ⟨between, item, blankBetween, written, rfl⟩
          have eachLater := fun field member => each field (List.mem_cons_of_mem _ member)
          rcases ih eachLater others with ⟨items, array, layout, fills, rfl, rfl⟩
          have blanks : IsBlank (before ++ between) := fun c member =>
            (List.mem_append.mp member).elim (blankBefore c) (blankBetween c)
          refine ⟨item :: items, _, .element blank blanks layout, .cons written fills, ?_, by simp⟩
          rw [List.length_cons]
          omega

/-- A record is taken only if it is written as one. -/
theorem takesOnly_record {record : Record σ α}
    (each : ∀ field ∈ record.fields, ∀ draft, TakesOnly (field.read draft) (Written field draft)) :
    TakesOnly record.read (IsRecord Written record) := by
  intro text rest value read
  rw [Record.read] at read
  rcases bind_eq_ok.mp read with ⟨token, found, taken⟩
  rcases nextToken_ok found with ⟨before, blank, rfl⟩
  split at taken
  · rcases bind_eq_ok.mp taken with ⟨members, collected, onward⟩
    cases members with
    | repeated => cases onward
    | complete last later =>
        rcases membersUpTo_ok each collected with
          ⟨members, object, after, layout, collects, rfl, rfl⟩
        dsimp only at onward
        split at onward
        · rename_i made complete
          rcases bind_eq_ok.mp onward with ⟨end', closed, same⟩
          cases same
          cases closed
          exact ⟨before, _, blank, .object layout collects complete, rfl⟩
        · cases onward
  · rcases bind_eq_ok.mp taken with ⟨⟨total, last, later⟩, filled, onward⟩
    dsimp only at onward
    split at onward
    · rename_i made complete
      rcases bind_eq_ok.mp onward with ⟨end', closed, same⟩
      cases same
      rcases elementsInto_ok each filled closed with ⟨items, array, layout, fills, rfl, rfl⟩
      rw [Nat.zero_add] at complete
      exact ⟨before, _, blank, .array layout fills complete, rfl⟩
    · split at onward <;> cases onward
  · exact absurd taken (wrongTypeAt_ne_ok _ _ _)

end

/-! ## Documents -/

/-- A document that is decoded is a written value with blanks around it. -/
theorem decode_ok {α : Type} {reader : Reader α} {Written : α → List Char → Prop}
    (takes : TakesOnly reader Written) {document : String} {value : α}
    (decoded : decode reader document = .ok value) :
    ∃ before item after, IsBlank before ∧ Written value item ∧ IsBlank after ∧
      document.toList = before ++ (item ++ after) := by
  rw [decode] at decoded
  rcases bind_eq_ok.mp (mapError_eq_ok.mp decoded) with ⟨⟨given, after⟩, read, ended⟩
  rcases takes read with ⟨before, item, blank, written, split⟩
  rcases exists_skipSpace after with ⟨gap, blankAfter, rest⟩
  dsimp only at ended
  split at ended
  · rename_i front
    cases ended
    rw [front, List.append_nil] at rest
    exact ⟨before, item, after, blank, written, rest ▸ blankAfter, split⟩
  · cases ended

end BridgeFinder.Json
