import BridgeFinder.Json.Decoder
import BridgeFinder.Proofs.Json.Skipping
import BridgeFinder.Proofs.Number.Decimal
import Mathlib.Data.List.Forall2

/-!
# Reading written values

A decoder reads a text for a value if it gives that value wherever the text stands: after blanks,
and before anything that does not continue a number.  Strings, natural numbers, arrays and records
are read for what they stand for, in any spelling.
-/

namespace BridgeFinder.Json

/-- The decoder reads the text for the value, and leaves what follows. -/
def Reads {α : Type} (decode : Reader α) (text : List Char) (value : α) : Prop :=
  ∀ ⦃before rest : List Char⦄, IsBlank before → Stops rest →
    decode (before ++ (text ++ rest)) = .ok (value, rest)

/-- What is read may be converted. -/
theorem reads_map {α β : Type} {decode : Reader α} {text : List Char} {value : α}
    (reads : Reads decode text value) (make : α → β) :
    Reads (fun document => do
      let (value, rest) ← decode document
      pure (make value, rest)) text (make value) := by
  intro before rest blank stops
  simp only [reads blank stops, bind, Except.bind]
  rfl

section

variable {text before rest : List Char} {c : Char}

/-- A token is found behind blanks. -/
theorem nextToken_append (blank : IsBlank before) (opens : Opens text) (rest : List Char) :
    nextToken (before ++ (text ++ rest)) = .ok (text ++ rest) := by
  rw [nextToken, skipSpace_append blank, opens.skipSpace]
  rcases opens with ⟨c, later, rfl, -, -⟩
  rfl

end

/-! ## Strings -/

theorem not_surrogate (c : Char) : c.toNat < 0xD800 ∨ 0xDFFF < c.toNat := by
  rcases c.valid with small | ⟨large, -⟩
  · exact .inl small
  · exact .inr large

/-- The digits of a code unit that is a character are read for it. -/
theorem readEscapedChar_unit {c : Char} {digits : List Char} (isUnit : IsCodeUnit digits c.toNat)
    (rest : List Char) : readEscapedChar (digits ++ rest) = .ok (c, rest) := by
  have apart := not_surrogate c
  simp only [readEscapedChar, readCodeUnit_append isUnit, bind, Except.bind]
  rw [if_neg (by omega), if_neg (by omega), Char.ofNat_toNat]
  rfl

/-- A pair of surrogates is read for the character that it stands for. -/
theorem readEscapedChar_pair {c : Char} {leading trailing : List Char} {high low : Nat}
    (isHigh : IsCodeUnit leading (0xD800 + high)) (highFits : high < 0x400)
    (isLow : IsCodeUnit trailing (0xDC00 + low)) (lowFits : low < 0x400)
    (value : c.toNat = 0x10000 + high * 0x400 + low) (rest : List Char) :
    readEscapedChar (leading ++ '\\' :: 'u' :: (trailing ++ rest)) = .ok (c, rest) := by
  have number : 0x10000 + (0xD800 + high - 0xD800) * 0x400 + (0xDC00 + low - 0xDC00) = c.toNat := by
    omega
  simp only [readEscapedChar, readCodeUnit_append isHigh, readCodeUnit_append isLow, bind,
    Except.bind]
  rw [if_neg (by omega), if_pos (by omega), if_pos (by omega), number, Char.ofNat_toNat]
  rfl

/-- A spelled string is read for its characters, up to its closing quotation mark. -/
theorem readCharsUpTo_append {chars body : List Char} (spelled : Spelled chars body) {bound : Nat}
    (enough : chars.length < bound) (rest : List Char) :
    readCharsUpTo bound (body ++ '"' :: rest) = .ok (chars, rest) := by
  induction spelled generalizing bound with
  | nil =>
      rcases bound with _ | bound
      · cases enough
      · rfl
  | @cons c chars piece text first _ ih =>
      rcases bound with _ | bound
      · cases enough
      · have later := ih (Nat.lt_of_succ_lt_succ enough)
        rw [List.append_assoc]
        cases first with
        | plain isPlain =>
            rcases isPlain with ⟨notQuote, notBackslash, visible⟩
            simp [readCharsUpTo, notQuote, notBackslash, Nat.not_lt.mpr visible, later, bind,
              Except.bind, pure, Except.pure]
        | escaped known =>
            rcases simpleEscape?_of_mem known with ⟨notUnit, isChar⟩
            simp only [List.cons_append, List.nil_append, readCharsUpTo]
            simp [isChar, later, bind, Except.bind, pure, Except.pure]
        | unit isUnit =>
            simp [readCharsUpTo, readEscapedChar_unit isUnit, later, bind, Except.bind, pure,
              Except.pure]
        | pair isHigh highFits isLow lowFits value =>
            have char :=
              readEscapedChar_pair isHigh highFits isLow lowFits value (text ++ '"' :: rest)
            simp [readCharsUpTo, char, later, bind, Except.bind, pure, Except.pure]

theorem Spelled.length_le {chars body : List Char} (spelled : Spelled chars body) :
    chars.length ≤ body.length := by
  induction spelled with
  | nil => exact Nat.le_refl _
  | @cons c chars piece text first _ ih =>
      have filled : 0 < piece.length := by cases first <;> exact Nat.succ_pos _
      simp only [List.length_cons, List.length_append]
      omega

/-- A string that stands for characters is a string. -/
theorem IsText.isString {value : String} {text : List Char} (isText : IsText value text) :
    IsString text := by
  have pieces {chars body : List Char} (spelled : Spelled chars body) :
      ∃ pieces : List (List Char), (∀ piece ∈ pieces, IsPiece piece) ∧ body = pieces.flatten := by
    induction spelled with
    | nil => exact ⟨[], nofun, rfl⟩
    | cons first _ ih =>
        rcases ih with ⟨pieces, each, rfl⟩
        cases first with
        | plain isPlain =>
            exact ⟨_ :: pieces, List.forall_mem_cons.mpr ⟨.plain isPlain, each⟩, rfl⟩
        | escaped known =>
            exact ⟨_ :: pieces, List.forall_mem_cons.mpr ⟨.escaped known, each⟩, rfl⟩
        | unit isUnit =>
            exact ⟨_ :: pieces, List.forall_mem_cons.mpr ⟨.unit isUnit, each⟩, rfl⟩
        | pair isHigh _ isLow _ _ =>
            refine ⟨_ :: _ :: pieces, List.forall_mem_cons.mpr ⟨.unit isHigh,
              List.forall_mem_cons.mpr ⟨.unit isLow, each⟩⟩, ?_⟩
            simp
  rcases isText with ⟨body, spelled, rfl⟩
  rcases pieces spelled with ⟨pieces, each, rfl⟩
  exact ⟨pieces, each, rfl⟩

/-- A text is read for the string that it spells. -/
theorem IsText.readString {value : String} {text : List Char} (isText : IsText value text)
    (rest : List Char) :
    ∃ body, text ++ rest = '"' :: body ∧ readString body = .ok (value, rest) := by
  rcases isText with ⟨body, spelled, rfl⟩
  refine ⟨body ++ '"' :: rest, by simp, ?_⟩
  have short := spelled.length_le
  rw [Json.readString, readCharsUpTo_append spelled (by simp; omega)]
  simp [bind, Except.bind, pure, Except.pure]

theorem IsText.opens {value : String} {text : List Char} (isText : IsText value text) :
    Opens text := by
  rcases isText with ⟨body, -, rfl⟩
  exact ⟨_, _, rfl, by decide, by decide⟩

theorem IsText.reads {value : String} {text : List Char} (isText : IsText value text) :
    Reads string text value := by
  intro before rest blank _
  rcases isText.readString rest with ⟨body, front, read⟩
  rw [string, nextToken_append blank isText.opens, front]
  exact read

/-- A text is read by a conversion that accepts the string that it spells. -/
theorem IsText.readsAs {α : Type} {value : String} {text : List Char} (isText : IsText value text)
    {expected : String} {convert : String → Except Cause α} {result : α}
    (converted : convert value = .ok result) : Reads (stringAs expected convert) text result := by
  intro before rest blank _
  rcases isText.readString rest with ⟨body, front, read⟩
  rw [stringAs, nextToken_append blank isText.opens, front]
  simp only [bind, Except.bind, read, converted]
  rfl

/-! ## Natural numbers -/

section

variable {n : Nat} {digits rest : List Char}

/-- Further digits do not make a number smaller. -/
theorem le_ofDigitChars (digits : List Char) (start : Nat) :
    start ≤ Nat.ofDigitChars 10 digits start := by
  rw [Nat.ofDigitChars_eq_ofDigitChars_zero]
  have positive : 0 < 10 ^ digits.length := Nat.pow_pos (by decide)
  have large := Nat.le_mul_of_pos_left start positive
  omega

/-- Digits are taken into a significand that has room for them. -/
theorem significandDigits_append (taken : Nat) (all : ∀ c ∈ digits, c.isDigit)
    (ends : ∀ c ∈ rest.head?, c.isDigit = false) {start : Nat}
    (fits : Nat.ofDigitChars 10 digits start < Number.powerOfTwo 64) :
    significandDigits start taken (digits ++ rest) =
      (Nat.ofDigitChars 10 digits start, taken + digits.length, false, rest) := by
  induction digits generalizing start taken with
  | nil =>
      rcases rest with _ | ⟨c, rest⟩
      · rfl
      · simp [significandDigits, ends c rfl]
  | cons c digits ih =>
      rw [Nat.ofDigitChars_cons] at fits
      have next : start * 10 + digitOf c = 10 * start + (c.toNat - '0'.toNat) := by
        rw [Nat.mul_comm]
        rfl
      have room := Nat.lt_of_le_of_lt (le_ofDigitChars digits _) fits
      have later := ih (taken + 1) (fun d member => all d (List.mem_cons_of_mem _ member)) fits
      rw [List.cons_append, significandDigits, if_pos (all c List.mem_cons_self)]
      simp only [next, if_neg (Nat.not_le.mpr room), later, Nat.ofDigitChars_cons,
        List.length_cons]
      congr 2
      omega

theorem readNumberTail_stops (stops : Stops rest) :
    readNumberTail false n rest = .ok (.natural n, rest) := by
  rw [readNumberTail.eq_def]
  split
  · exact absurd rfl (stops '.' rfl).2.1
  · exact absurd rfl (stops 'e' rfl).2.2.1
  · exact absurd rfl (stops 'E' rfl).2.2.2
  · rfl

theorem isDigits_toDigits (n : Nat) : IsDigits (Nat.toDigits 10 n) :=
  ⟨Nat.toDigits_ne_nil, fun _ member => Nat.isDigit_of_mem_toDigits (by decide) (by decide) member⟩

/-- A number of 64 bits is read as itself. -/
theorem readUnsigned_toDigits (fits : n < Number.powerOfTwo 64) (stops : Stops rest) :
    readUnsigned false (Nat.toDigits 10 n ++ rest) = .ok (.natural n, rest) := by
  have tail := readNumberTail_stops (n := n) stops
  rcases Nat.eq_zero_or_pos n with rfl | positive
  · rw [Nat.toDigits_zero, List.cons_append, List.nil_append, readUnsigned.eq_def]
    rcases rest with _ | ⟨d, rest⟩
    · exact tail
    · simp only [if_true, (stops d rfl).1, Bool.false_eq_true, if_false]
      exact tail
  · have value := Nat.ofDigitChars_toDigits (b := 10) (n := n) (by decide) (by decide)
    have noZero := Text.head?_toDigits positive
    rcases (isDigits_toDigits n).exists_cons with ⟨c, others, same, digit, all⟩
    rw [same] at value noZero ⊢
    have start : digitOf c = 10 * 0 + (c.toNat - '0'.toNat) := (Nat.zero_add _).symm
    rw [Nat.ofDigitChars_cons, ← start] at value
    have taken := significandDigits_append 1 all (fun d isHead => (stops d isHead).1) (value ▸ fits)
    have notZero : c ≠ '0' := fun zero => noZero (by rw [zero]; rfl)
    rw [List.cons_append, readUnsigned.eq_def]
    simp only [notZero, digit, if_true, if_false, taken, value]
    exact tail

theorem reads_natural {largest : Nat} (inside : n ≤ largest)
    (fits : largest < Number.powerOfTwo 64) (expected : String) :
    Reads (natural largest expected) (Nat.toDigits 10 n) n := by
  intro before rest blank stops
  have read := readUnsigned_toDigits (Nat.lt_of_le_of_lt inside fits) stops
  rcases (isDigits_toDigits n).exists_cons with ⟨c, others, same, digit, -⟩
  rw [same] at read ⊢
  have notMinus : c ≠ '-' := Text.ne_of_isDigit digit (by decide)
  rw [natural, nextToken_append blank (opens_of_isDigit digit others)]
  simp only [List.cons_append] at read ⊢
  simp [bind, Except.bind, digit, read, Numeral.toNat?, inside]

end

/-! ## Arrays -/

theorem ElementTexts.length_lt {items : List (List Char)} {text : List Char} {first : Bool}
    (elements : ElementTexts first items text) (opens : ∀ item ∈ items, Opens item) :
    items.length < text.length := by
  induction elements with
  | close => simp
  | @element first gap before item text items _ _ _ ih =>
      have filled := (opens item List.mem_cons_self).length_pos
      have others := ih fun item member => opens item (List.mem_cons_of_mem _ member)
      simp only [List.length_cons, List.length_append]
      omega

section

variable {α : Type} {decode : Reader α} {items : List (List Char)} {text : List Char}
  {values : List α}

/-- The next element is found behind its comma. -/
theorem nextElement?_append (first : Bool) {gap before item : List Char} (blank : IsBlank gap)
    (blankBefore : IsBlank before) (opens : Opens item) (rest : List Char) :
    nextElement? first (gap ++ (comma first ++ (before ++ (item ++ rest)))) =
      .ok (some (item ++ rest)) := by
  have front : skipSpace (before ++ (item ++ rest)) = item ++ rest := by
    rw [skipSpace_append blankBefore, opens.skipSpace]
  rcases opens with ⟨c, later, rfl, -, notEnd⟩
  rw [List.cons_append] at front ⊢
  rw [nextElement?, skipSpace_append blank]
  cases first with
  | true => simp [front]
  | false =>
      have isComma := skipSpace_cons (show isSpace ',' = false by decide)
      simp [isComma, front, notEnd]

/-- The elements of an array are read one after another. -/
theorem elementsUpTo_append {first : Bool} (elements : ElementTexts first items text)
    (each : List.Forall₂ (Reads decode) items values) (opens : ∀ item ∈ items, Opens item)
    {bound : Nat} (enough : items.length < bound) (rest : List Char) :
    elementsUpTo decode bound first (text ++ rest) = .ok (values, ']' :: rest) := by
  induction elements generalizing bound values with
  | @close first gap blank =>
      rcases bound with _ | bound
      · cases enough
      · cases each
        have front : skipSpace (gap ++ [']'] ++ rest) = ']' :: rest := by
          rw [List.append_assoc, skipSpace_append blank]
          rfl
        simp only [elementsUpTo, nextElement?, front, bind, Except.bind]
        rfl
  | @element first gap before item text items blank blankBefore others ih =>
      rcases bound with _ | bound
      · cases enough
      · cases each with
        | @cons _ value _ values now each =>
            have later := ih each (fun item member => opens item (List.mem_cons_of_mem _ member))
              (Nat.lt_of_succ_lt_succ enough)
            have read := now isBlank_nil (others.stops rest)
            have next := nextElement?_append first blank blankBefore
              (opens item List.mem_cons_self) (text ++ rest)
            simp only [List.nil_append] at read
            simp only [List.append_assoc, elementsUpTo, next, bind, Except.bind, read, later]
            rfl

/-- An array is read for the values of its elements. -/
theorem reads_list (elements : ElementTexts true items text)
    (each : List.Forall₂ (Reads decode) items values) (opens : ∀ item ∈ items, Opens item) :
    Reads (list decode) ('[' :: text) values := by
  intro before rest blank _
  have long := elements.length_lt opens
  have enough : items.length < (text ++ rest).length + 1 := by
    rw [List.length_append]
    omega
  have read := elementsUpTo_append elements each opens enough rest
  rw [list, nextToken_append blank ⟨_, _, rfl, by decide, by decide⟩]
  simp only [List.cons_append, bind, Except.bind, read]
  rfl

end

/-! ## Records -/

section

variable {σ α : Type} {fields : List (RecordField σ)}

/-- What a record makes of the members of an object, one after another: a known one is read into the
draft, which has nothing in its place yet, and an unknown one may be anything. -/
inductive Takes (fields : List (RecordField σ)) : σ → List (String × List Char) → σ → Prop where
  | nil (draft : σ) : Takes fields draft [] draft
  | known {draft next last : σ} {name : String} {text : List Char} {field : RecordField σ}
      {members : List (String × List Char)} (found : fieldNamed? fields name = some field)
      (isFree : field.isSet draft = false) (reads : Reads (field.read draft) text next)
      (others : Takes fields next members last) : Takes fields draft ((name, text) :: members) last
  | unknown {draft last : σ} {name : String} {text : List Char}
      {members : List (String × List Char)} (notFound : fieldNamed? fields name = none)
      (value : IsValue text) (others : Takes fields draft members last) :
      Takes fields draft ((name, text) :: members) last

/-- The next key is found behind its comma. -/
theorem nextKey?_append (first : Bool) {gap before key : List Char} (blank : IsBlank gap)
    (blankBefore : IsBlank before) (isKey : IsString key) (rest : List Char) :
    nextKey? first (gap ++ (comma first ++ (before ++ (key ++ rest)))) =
      .ok (some (key ++ rest)) := by
  have front : skipSpace (before ++ (key ++ rest)) = key ++ rest := by
    rw [skipSpace_append blankBefore, isKey.opens.skipSpace]
  rcases isKey with ⟨body, -, rfl⟩
  simp only [List.cons_append, List.append_assoc, List.nil_append] at front ⊢
  rw [nextKey?, skipSpace_append blank]
  cases first with
  | true => simp [front]
  | false =>
      have isComma := skipSpace_cons (show isSpace ',' = false by decide)
      simp [isComma, front]

theorem MemberTexts.length_lt {κ : Type} {Key : κ → List Char → Prop}
    {members : List (κ × List Char)} {text : List Char} {first : Bool}
    (object : MemberTexts Key first members text) : members.length < text.length := by
  induction object with
  | close => simp
  | member _ _ _ _ _ _ ih =>
      simp only [List.length_cons, List.length_append]
      omega

/-- The members of an object are taken one after another. -/
theorem membersUpTo_append {first : Bool} {members : List (String × List Char)} {text : List Char}
    {draft last : σ} (object : MemberTexts IsText first members text)
    (takes : Takes fields draft members last) {bound : Nat} (enough : members.length < bound)
    (rest : List Char) :
    membersUpTo fields bound first draft (text ++ rest) =
      .ok (.complete last ('\x7d' :: rest)) := by
  induction object generalizing bound draft with
  | @close first gap blank =>
      rcases bound with _ | bound
      · cases enough
      · cases takes
        have front : skipSpace (gap ++ ['\x7d'] ++ rest) = '\x7d' :: rest := by
          rw [List.append_assoc, skipSpace_append blank]
          rfl
        simp only [membersUpTo, nextKey?, front, bind, Except.bind]
        rfl
  | @member first gap before after between key item text name members blank blankBefore isKey
      blankAfter blankBetween others ih =>
      rcases bound with _ | bound
      · cases enough
      · have next := nextKey?_append first blank blankBefore isKey.isString
          (after ++ ':' :: (between ++ (item ++ (text ++ rest))))
        rcases isKey.readString (after ++ ':' :: (between ++ (item ++ (text ++ rest)))) with
          ⟨body, front, read⟩
        have room := Nat.lt_of_succ_lt_succ enough
        rw [front] at next
        simp only [List.append_assoc, List.cons_append, membersUpTo, front, next, bind, Except.bind,
          List.drop_succ_cons, List.drop_zero, read, readColon_append blankAfter]
        cases takes with
        | known found isFree reads later =>
            have value := reads blankBetween (others.stops rest)
            simp only [found, isFree, Bool.false_eq_true, if_false, value]
            exact ih later room
        | unknown notFound value later =>
            have skipped := skipValue_append value blankBetween (others.stops rest)
            simp only [notFound, skipped]
            exact ih later room

/-- An object is read for what its members amount to. -/
theorem reads_record {record : Record σ α} {members : List (String × List Char)}
    {text : List Char} {last : σ} {value : α} (object : MemberTexts IsText true members text)
    (takes : Takes record.fields record.empty members last)
    (complete : record.ofObject last = .ok value) : Reads record.read ('\x7b' :: text) value := by
  intro before rest blank _
  have long := object.length_lt
  have enough : members.length < (text ++ rest).length + 1 := by
    rw [List.length_append]
    omega
  have read := membersUpTo_append object takes enough rest
  rw [Record.read, nextToken_append blank ⟨_, _, rfl, by decide, by decide⟩]
  simp only [List.cons_append, bind, Except.bind, read, complete]
  rfl

end

/-! ## Documents -/

/-- A document is read for the value of its text, with blanks around it. -/
theorem decode_eq_ok {α : Type} {reader : Reader α} {document : String} {value : α}
    {before text after : List Char} (isText : document.toList = before ++ (text ++ after))
    (blank : IsBlank before) (blankAfter : IsBlank after) (reads : Reads reader text value) :
    decode reader document = .ok value := by
  have ends : skipSpace after = [] :=
    List.append_nil after ▸ skipSpace_append blankAfter []
  simp only [decode, isText, reads blank blankAfter.stops, bind, Except.bind, ends]
  rfl

/-- A document that is nothing but a text is read for the value of the text. -/
theorem decode_ofList {α : Type} {reader : Reader α} {text : List Char} {value : α}
    (reads : Reads reader text value) : decode reader (String.ofList text) = .ok value := by
  have isDocument : (String.ofList text).toList = [] ++ (text ++ []) := by simp
  exact decode_eq_ok isDocument isBlank_nil isBlank_nil reads

end BridgeFinder.Json
