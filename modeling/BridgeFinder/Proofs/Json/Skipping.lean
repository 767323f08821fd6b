import BridgeFinder.Proofs.Json.Grammar
import BridgeFinder.Proofs.Number.Decimal

/-!
# Skipping values

Whatever the grammar allows is skipped up to its end: strings with halves of pairs, numbers of any
size, and values inside values to any depth.
-/

namespace BridgeFinder.Json

/-! ## Blanks and ends -/

section

variable {gap text rest : List Char} {c : Char}

theorem skipSpace_append (blank : IsBlank gap) (text : List Char) :
    skipSpace (gap ++ text) = skipSpace text :=
  List.dropWhile_append_of_pos blank

theorem skipSpace_cons (visible : isSpace c = false) (rest : List Char) :
    skipSpace (c :: rest) = c :: rest := by
  simp [skipSpace, visible]

/-- The text begins with a character that is neither blank nor the end of an array. -/
def Opens (text : List Char) : Prop :=
  ∃ c rest, text = c :: rest ∧ isSpace c = false ∧ c ≠ ']'

theorem Opens.skipSpace (opens : Opens text) (rest : List Char) :
    skipSpace (text ++ rest) = text ++ rest := by
  rcases opens with ⟨c, later, rfl, visible, -⟩
  exact skipSpace_cons visible _

theorem Opens.length_pos (opens : Opens text) : 0 < text.length := by
  rcases opens with ⟨c, later, rfl, -, -⟩
  exact Nat.succ_pos _

/-- What follows does not continue a number. -/
def Stops (rest : List Char) : Prop :=
  ∀ c ∈ rest.head?, c.isDigit = false ∧ c ≠ '.' ∧ c ≠ 'e' ∧ c ≠ 'E'

theorem stops_nil : Stops [] :=
  nofun

theorem stops_cons (isDigit : c.isDigit = false) (apart : c ≠ '.' ∧ c ≠ 'e' ∧ c ≠ 'E')
    (rest : List Char) : Stops (c :: rest) := by
  intro d isHead
  cases isHead
  exact ⟨isDigit, apart⟩

theorem stops_of_isSpace (space : isSpace c) (rest : List Char) : Stops (c :: rest) := by
  simp only [isSpace, Bool.or_eq_true, beq_iff_eq] at space
  rcases space with ((rfl | rfl) | rfl) | rfl <;> exact stops_cons (by decide) (by decide) rest

theorem stops_append (blank : IsBlank gap) (stops : Stops rest) : Stops (gap ++ rest) := by
  rcases gap with _ | ⟨c, gap⟩
  · exact stops
  · exact stops_of_isSpace (blank c List.mem_cons_self) _

theorem IsBlank.stops (blank : IsBlank gap) : Stops gap :=
  List.append_nil gap ▸ stops_append blank stops_nil

/-- An array that goes on, or ends, does not continue a number. -/
theorem ElementTexts.stops {items : List (List Char)} (elements : ElementTexts false items text)
    (rest : List Char) : Stops (text ++ rest) := by
  cases elements with
  | close blank =>
      rw [List.append_assoc]
      exact stops_append blank (stops_cons (by decide) (by decide) _)
  | element blank =>
      rw [List.append_assoc]
      exact stops_append blank (stops_cons (by decide) (by decide) _)

/-- An object that goes on, or ends, does not continue a number. -/
theorem MemberTexts.stops {κ : Type} {Key : κ → List Char → Prop} {members : List (κ × List Char)}
    (object : MemberTexts Key false members text) (rest : List Char) : Stops (text ++ rest) := by
  cases object with
  | close blank =>
      rw [List.append_assoc]
      exact stops_append blank (stops_cons (by decide) (by decide) _)
  | member blank =>
      rw [List.append_assoc]
      exact stops_append blank (stops_cons (by decide) (by decide) _)

end

/-! ## Strings -/

theorem simpleEscape?_of_mem {letter c : Char} (known : (letter, c) ∈ escapes) :
    letter ≠ 'u' ∧ simpleEscape? letter = some c := by
  simp only [escapes, List.mem_cons, Prod.mk.injEq, List.not_mem_nil, or_false] at known
  rcases known with ⟨rfl, rfl⟩ | ⟨rfl, rfl⟩ | ⟨rfl, rfl⟩ | ⟨rfl, rfl⟩ | ⟨rfl, rfl⟩ | ⟨rfl, rfl⟩ |
    ⟨rfl, rfl⟩ | ⟨rfl, rfl⟩ <;> exact ⟨by decide, rfl⟩

/-- Four digits are read as the code unit that they write. -/
theorem readCodeUnit_append {digits : List Char} {unit : Nat} (isUnit : IsCodeUnit digits unit)
    (rest : List Char) : readCodeUnit (digits ++ rest) = .ok (unit, rest) := by
  rcases isUnit with ⟨four, read⟩
  rcases digits with _ | ⟨a, _ | ⟨b, _ | ⟨c, _ | ⟨d, _ | _⟩⟩⟩⟩ <;> simp at four
  have value : codeUnit? a b c d = some unit := by
    simp only [Text.naturalInBase?, List.isEmpty_cons, Bool.false_eq_true, if_false,
      List.foldlM_cons, List.foldlM_nil, bind, Option.bind_eq_some_iff, pure,
      Option.ite_none_right_eq_some, Option.some.injEq] at read
    rcases read with ⟨w, ⟨i, isI, -, rfl⟩, x, ⟨j, isJ, -, rfl⟩, y, ⟨k, isK, -, rfl⟩, z,
      ⟨l, isL, -, rfl⟩, rfl⟩
    simp [codeUnit?, isI, isJ, isK, isL]
  simp only [List.cons_append, List.nil_append, readCodeUnit, value]

/-- A string is skipped to its closing quotation mark. -/
theorem skipCharsUpTo_append {pieces : List (List Char)} (each : ∀ piece ∈ pieces, IsPiece piece)
    {bound : Nat} (enough : pieces.length < bound) (rest : List Char) :
    skipCharsUpTo bound (pieces.flatten ++ '"' :: rest) = .ok rest := by
  induction pieces generalizing bound with
  | nil =>
      rcases bound with _ | bound
      · cases enough
      · simp [skipCharsUpTo]
  | cons piece pieces ih =>
      rcases bound with _ | bound
      · cases enough
      · have later := ih (fun piece member => each piece (List.mem_cons_of_mem _ member))
          (Nat.lt_of_succ_lt_succ enough)
        rw [List.flatten_cons, List.append_assoc]
        cases each piece List.mem_cons_self with
        | plain isPlain =>
            rcases isPlain with ⟨notQuote, notBackslash, visible⟩
            simp [skipCharsUpTo, notQuote, notBackslash, Nat.not_lt.mpr visible, later]
        | escaped known =>
            rcases simpleEscape?_of_mem known with ⟨notUnit, value⟩
            simp only [List.cons_append, List.nil_append, skipCharsUpTo]
            simp [value, later]
        | unit isUnit =>
            simp [skipCharsUpTo, readCodeUnit_append isUnit, later]

theorem length_le_flatten {pieces : List (List Char)} (each : ∀ piece ∈ pieces, IsPiece piece) :
    pieces.length ≤ pieces.flatten.length := by
  induction pieces with
  | nil => exact Nat.le_refl _
  | cons piece pieces ih =>
      have first : 0 < piece.length := by
        cases each piece List.mem_cons_self <;> exact Nat.succ_pos _
      have later := ih fun piece member => each piece (List.mem_cons_of_mem _ member)
      simp only [List.flatten_cons, List.length_cons, List.length_append]
      omega

/-- A string is skipped whatever it stands for. -/
theorem skipString_append {text : List Char} (isString : IsString text) (rest : List Char) :
    ∃ body, text = '"' :: body ∧ skipString (body ++ rest) = .ok rest := by
  rcases isString with ⟨pieces, each, rfl⟩
  refine ⟨pieces.flatten ++ ['"'], rfl, ?_⟩
  rw [skipString, List.append_assoc]
  apply skipCharsUpTo_append each
  have long := length_le_flatten each
  simp only [List.length_append, List.length_cons, List.length_nil]
  omega

/-! ## Numbers -/

section

variable {text digits rest : List Char}

theorem skipDigits_append (all : ∀ c ∈ digits, c.isDigit)
    (ends : ∀ c ∈ rest.head?, c.isDigit = false) : skipDigits (digits ++ rest) = rest := by
  have after := congrArg Prod.snd (Text.span_isDigit all ends)
  rwa [List.span_eq_takeWhile_dropWhile] at after

/-- Digits begin with a digit. -/
theorem IsDigits.exists_cons (isDigits : IsDigits digits) :
    ∃ c others, digits = c :: others ∧ c.isDigit ∧ ∀ d ∈ others, d.isDigit := by
  rcases isDigits with ⟨filled, all⟩
  rcases List.exists_cons_of_ne_nil filled with ⟨c, others, rfl⟩
  exact ⟨c, others, rfl, all c List.mem_cons_self, fun d member =>
    all d (List.mem_cons_of_mem _ member)⟩

theorem skipExponent_append {sign : List Char} (isSign : sign ∈ [[], ['+'], ['-']])
    (isDigits : IsDigits digits) (stops : Stops rest) :
    skipExponent (sign ++ (digits ++ rest)) = .ok rest := by
  rcases isDigits.exists_cons with ⟨c, others, rfl, digit, all⟩
  have notPlus := Text.ne_of_isDigit digit (d := '+') (by decide)
  have notMinus := Text.ne_of_isDigit digit (d := '-') (by decide)
  have after := skipDigits_append all fun c isHead => (stops c isHead).1
  simp only [List.mem_cons, List.not_mem_nil, or_false] at isSign
  rcases isSign with rfl | rfl | rfl <;>
    simp [skipExponent, digit, after, notPlus, notMinus]

/-- What may stand behind the digits of a number, up to its exponent. -/
theorem skipExponent?_append {exponent : List Char} (isExponent : IsExponent exponent)
    (stops : Stops rest) :
    (match exponent ++ rest with
      | 'e' :: rest => skipExponent rest
      | 'E' :: rest => skipExponent rest
      | rest => .ok rest) = Except.ok rest := by
  rcases isExponent with rfl | ⟨letter, isLetter, sign, isSign, digits, isDigits, rfl⟩
  · rw [List.nil_append]
    split
    · exact absurd rfl (stops 'e' rfl).2.2.1
    · exact absurd rfl (stops 'E' rfl).2.2.2
    · rfl
  · have skipped := skipExponent_append isSign isDigits stops
    simp only [List.mem_cons, List.not_mem_nil, or_false] at isLetter
    rcases isLetter with rfl | rfl <;>
      simpa only [List.cons_append, List.append_assoc] using skipped

theorem IsExponent.head? {exponent : List Char} (isExponent : IsExponent exponent)
    (stops : Stops rest) : ∀ c ∈ (exponent ++ rest).head?, c.isDigit = false ∧ c ≠ '.' := by
  rcases isExponent with rfl | ⟨letter, isLetter, sign, isSign, digits, isDigits, rfl⟩
  · exact fun c isHead => ⟨(stops c isHead).1, (stops c isHead).2.1⟩
  · rintro c ⟨⟩
    simp only [List.mem_cons, List.not_mem_nil, or_false] at isLetter
    rcases isLetter with rfl | rfl <;> decide

theorem skipNumberTail_append {fraction exponent : List Char} (isFraction : IsFraction fraction)
    (isExponent : IsExponent exponent) (stops : Stops rest) :
    skipNumberTail (fraction ++ (exponent ++ rest)) = .ok rest := by
  have skipped := skipExponent?_append isExponent stops
  rcases isFraction with rfl | ⟨digits, isDigits, rfl⟩
  · have noPoint := isExponent.head? stops
    rw [List.nil_append]
    generalize exponent ++ rest = later at skipped noPoint
    rw [skipNumberTail.eq_def]
    split
    · exact absurd rfl (noPoint '.' rfl).2
    · exact skipped
    · exact skipped
    · next _ noSmall noLarge =>
        split at skipped
        · exact absurd rfl (noSmall _)
        · exact absurd rfl (noLarge _)
        · exact skipped
  · rcases isDigits.exists_cons with ⟨c, others, rfl, digit, all⟩
    have after := skipDigits_append isDigits.2 fun c isHead => (isExponent.head? stops c isHead).1
    simp only [List.cons_append] at after ⊢
    simp only [skipNumberTail, digit, after]
    exact skipped

theorem Stops.fraction {fraction exponent : List Char} (isFraction : IsFraction fraction)
    (isExponent : IsExponent exponent) (stops : Stops rest) :
    ∀ c ∈ (fraction ++ (exponent ++ rest)).head?, c.isDigit = false := by
  rcases isFraction with rfl | ⟨digits, isDigits, rfl⟩
  · exact fun c isHead => (isExponent.head? stops c isHead).1
  · rintro c ⟨⟩
    decide

/-- The digits of a number, with what follows them, are skipped. -/
theorem skipUnsigned_append {whole fraction exponent : List Char} (isWhole : IsWhole whole)
    (isFraction : IsFraction fraction) (isExponent : IsExponent exponent) (stops : Stops rest) :
    skipUnsigned (whole ++ (fraction ++ (exponent ++ rest))) = .ok rest := by
  have ends := stops.fraction isFraction isExponent
  have tail := skipNumberTail_append isFraction isExponent stops
  generalize fraction ++ (exponent ++ rest) = later at ends tail
  rcases isWhole with rfl | ⟨isDigits, noZero⟩
  · rcases later with _ | ⟨d, later⟩
    · cases tail
      rfl
    · simp [skipUnsigned, ends d rfl, tail]
  · rcases isDigits.exists_cons with ⟨c, others, rfl, digit, all⟩
    have notZero : c ≠ '0' := fun same => noZero (by rw [same]; rfl)
    simp [skipUnsigned, notZero, digit, skipDigits_append all ends, tail]

end

/-! ## Values of any shape -/

theorem IsString.opens {text : List Char} (isString : IsString text) : Opens text := by
  rcases isString with ⟨pieces, -, rfl⟩
  exact ⟨_, _, rfl, by decide, by decide⟩

theorem opens_of_isDigit {c : Char} (digit : c.isDigit) (rest : List Char) : Opens (c :: rest) := by
  have visible : isSpace c = false := by
    have apart {d : Char} (other : d.isDigit = false) : c ≠ d := Text.ne_of_isDigit digit other
    have isSpace : c ≠ ' ' ∧ c ≠ '\n' ∧ c ≠ '\t' ∧ c ≠ '\r' :=
      ⟨apart (by decide), apart (by decide), apart (by decide), apart (by decide)⟩
    simp [Json.isSpace, isSpace]
  exact ⟨c, rest, rfl, visible, Text.ne_of_isDigit digit (by decide)⟩

theorem IsWhole.exists_cons {whole : List Char} (isWhole : IsWhole whole) :
    ∃ c rest, whole = c :: rest ∧ c.isDigit := by
  rcases isWhole with rfl | ⟨isDigits, -⟩
  · exact ⟨'0', [], rfl, by decide⟩
  · rcases isDigits.exists_cons with ⟨c, others, rfl, digit, -⟩
    exact ⟨c, others, rfl, digit⟩

theorem IsNumber.opens {text : List Char} (isNumber : IsNumber text) : Opens text := by
  rcases isNumber with ⟨sign, isSign, whole, fraction, exponent, isWhole, -, -, rfl⟩
  rcases isWhole.exists_cons with ⟨c, rest, rfl, digit⟩
  simp only [List.mem_cons, List.not_mem_nil, or_false] at isSign
  rcases isSign with rfl | rfl
  · exact opens_of_isDigit digit _
  · exact ⟨_, _, rfl, by decide, by decide⟩

theorem IsValue.opens {text : List Char} (value : IsValue text) : Opens text := by
  cases value with
  | number isNumber => exact isNumber.opens
  | string isString => exact isString.opens
  | _ => exact ⟨_, _, rfl, by decide, by decide⟩

/-- The text is skipped up to what follows it. -/
def Skips (text : List Char) : Prop :=
  ∀ (bound : Nat) ⦃before rest : List Char⦄, text.length ≤ bound → IsBlank before → Stops rest →
    skipValueUpTo bound (before ++ (text ++ rest)) = .ok rest

/-- A text is skipped if it is skipped without blanks before it. -/
theorem skips_of_succ {text : List Char} (opens : Opens text)
    (skips : ∀ bound rest, text.length ≤ bound + 1 → Stops rest →
      skipValueUpTo (bound + 1) (text ++ rest) = .ok rest) : Skips text := by
  intro bound before rest enough blank stops
  rcases bound with _ | bound
  · exact absurd (Nat.lt_of_lt_of_le opens.length_pos enough) (Nat.lt_irrefl 0)
  · rw [← skips bound rest enough stops, skipValueUpTo.eq_def, skipValueUpTo.eq_def]
    simp only [skipSpace_append blank]

theorem skipValueUpTo_digit {c : Char} (digit : c.isDigit) (bound : Nat) (rest : List Char) :
    skipValueUpTo (bound + 1) (c :: rest) = skipUnsigned (c :: rest) := by
  have visible := (opens_of_isDigit digit rest).skipSpace []
  rw [List.append_nil] at visible
  rw [skipValueUpTo.eq_def]
  simp only [visible]
  split
  case h_1 same => cases same
  case h_9 same =>
    cases same
    rw [if_pos digit]
  all_goals next same => cases same; cases digit

theorem IsNumber.skips {text : List Char} (isNumber : IsNumber text) : Skips text := by
  apply skips_of_succ isNumber.opens
  intro bound rest _ stops
  rcases isNumber with
    ⟨sign, isSign, whole, fraction, exponent, isWhole, isFraction, isExponent, rfl⟩
  have skipped := skipUnsigned_append isWhole isFraction isExponent stops
  simp only [List.append_assoc]
  simp only [List.mem_cons, List.not_mem_nil, or_false] at isSign
  rcases isSign with rfl | rfl
  · rcases isWhole.exists_cons with ⟨c, later, rfl, digit⟩
    exact (skipValueUpTo_digit digit bound _).trans skipped
  · exact skipped

theorem IsString.skips {text : List Char} (isString : IsString text) : Skips text := by
  apply skips_of_succ isString.opens
  intro bound rest _ _
  rcases skipString_append isString rest with ⟨body, rfl, skipped⟩
  exact skipped

/-- The elements of an array are skipped if every one of them is. -/
theorem skipElementsUpTo_append {items : List (List Char)} {tail : List Char}
    (elements : ElementTexts false items tail) (each : ∀ item ∈ items, Skips item) {bound : Nat}
    {before value : List Char} (skips : Skips value) (blank : IsBlank before)
    (enough : (before ++ (value ++ tail)).length ≤ bound) (rest : List Char) :
    skipElementsUpTo bound (before ++ (value ++ (tail ++ rest))) = .ok rest := by
  have stops := elements.stops rest
  generalize isFirst : false = first at elements
  induction elements generalizing bound before value with
  | @close _ gap blankGap =>
      rcases bound with _ | bound
      · simp at enough
      · have now := skips bound (by simp at enough; omega) blank stops
        rw [skipElementsUpTo, now]
        simp only [bind, Except.bind, List.append_assoc, skipSpace_append blankGap]
        rfl
  | @element _ gap next item text items blankGap blankNext others ih =>
      subst isFirst
      rcases bound with _ | bound
      · simp at enough
      · have now := skips bound (by simp at enough; omega) blank stops
        have room : (next ++ (item ++ text)).length ≤ bound := by simp at enough ⊢; omega
        have later := ih (fun item member => each item (List.mem_cons_of_mem _ member))
          (each item List.mem_cons_self) blankNext room (others.stops rest) rfl
        rw [skipElementsUpTo, now]
        simp only [bind, Except.bind, List.append_assoc, skipSpace_append blankGap]
        exact later

theorem skips_array {items : List (List Char)} {text : List Char}
    (elements : ElementTexts true items text) (each : ∀ item ∈ items, Skips item)
    (opens : ∀ item ∈ items, Opens item) : Skips ('[' :: text) := by
  apply skips_of_succ ⟨_, _, rfl, by decide, by decide⟩
  intro bound rest enough _
  rw [List.cons_append, skipValueUpTo.eq_def]
  simp only [skipSpace_cons (show isSpace '[' = false by decide)]
  cases elements with
  | @close _ gap blank =>
      rw [List.append_assoc, skipSpace_append blank]
      rfl
  | @element _ gap next item text items blank blankNext others =>
      have room : ([] ++ (item ++ text)).length ≤ bound := by simp at enough ⊢; omega
      have skipped := skipElementsUpTo_append others
        (fun item member => each item (List.mem_cons_of_mem _ member))
        (each item List.mem_cons_self) isBlank_nil room rest
      have first := opens item List.mem_cons_self
      have front : skipSpace (gap ++ (comma true ++ (next ++ (item ++ text))) ++ rest) =
          item ++ (text ++ rest) := by
        simp only [comma_true, List.nil_append, List.append_assoc, skipSpace_append blank,
          skipSpace_append blankNext, first.skipSpace]
      rw [front]
      rcases first with ⟨c, later, rfl, -, notEnd⟩
      simp only [List.cons_append]
      split
      · next same => cases same; exact absurd rfl notEnd
      · next same => cases same
      · exact skipped

/-- A colon between blanks is read. -/
theorem readColon_append {after : List Char} (blank : IsBlank after) (rest : List Char) :
    readColon (after ++ ':' :: rest) = .ok rest := by
  rw [readColon, skipSpace_append blank]
  rfl

/-- A member is skipped before what comes next: the brace or, after a comma, the next member. -/
theorem skipMembersUpTo_succ {bound : Nat} {before key after between value rest : List Char}
    (blank : IsBlank before) (isKey : IsString key) (blankAfter : IsBlank after)
    (skipped : skipValueUpTo bound (between ++ (value ++ rest)) = .ok rest) :
    skipMembersUpTo (bound + 1)
        (before ++ (key ++ (after ++ ':' :: (between ++ (value ++ rest))))) =
      match skipSpace rest with
      | ',' :: rest => skipMembersUpTo bound rest
      | '\x7d' :: rest => .ok rest
      | [] => .error (.within .endOfObject [])
      | rest => .error (.within .expectedObjectCommaOrEnd rest) := by
  rcases skipString_append isKey (after ++ ':' :: (between ++ (value ++ rest))) with
    ⟨body, rfl, isSkipped⟩
  rw [skipMembersUpTo, skipSpace_append blank, List.cons_append, skipSpace_cons (by decide)]
  simp only [isSkipped, bind, Except.bind, readColon_append blankAfter, skipped]
  rfl

/-- The members of an object are skipped if every one of their values is. -/
theorem skipMembersUpTo_append {members : List (Unit × List Char)} {tail : List Char}
    (object : MemberTexts (fun _ => IsString) false members tail)
    (each : ∀ member ∈ members, Skips member.2) {bound : Nat}
    {before key after between value : List Char} (blank : IsBlank before) (isKey : IsString key)
    (blankAfter : IsBlank after) (blankBetween : IsBlank between) (skips : Skips value)
    (enough : (before ++ (key ++ (after ++ ':' :: (between ++ (value ++ tail))))).length ≤ bound)
    (rest : List Char) :
    skipMembersUpTo bound
      (before ++ (key ++ (after ++ ':' :: (between ++ (value ++ (tail ++ rest)))))) = .ok rest := by
  have stops := object.stops rest
  generalize isFirst : false = first at object
  induction object generalizing bound before key after between value with
  | @close _ gap blankGap =>
      rcases bound with _ | bound
      · simp at enough
      · have now := skips bound (by simp at enough; omega) blankBetween stops
        rw [skipMembersUpTo_succ blank isKey blankAfter now, List.append_assoc,
          skipSpace_append blankGap]
        rfl
  | @member _ gap next after' between' key' item text name members blankGap blankNext isKey'
      blankAfter' blankBetween' others ih =>
      subst isFirst
      rcases bound with _ | bound
      · simp at enough
      · have now := skips bound (by simp at enough; omega) blankBetween stops
        have room : (next ++ (key' ++ (after' ++ ':' :: (between' ++ (item ++ text))))).length ≤
            bound := by simp at enough ⊢; omega
        have later := ih (fun member there => each member (List.mem_cons_of_mem _ there))
          blankNext isKey' blankAfter' blankBetween' (each (name, item) List.mem_cons_self) room
          (others.stops rest) rfl
        rw [skipMembersUpTo_succ blank isKey blankAfter now]
        simp only [List.append_assoc, List.cons_append, skipSpace_append blankGap]
        exact later

theorem skips_object {members : List (Unit × List Char)} {text : List Char}
    (object : MemberTexts (fun _ => IsString) true members text)
    (each : ∀ member ∈ members, Skips member.2) : Skips ('\x7b' :: text) := by
  apply skips_of_succ ⟨_, _, rfl, by decide, by decide⟩
  intro bound rest enough _
  rw [List.cons_append, skipValueUpTo.eq_def]
  simp only [skipSpace_cons (show isSpace '\x7b' = false by decide)]
  cases object with
  | @close _ gap blank =>
      rw [List.append_assoc, skipSpace_append blank]
      rfl
  | @member _ gap next after between key item text name members blank blankNext isKey blankAfter
      blankBetween others =>
      have room :
          ([] ++ (key ++ (after ++ ':' :: (between ++ (item ++ text))))).length ≤ bound := by
        simp at enough ⊢
        omega
      have skipped := skipMembersUpTo_append others
        (fun member there => each member (List.mem_cons_of_mem _ there)) isBlank_nil isKey
        blankAfter blankBetween (each (name, item) List.mem_cons_self) room rest
      have front : skipSpace (gap ++ (comma true ++ (next ++ (key ++ (after ++ ':' ::
          (between ++ (item ++ text)))))) ++ rest) =
            key ++ (after ++ ':' :: (between ++ (item ++ (text ++ rest)))) := by
        simp only [comma_true, List.nil_append, List.append_assoc, skipSpace_append blank,
          skipSpace_append blankNext, isKey.opens.skipSpace, List.cons_append]
      rw [front]
      rcases skipString_append isKey [] with ⟨body, rfl, -⟩
      exact skipped

/-- A value of any shape is skipped. -/
theorem IsValue.skips {text : List Char} (value : IsValue text) : Skips text := by
  induction value with
  | null | yes | no =>
      apply skips_of_succ ⟨_, _, rfl, by decide, by decide⟩
      intro bound rest _ _
      rfl
  | number isNumber => exact isNumber.skips
  | string isString => exact isString.skips
  | array elements each ih =>
      exact skips_array elements ih fun item member => (each item member).opens
  | object isObject each ih => exact skips_object isObject ih

theorem skipValue_append {text before rest : List Char} (value : IsValue text)
    (blank : IsBlank before) (stops : Stops rest) :
    skipValue (before ++ (text ++ rest)) = .ok rest := by
  refine value.skips _ ?_ blank stops
  simp only [List.length_append]
  omega

end BridgeFinder.Json
