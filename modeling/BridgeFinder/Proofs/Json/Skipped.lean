import BridgeFinder.Proofs.Json.Grammar
import BridgeFinder.Proofs.Number.Decimal
import BridgeFinder.Proofs.Outcome

/-!
# What is skipped

Only what the grammar allows is skipped: whatever is taken off the front of a text is a string, a
number or a value of some shape, behind blanks.
-/

namespace BridgeFinder.Json

/-! ## Blanks and words -/

section

variable {word text rest : List Char}

/-- Nothing but blanks is skipped. -/
theorem exists_skipSpace (text : List Char) :
    ∃ gap, IsBlank gap ∧ text = gap ++ skipSpace text :=
  ⟨text.takeWhile isSpace, fun _ => List.mem_takeWhile_imp,
    List.takeWhile_append_dropWhile.symm⟩

theorem readWord_ok (read : readWord word text = .ok rest) : text = word ++ rest := by
  induction word generalizing text with
  | nil =>
      cases read
      rfl
  | cons w word ih =>
      cases text with
      | nil => cases read
      | cons c text =>
          rw [readWord] at read
          split at read
          · rename_i same
            rw [same, ih read]
            rfl
          · cases read

theorem readColon_ok (read : readColon text = .ok rest) :
    ∃ gap, IsBlank gap ∧ text = gap ++ ':' :: rest := by
  rcases exists_skipSpace text with ⟨gap, blank, split⟩
  rw [readColon] at read
  split at read
  · rename_i front
    cases read
    exact ⟨gap, blank, front ▸ split⟩
  · cases read
  · cases read

end

/-! ## Strings -/

section

variable {text rest : List Char} {unit : Nat}

theorem hexValue?_lt {c : Char} {n : Nat} (value : Text.hexValue? c = some n) : n < 16 := by
  rw [Text.hexValue?] at value
  split at value
  · rename_i digit
    cases value
    have upper := (Char.isDigit_iff_toNat.mp digit).2
    have zero : '0'.toNat = 48 := rfl
    have nine : '9'.toNat = 57 := rfl
    omega
  · split at value
    · rename_i small
      cases value
      have upper : c.toNat ≤ 'f'.toNat := UInt32.le_iff_toNat_le.mp small.2
      have a : 'a'.toNat = 97 := rfl
      have f : 'f'.toNat = 102 := rfl
      omega
    · split at value
      · rename_i capital
        cases value
        have upper : c.toNat ≤ 'F'.toNat := UInt32.le_iff_toNat_le.mp capital.2
        have a : 'A'.toNat = 65 := rfl
        have f : 'F'.toNat = 70 := rfl
        omega
      · cases value

/-- Four digits have been read for the code unit that they write. -/
theorem readCodeUnit_ok (read : readCodeUnit text = .ok (unit, rest)) :
    ∃ digits, IsCodeUnit digits unit ∧ text = digits ++ rest := by
  rw [readCodeUnit.eq_def] at read
  split at read
  · rename_i a b c d later
    split at read
    · rename_i value isValue
      cases read
      refine ⟨[a, b, c, d], ⟨rfl, ?_⟩, rfl⟩
      simp only [codeUnit?, Option.bind_eq_bind, Option.bind_eq_some_iff, Option.pure_def,
        Option.some.injEq] at isValue
      rcases isValue with ⟨i, isI, j, isJ, k, isK, l, isL, rfl⟩
      simp [Text.naturalInBase?, isI, isJ, isK, isL, hexValue?_lt isI, hexValue?_lt isJ,
        hexValue?_lt isK, hexValue?_lt isL]
    · cases read
  · split at read <;> cases read

theorem mem_escapes_of_simpleEscape? {letter c : Char} (known : simpleEscape? letter = some c) :
    (letter, c) ∈ escapes := by
  rw [simpleEscape?.eq_def] at known
  split at known <;> cases known <;> decide

/-- What has been skipped of a string is made of pieces. -/
theorem skipCharsUpTo_ok {bound : Nat} (skipped : skipCharsUpTo bound text = .ok rest) :
    ∃ pieces : List (List Char), (∀ piece ∈ pieces, IsPiece piece) ∧
      text = pieces.flatten ++ '"' :: rest := by
  induction bound generalizing text with
  | zero =>
      cases text <;> cases skipped
  | succ bound ih =>
      have onward {piece later : List Char} (isPiece : IsPiece piece)
          (split : text = piece ++ later) (skipped : skipCharsUpTo bound later = .ok rest) :
          ∃ pieces : List (List Char), (∀ piece ∈ pieces, IsPiece piece) ∧
            text = pieces.flatten ++ '"' :: rest := by
        rcases ih skipped with ⟨pieces, each, rfl⟩
        refine ⟨piece :: pieces, List.forall_mem_cons.mpr ⟨isPiece, each⟩, ?_⟩
        rw [split, List.flatten_cons, List.append_assoc]
      cases text with
      | nil => cases skipped
      | cons c text =>
          rw [skipCharsUpTo.eq_def] at skipped
          simp only at skipped
          split at skipped
          · rename_i quote
            cases skipped
            exact ⟨[], nofun, by rw [quote]; rfl⟩
          · rename_i notQuote
            split at skipped
            · rename_i backslash
              subst backslash
              split at skipped
              · cases skipped
              · split at skipped
                · rename_i unit later read
                  rcases readCodeUnit_ok read with ⟨digits, isUnit, rfl⟩
                  exact onward (.unit isUnit) rfl skipped
                · cases skipped
              · split at skipped
                · rename_i char isChar
                  exact onward (.escaped (mem_escapes_of_simpleEscape? isChar)) rfl skipped
                · cases skipped
            · rename_i notBackslash
              split at skipped
              · cases skipped
              · rename_i visible
                exact onward (.plain ⟨notQuote, notBackslash, Nat.not_lt.mp visible⟩) rfl skipped

theorem skipString_ok (skipped : skipString text = .ok rest) :
    ∃ body, IsString ('"' :: body) ∧ text = body ++ rest := by
  rcases skipCharsUpTo_ok skipped with ⟨pieces, each, rfl⟩
  exact ⟨pieces.flatten ++ ['"'], ⟨pieces, each, rfl⟩, by simp⟩

end

/-! ## Numbers -/

section

variable {text rest : List Char}

theorem exists_skipDigits (text : List Char) :
    ∃ digits, (∀ c ∈ digits, c.isDigit) ∧ text = digits ++ skipDigits text :=
  ⟨text.takeWhile Char.isDigit, fun _ => List.mem_takeWhile_imp,
    List.takeWhile_append_dropWhile.symm⟩

/-- A digit begins a run of digits. -/
theorem exists_isDigits {c : Char} (digit : c.isDigit) (text : List Char) :
    ∃ digits, IsDigits digits ∧ c :: text = digits ++ skipDigits text ∧
      digits.head? = some c := by
  rcases exists_skipDigits text with ⟨digits, all, split⟩
  exact ⟨c :: digits, ⟨List.cons_ne_nil c digits, List.forall_mem_cons.mpr ⟨digit, all⟩⟩,
    congrArg (c :: ·) split, rfl⟩

theorem skipDigits_cons {c : Char} (digit : c.isDigit) (text : List Char) :
    skipDigits (c :: text) = skipDigits text :=
  List.dropWhile_cons_of_pos digit

/-- The text behind a sign, if it begins with one. -/
def afterSign (text : List Char) : List Char :=
  match text with
  | '+' :: rest => rest
  | '-' :: rest => rest
  | text => text

theorem exists_sign (text : List Char) :
    ∃ sign ∈ [[], ['+'], ['-']], text = sign ++ afterSign text := by
  rw [afterSign.eq_def]
  split
  · exact ⟨['+'], by simp, rfl⟩
  · exact ⟨['-'], by simp, rfl⟩
  · exact ⟨[], by simp, rfl⟩

/-- The digits of an exponent are skipped behind its sign. -/
theorem skipExponent_eq (text : List Char) :
    skipExponent text =
      match afterSign text with
      | [] => .error (.before .invalidNumber [])
      | c :: rest =>
          if c.isDigit then .ok (skipDigits rest)
          else .error ⟨.invalidNumber, Text.byteLength (c :: rest) - 1⟩ :=
  rfl

theorem skipExponent_ok (skipped : skipExponent text = .ok rest) :
    ∃ sign ∈ [[], ['+'], ['-']], ∃ digits, IsDigits digits ∧ text = sign ++ (digits ++ rest) := by
  rcases exists_sign text with ⟨sign, isSign, signed⟩
  refine ⟨sign, isSign, ?_⟩
  rw [skipExponent_eq] at skipped
  split at skipped
  · cases skipped
  · rename_i c later front
    rw [front] at signed
    split at skipped
    · rename_i digit
      rcases exists_isDigits digit later with ⟨digits, isDigits, split, -⟩
      cases skipped
      exact ⟨digits, isDigits, signed.trans (congrArg _ split)⟩
    · cases skipped

/-- What has been skipped after the letter of an exponent makes it one. -/
theorem isExponent_of_skipExponent {letter : Char} (isLetter : letter ∈ ['e', 'E'])
    (skipped : skipExponent text = .ok rest) :
    ∃ exponent, IsExponent exponent ∧ letter :: text = exponent ++ rest := by
  rcases skipExponent_ok skipped with ⟨sign, isSign, digits, isDigits, rfl⟩
  exact ⟨_, .inr ⟨letter, isLetter, sign, isSign, digits, isDigits, rfl⟩, by simp⟩

/-- What has been skipped behind the digits of a number may be an exponent. -/
theorem skipExponent?_ok
    (skipped : (match text with
      | 'e' :: rest => skipExponent rest
      | 'E' :: rest => skipExponent rest
      | rest => .ok rest) = Except.ok rest) :
    ∃ exponent, IsExponent exponent ∧ text = exponent ++ rest := by
  split at skipped
  · exact isExponent_of_skipExponent List.mem_cons_self skipped
  · exact isExponent_of_skipExponent (List.mem_cons_of_mem _ List.mem_cons_self) skipped
  · cases skipped
    exact ⟨[], .inl rfl, rfl⟩

theorem skipNumberTail_ok (skipped : skipNumberTail text = .ok rest) :
    ∃ fraction exponent, IsFraction fraction ∧ IsExponent exponent ∧
      text = fraction ++ (exponent ++ rest) := by
  by_cases point : ∃ later, text = '.' :: later
  · rcases point with ⟨later, rfl⟩
    simp only [skipNumberTail] at skipped
    split at skipped
    · rename_i c digits
      split at skipped
      · rename_i digit
        rw [skipDigits_cons digit] at skipped
        rcases exists_isDigits digit digits with ⟨run, isDigits, split, -⟩
        rcases skipExponent?_ok skipped with ⟨exponent, isExponent, last⟩
        refine ⟨'.' :: run, exponent, .inr ⟨run, isDigits, rfl⟩, isExponent, ?_⟩
        rw [split, last]
        rfl
      · cases skipped
    · cases skipped
  · have tail : (match text with
        | 'e' :: rest => skipExponent rest
        | 'E' :: rest => skipExponent rest
        | rest => .ok rest) = Except.ok rest := by
      rw [← skipped, skipNumberTail.eq_def]
      split
      · rfl
      · rfl
      · rename_i noSmall noLarge
        split
        · exact absurd ⟨_, rfl⟩ point
        · exact absurd rfl (noSmall _)
        · exact absurd rfl (noLarge _)
        · rfl
    rcases skipExponent?_ok tail with ⟨exponent, isExponent, last⟩
    exact ⟨[], exponent, .inl rfl, isExponent, last⟩

/-- What has been skipped for the digits of a number makes it one, behind its sign. -/
theorem isNumber_of_skipUnsigned {sign : List Char} (isSign : sign ∈ [[], ['-']])
    (skipped : skipUnsigned text = .ok rest) :
    ∃ number, IsNumber (sign ++ number) ∧ text = number ++ rest := by
  have made {whole later : List Char} (isWhole : IsWhole whole) (split : text = whole ++ later)
      (skipped : skipNumberTail later = .ok rest) :
      ∃ number, IsNumber (sign ++ number) ∧ text = number ++ rest := by
    rcases skipNumberTail_ok skipped with ⟨fraction, exponent, isFraction, isExponent, rfl⟩
    refine ⟨whole ++ (fraction ++ exponent),
      ⟨sign, isSign, whole, fraction, exponent, isWhole, isFraction, isExponent, rfl⟩, ?_⟩
    simp only [split, List.append_assoc]
  rw [skipUnsigned.eq_def] at skipped
  split at skipped
  · cases skipped
  · rename_i c later
    split at skipped
    · rename_i zero
      subst zero
      split at skipped
      · split at skipped
        · cases skipped
        · exact made (.inl rfl) rfl skipped
      · cases skipped
        exact made (.inl rfl) rfl rfl
    · rename_i notZero
      split at skipped
      · rename_i digit
        rcases exists_isDigits digit later with ⟨run, isDigits, split, isHead⟩
        refine made (.inr ⟨isDigits, ?_⟩) split skipped
        rw [isHead]
        exact fun same => notZero (Option.some.inj same)
      · cases skipped

end

/-! ## Values of any shape -/

/-- Whatever is skipped within a number of tokens is a value. -/
def SkipsValues (bound : Nat) : Prop :=
  ∀ ⦃text rest : List Char⦄, skipValueUpTo bound text = .ok rest →
    ∃ before item, IsBlank before ∧ IsValue item ∧ text = before ++ (item ++ rest)

/-- Whatever is skipped of an array, from an element on, is that element and what follows it. -/
def SkipsElements (bound : Nat) : Prop :=
  ∀ ⦃text rest : List Char⦄, skipElementsUpTo bound text = .ok rest →
    ∃ before item items tail, IsBlank before ∧ IsValue item ∧ ElementTexts false items tail ∧
      (∀ item ∈ items, IsValue item) ∧ text = before ++ (item ++ (tail ++ rest))

/-- Whatever is skipped of an object, from a member on, is that member and what follows it. -/
def SkipsMembers (bound : Nat) : Prop :=
  ∀ ⦃text rest : List Char⦄, skipMembersUpTo bound text = .ok rest →
    ∃ before key after between item tail, ∃ members : List (Unit × List Char),
      IsBlank before ∧ IsString key ∧ IsBlank after ∧ IsBlank between ∧ IsValue item ∧
      MemberTexts (fun _ => IsString) false members tail ∧ (∀ member ∈ members, IsValue member.2) ∧
      text = before ++ (key ++ (after ++ ':' :: (between ++ (item ++ (tail ++ rest)))))

section

variable {bound : Nat}

theorem skipsElements_succ (values : SkipsValues bound) (elements : SkipsElements bound) :
    SkipsElements (bound + 1) := by
  intro text rest skipped
  rw [skipElementsUpTo] at skipped
  rcases bind_eq_ok.mp skipped with ⟨after, first, onward⟩
  rcases values first with ⟨before, item, blank, value, rfl⟩
  rcases exists_skipSpace after with ⟨gap, blankGap, split⟩
  split at onward
  · rename_i later front
    rw [front] at split
    rcases elements onward with ⟨before', item', items, tail, blank', value', others, each, rfl⟩
    refine ⟨before, item, item' :: items, _, blank, value, .element blankGap blank' others,
      List.forall_mem_cons.mpr ⟨value', each⟩, ?_⟩
    simp [split]
  · rename_i later front
    rw [front] at split
    cases onward
    refine ⟨before, item, [], _, blank, value, .close blankGap, nofun, ?_⟩
    simp [split]
  · cases onward
  · cases onward

theorem skipsMembers_succ (values : SkipsValues bound) (members : SkipsMembers bound) :
    SkipsMembers (bound + 1) := by
  intro text rest skipped
  rw [skipMembersUpTo] at skipped
  rcases exists_skipSpace text with ⟨before, blank, splitKey⟩
  split at skipped
  · rename_i later front
    rw [front] at splitKey
    rcases bind_eq_ok.mp skipped with ⟨afterKey, keyRead, skipped⟩
    rcases bind_eq_ok.mp skipped with ⟨afterColon, colon, skipped⟩
    rcases bind_eq_ok.mp skipped with ⟨afterValue, value, onward⟩
    rcases skipString_ok keyRead with ⟨body, isKey, rfl⟩
    rcases readColon_ok colon with ⟨after, blankAfter, rfl⟩
    rcases values value with ⟨between, item, blankBetween, isValue, rfl⟩
    rcases exists_skipSpace afterValue with ⟨gap, blankGap, split⟩
    split at onward
    · rename_i next comma
      rw [comma] at split
      rcases members onward with ⟨before', key', after', between', item', tail, others, blank',
        isKey', blankAfter', blankBetween', isValue', object, each, rfl⟩
      refine ⟨before, _, after, between, item, _, ((), item') :: others, blank, isKey, blankAfter,
        blankBetween, isValue,
        .member blankGap blank' isKey' blankAfter' blankBetween' object,
        List.forall_mem_cons.mpr ⟨isValue', each⟩, ?_⟩
      simp [splitKey, split]
    · rename_i next brace
      rw [brace] at split
      cases onward
      refine ⟨before, _, after, between, item, _, [], blank, isKey, blankAfter, blankBetween,
        isValue, .close blankGap, nofun, ?_⟩
      simp [splitKey, split]
    · cases onward
    · cases onward
  · cases skipped
  · cases skipped

/-- What is skipped behind the bracket of an array makes it one. -/
theorem isValue_of_skipElements (elements : SkipsElements bound) {text rest : List Char}
    (skipped : (match skipSpace text with
      | ']' :: rest => .ok rest
      | [] => .error (.within .endOfList [])
      | rest => skipElementsUpTo bound rest) = Except.ok rest) :
    ∃ array, IsValue ('[' :: array) ∧ text = array ++ rest := by
  rcases exists_skipSpace text with ⟨gap, blank, split⟩
  split at skipped
  · rename_i front
    rw [front] at split
    cases skipped
    exact ⟨_, .array (.close blank) nofun, by simp [split]⟩
  · cases skipped
  · rcases elements skipped with ⟨before, item, items, tail, blank', value, others, each, front⟩
    rw [front] at split
    exact ⟨_, .array (.element blank blank' others) (List.forall_mem_cons.mpr ⟨value, each⟩),
      by simp [split]⟩

/-- What is skipped behind the brace of an object makes it one. -/
theorem isValue_of_skipMembers (members : SkipsMembers bound) {text rest : List Char}
    (skipped : (match skipSpace text with
      | '\x7d' :: rest => .ok rest
      | [] => .error (.within .endOfObject [])
      | rest => skipMembersUpTo bound rest) = Except.ok rest) :
    ∃ object, IsValue ('\x7b' :: object) ∧ text = object ++ rest := by
  rcases exists_skipSpace text with ⟨gap, blank, split⟩
  split at skipped
  · rename_i front
    rw [front] at split
    cases skipped
    exact ⟨_, .object (.close blank) nofun, by simp [split]⟩
  · cases skipped
  · rcases members skipped with ⟨before, key, after, between, item, tail, others, blank', isKey,
      blankAfter, blankBetween, value, object, each, front⟩
    rw [front] at split
    have all : ∀ member ∈ ((), item) :: others, IsValue member.2 :=
      List.forall_mem_cons.mpr ⟨value, each⟩
    refine ⟨_, .object (.member blank blank' isKey blankAfter blankBetween object) all, ?_⟩
    simp [split]

theorem skipsValues_succ (elements : SkipsElements bound) (members : SkipsMembers bound) :
    SkipsValues (bound + 1) := by
  intro text rest skipped
  rcases exists_skipSpace text with ⟨before, blank, split⟩
  have made {item : List Char} (value : IsValue item) (front : skipSpace text = item ++ rest) :
      ∃ before item, IsBlank before ∧ IsValue item ∧ text = before ++ (item ++ rest) :=
    ⟨before, item, blank, value, front ▸ split⟩
  rw [skipValueUpTo] at skipped
  split at skipped
  · cases skipped
  · rename_i front
    rw [readWord_ok skipped] at front
    exact made .null front
  · rename_i front
    rw [readWord_ok skipped] at front
    exact made .yes front
  · rename_i front
    rw [readWord_ok skipped] at front
    exact made .no front
  · rename_i front
    rcases isNumber_of_skipUnsigned (List.mem_cons_of_mem _ List.mem_cons_self) skipped with
      ⟨number, isNumber, rfl⟩
    exact made (.number isNumber) front
  · rename_i front
    rcases skipString_ok skipped with ⟨body, isString, rfl⟩
    exact made (.string isString) front
  · rename_i front
    rcases isValue_of_skipElements elements skipped with ⟨array, value, rfl⟩
    exact made value front
  · rename_i front
    rcases isValue_of_skipMembers members skipped with ⟨object, value, rfl⟩
    exact made value front
  · rename_i front
    split at skipped
    · rcases isNumber_of_skipUnsigned List.mem_cons_self skipped with ⟨number, isNumber, same⟩
      rw [same] at front
      exact made (.number isNumber) front
    · cases skipped

end

theorem skips_bound (bound : Nat) :
    SkipsValues bound ∧ SkipsElements bound ∧ SkipsMembers bound := by
  induction bound with
  | zero =>
      refine ⟨?_, ?_, ?_⟩ <;> intro text rest skipped <;> cases skipped
  | succ bound ih =>
      rcases ih with ⟨values, elements, members⟩
      exact ⟨skipsValues_succ elements members, skipsElements_succ values elements,
        skipsMembers_succ values members⟩

/-- Only values are skipped. -/
theorem skipValue_ok {text rest : List Char} (skipped : skipValue text = .ok rest) :
    ∃ before item, IsBlank before ∧ IsValue item ∧ text = before ++ (item ++ rest) :=
  (skips_bound _).1 skipped

end BridgeFinder.Json
