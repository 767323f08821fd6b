import BridgeFinder.Number.Decimal
import Mathlib.Data.List.TakeDrop
import Mathlib.Data.List.TakeWhile

/-!
# Decimal integers

A run of digits is read as a natural number, and with a sign as an integer.  Those of 64 bits are
read exactly; any other one is still a decimal, and read as the nearest double.

A natural number is printed as its numeral: its decimal digits, with no sign and no zero in front of
other digits.  Reading a numeral gives the number back, so different numbers are printed
differently.
-/

namespace BridgeFinder

namespace Text

/-! ## Digits -/

theorem digitValue?_eq_some {c : Char} {n : Nat} (read : digitValue? c = some n) : c.isDigit := by
  rw [digitValue?] at read
  split at read
  · assumption
  · cases read

/-- Whatever is read as a natural number consists of digits. -/
theorem isDigit_of_natural? {digits : List Char} {n : Nat} (read : natural? digits = some n) :
    digits ≠ [] ∧ ∀ c ∈ digits, c.isDigit := by
  have all (digits : List Char) : ∀ {start n : Nat},
      (digits.foldlM (fun value c => (digitValue? c).map (value * 10 + ·)) start) = some n →
        ∀ c ∈ digits, c.isDigit := by
    induction digits with
    | nil => exact fun _ _ member => nomatch member
    | cons digit digits ih =>
        intro start n read c member
        rw [List.foldlM_cons, Option.bind_eq_bind, Option.bind_eq_some_iff] at read
        rcases read with ⟨middle, first, later⟩
        rcases Option.map_eq_some_iff.mp first with ⟨value, isValue, -⟩
        rcases List.mem_cons.mp member with rfl | there
        · exact digitValue?_eq_some isValue
        · exact ih later c there
  rw [natural?] at read
  split at read
  · cases read
  · next filled => exact ⟨by simpa using filled, all digits read⟩

/-- A run of digits ends before the first character that is none. -/
theorem span_isDigit {digits rest : List Char} (all : ∀ c ∈ digits, c.isDigit)
    (ends : ∀ c ∈ rest.head?, c.isDigit = false) :
    (digits ++ rest).span Char.isDigit = (digits, rest) := by
  have none : rest.takeWhile Char.isDigit = [] ∧ rest.dropWhile Char.isDigit = rest := by
    rcases rest with _ | ⟨c, rest⟩
    · exact ⟨rfl, rfl⟩
    · simp [ends c rfl]
  rw [List.span_eq_takeWhile_dropWhile, List.takeWhile_append_of_pos all,
    List.dropWhile_append_of_pos all, none.1, none.2, List.append_nil]

theorem ne_of_isDigit {c d : Char} (digit : c.isDigit) (other : d.isDigit = false) : c ≠ d := by
  rintro rfl
  rw [digit] at other
  cases other

theorem toLower_of_isDigit {c : Char} (digit : c.isDigit) : c.toLower = c := by
  simp only [Char.isDigit, Bool.and_eq_true, decide_eq_true_eq, UInt32.le_iff_toNat_le] at digit
  have upper : ¬(c.val ≥ 'A'.val ∧ c.val ≤ 'Z'.val) := by
    rintro ⟨above, -⟩
    rw [ge_iff_le, UInt32.le_iff_toNat_le] at above
    exact absurd (Nat.le_trans above digit.2) (by decide)
  exact dif_neg upper

/-! ## Printed numbers -/

/-- The text is a numeral of the number: nothing but digits, and no zero in front of others. -/
structure IsNumeral (n : Nat) (text : String) : Prop where
  value : natural? text.toList = some n
  short : ∀ rest, text.toList = '0' :: rest → rest = []

/-- Digits are read as the number that they write. -/
theorem natural?_of_isDigit {digits : List Char} (filled : digits ≠ [])
    (all : ∀ c ∈ digits, c.isDigit) : natural? digits = some (Nat.ofDigitChars 10 digits 0) := by
  have onward (digits : List Char) : ∀ {start : Nat}, (∀ c ∈ digits, c.isDigit) →
      digits.foldlM (fun value c => (digitValue? c).map (value * 10 + ·)) start =
        some (Nat.ofDigitChars 10 digits start) := by
    induction digits with
    | nil => exact fun _ => rfl
    | cons digit digits ih =>
        intro start all
        rw [List.forall_mem_cons] at all
        rw [List.foldlM_cons, digitValue?, if_pos all.1, Nat.ofDigitChars_cons, Nat.mul_comm 10]
        exact ih all.2
  rw [natural?, if_neg (by simpa using filled)]
  exact onward digits all

/-- A number that is not zero does not begin with a zero. -/
theorem head?_toDigits {n : Nat} (positive : 0 < n) : (Nat.toDigits 10 n).head? ≠ some '0' := by
  induction n using Nat.strongRecOn with
  | ind n ih =>
      by_cases small : n < 10
      · rw [Nat.toDigits_of_lt_base small]
        have each : ∀ k : Fin 10, 0 < k.val → k.val.digitChar ≠ '0' := by decide
        simpa using each ⟨n, small⟩ positive
      · have tens := ih (n / 10) (by omega) (by omega)
        rw [Nat.toDigits_of_base_le (by decide) (by omega)]
        rcases List.exists_cons_of_ne_nil (Nat.toDigits_ne_nil (b := 10) (n := n / 10)) with
          ⟨c, others, same⟩
        rw [same] at tens ⊢
        exact tens

theorem toList_toString (n : Nat) : (toString n).toList = Nat.toDigits 10 n := by
  rw [Nat.toString_eq_ofList_toDigits, String.toList_ofList]

theorem isDigit_of_mem_toString {n : Nat} {c : Char} (member : c ∈ (toString n).toList) :
    c.isDigit := by
  rw [toList_toString] at member
  exact Nat.isDigit_of_mem_toDigits (by decide) (by decide) member

/-- A printed number is read back. -/
theorem natural?_toString (n : Nat) : natural? (toString n).toList = some n := by
  have filled : (toString n).toList ≠ [] := by
    rw [toList_toString]
    exact Nat.toDigits_ne_nil
  rw [natural?_of_isDigit filled fun c => isDigit_of_mem_toString, toList_toString,
    Nat.ofDigitChars_toDigits (by decide) (by decide)]

/-- A number is printed as its numeral. -/
theorem isNumeral_toString (n : Nat) : IsNumeral n (toString n) where
  value := natural?_toString n
  short := by
    intro rest same
    rw [toList_toString] at same
    rcases Nat.eq_zero_or_pos n with rfl | positive
    · rw [Nat.toDigits_zero] at same
      exact (List.cons.inj same).2.symm
    · exact absurd (congrArg List.head? same) (head?_toDigits positive)

/-- Different numbers are printed differently. -/
theorem toString_inj {m n : Nat} : toString m = toString n ↔ m = n := by
  constructor
  · intro same
    have read := natural?_toString m
    rw [same, natural?_toString] at read
    exact (Option.some.inj read).symm
  · exact congrArg toString

end Text

namespace Number

/-! ## Integers with a sign -/

/-- A text without a sign at its front is left as it is. -/
theorem takeSign_of_unsigned {text : List Char}
    (unsigned : ∀ c ∈ text.head?, c ≠ '-' ∧ c ≠ '+') :
    Binary64.takeSign text = (false, text) := by
  rw [Binary64.takeSign.eq_def]
  split
  · exact absurd rfl (unsigned '-' rfl).1
  · exact absurd rfl (unsigned '+' rfl).2
  · rfl

theorem takeSign_of_isDigit {c : Char} (digit : c.isDigit) (rest : List Char) :
    Binary64.takeSign (c :: rest) = (false, c :: rest) := by
  apply takeSign_of_unsigned
  rintro d ⟨⟩
  exact ⟨Text.ne_of_isDigit digit (by decide), Text.ne_of_isDigit digit (by decide)⟩

/-- Digits begin with no sign. -/
theorem takeSign_of_natural? {digits : List Char} {n : Nat}
    (read : Text.natural? digits = some n) : Binary64.takeSign digits = (false, digits) := by
  have run := Text.isDigit_of_natural? read
  rcases List.exists_cons_of_ne_nil run.1 with ⟨c, rest, rfl⟩
  exact takeSign_of_isDigit (run.2 c List.mem_cons_self) rest

theorem mem_of_mem_takeSign {text : List Char} {c : Char}
    (member : c ∈ (Binary64.takeSign text).2) : c ∈ text := by
  rw [Binary64.takeSign.eq_def] at member
  split at member
  · exact List.mem_cons_of_mem _ member
  · exact List.mem_cons_of_mem _ member
  · exact member

/-- Read a decimal integer of any size, with a sign perhaps. -/
def decimal? (text : List Char) : Option Int :=
  (Text.natural? (Binary64.takeSign text).2).map fun n : Nat =>
    if (Binary64.takeSign text).1 then -(n : Int) else n

/-- The integer is one of 64 bits with a sign. -/
def Fits64 (n : Int) : Prop :=
  -(powerOfTwo 63 : Int) ≤ n ∧ n < powerOfTwo 63

instance (n : Int) : Decidable (Fits64 n) :=
  inferInstanceAs (Decidable (_ ∧ _))

/-- Only the integers of 64 bits are read as such. -/
theorem integer?_eq_filter (text : List Char) :
    integer? text = (decimal? text).filter fun n => Fits64 n := by
  rcases sign : Binary64.takeSign text with ⟨negative, digits⟩
  rcases read : Text.natural? digits with _ | n
  · simp [integer?, decimal?, sign, read]
  · have signed : decimal? text = some (if negative then -(n : Int) else n) := by
      simp [decimal?, sign, read]
    have small : integer? text =
        if negative then if n ≤ powerOfTwo 63 then some (-(n : Int)) else none
        else if n < powerOfTwo 63 then some n else none := by
      simp [integer?, sign, read]
    rw [signed, small, Option.filter_some]
    have inside : Fits64 (if negative then -(n : Int) else n) ↔
        if negative then n ≤ powerOfTwo 63 else n < powerOfTwo 63 := by
      have large : 0 < powerOfTwo 63 := by decide
      cases negative <;> simp only [Fits64, Bool.false_eq_true, if_true, if_false] <;> omega
    cases negative <;> simp only [Bool.false_eq_true, if_true, if_false] at inside ⊢ <;>
      simp [inside]

theorem integer?_of_fits64 {text : List Char} {n : Int} (read : decimal? text = some n)
    (fits : Fits64 n) : integer? text = some n := by
  rw [integer?_eq_filter, read, Option.filter_some, if_pos (decide_eq_true fits)]

theorem integer?_of_not_fits64 {text : List Char} {n : Int} (read : decimal? text = some n)
    (large : ¬ Fits64 n) : integer? text = none := by
  rw [integer?_eq_filter, read, Option.filter_some, if_neg (by simpa using large)]

theorem decimal?_of_integer? {text : List Char} {n : Int} (read : integer? text = some n) :
    decimal? text = some n ∧ Fits64 n := by
  simpa [integer?_eq_filter] using read

/-- A decimal integer that is read as a natural number, after a plus sign perhaps, is that
number. -/
theorem eq_of_natural? {text : List Char} {n : Int} {k : Nat} (read : decimal? text = some n)
    (natural : Text.natural? (if text.head? = some '+' then text.drop 1 else text) = some k) :
    n = k := by
  rcases Option.map_eq_some_iff.mp read with ⟨m, digits, rfl⟩
  rw [Binary64.takeSign.eq_def] at digits ⊢
  split at digits
  · next rest =>
      have minus := (Text.isDigit_of_natural? natural).2 '-' (by simp)
      exact absurd minus (by decide)
  · next rest =>
      cases natural.symm.trans digits
      rfl
  · next other =>
      have unsigned : text.head? ≠ some '+' := by
        rcases text with _ | ⟨c, rest⟩
        · simp
        · rintro ⟨⟩
          exact other rest rfl
      rw [if_neg unsigned] at natural
      cases natural.symm.trans digits
      rfl

/-- The text begins with a sign or a digit. -/
def BeginsLikeNumber (text : List Char) : Prop :=
  ∃ c rest, text = c :: rest ∧ (c = '-' ∨ c = '+' ∨ c.isDigit)

theorem beginsLikeNumber_of_decimal? {text : List Char} {n : Int}
    (read : decimal? text = some n) : BeginsLikeNumber text := by
  rcases Option.map_eq_some_iff.mp read with ⟨k, digits, -⟩
  have filled := Text.isDigit_of_natural? digits
  rw [Binary64.takeSign.eq_def] at filled
  split at filled
  · exact ⟨_, _, rfl, .inl rfl⟩
  · exact ⟨_, _, rfl, .inr (.inl rfl)⟩
  · rcases text with _ | ⟨c, rest⟩
    · exact absurd rfl filled.1
    · exact ⟨c, rest, rfl, .inr (.inr (filled.2 c List.mem_cons_self))⟩

/-- A text that begins with a sign or a digit is no word, in whatever case. -/
theorem BeginsLikeNumber.lower_ne {text : List Char} (begins : BeginsLikeNumber text)
    {first : Char} (letter : 'a' ≤ first) (word : List Char) :
    text.map Char.toLower ≠ first :: word := by
  rcases begins with ⟨c, rest, rfl, kind⟩
  intro same
  have lowered : c.toLower = first := (List.cons.inj same).1
  rcases kind with rfl | rfl | digit
  · subst lowered; exact absurd letter (by decide)
  · subst lowered; exact absurd letter (by decide)
  · rw [Text.toLower_of_isDigit digit] at lowered
    subst lowered
    simp only [Char.isDigit, Bool.and_eq_true, decide_eq_true_eq] at digit
    exact absurd (UInt32.le_trans letter digit.2) (by decide)

theorem BeginsLikeNumber.ne_nil {text : List Char} (begins : BeginsLikeNumber text) :
    text ≠ [] := by
  rcases begins with ⟨c, rest, rfl, -⟩
  exact List.cons_ne_nil c rest

theorem BeginsLikeNumber.ne_cons {text : List Char} (begins : BeginsLikeNumber text) {first : Char}
    (other : first ≠ '-' ∧ first ≠ '+' ∧ first.isDigit = false) (word : List Char) :
    text ≠ first :: word := by
  rcases begins with ⟨c, rest, rfl, kind⟩
  intro same
  rw [(List.cons.inj same).1] at kind
  rcases kind with minus | plus | digit
  · exact other.1 minus
  · exact other.2.1 plus
  · rw [other.2.2] at digit; cases digit

/-- Digits after a sign perhaps are read as a double by rounding them. -/
theorem ofText?_of_natural? {text : List Char} {n : Nat}
    (read : Text.natural? (Binary64.takeSign text).2 = some n) :
    Binary64.ofText? text = some (Binary64.ofDecimal (Binary64.takeSign text).1 n 0) := by
  rcases sign : Binary64.takeSign text with ⟨negative, digits⟩
  rw [sign] at read
  have run := Text.isDigit_of_natural? read
  have whole : digits.span Char.isDigit = (digits, []) := by
    have ends : ∀ c ∈ ([] : List Char).head?, c.isDigit = false := nofun
    simpa using Text.span_isDigit run.2 ends
  simp only [Binary64.ofText?, sign, whole, List.append_nil, Binary64.digitsValue, read,
    Option.getD_some, Binary64.exponent?]
  simp [run.1]

/-- A decimal integer is read as a double by rounding it. -/
theorem ofTextOrWord?_of_decimal? {text : List Char} {n : Int} (read : decimal? text = some n)
    (nonzero : n ≠ 0) :
    Binary64.ofTextOrWord? text = some (Binary64.ofDecimal (n < 0) n.natAbs 0) := by
  rcases Option.map_eq_some_iff.mp read with ⟨k, isNatural, rfl⟩
  have decimal := ofText?_of_natural? isNatural
  rcases sign : Binary64.takeSign text with ⟨negative, digits⟩
  simp only [sign] at isNatural nonzero decimal ⊢
  have run := Text.isDigit_of_natural? isNatural
  have lowered : digits.map Char.toLower = digits :=
    (List.map_congr_left fun c member => Text.toLower_of_isDigit (run.2 c member)).trans
      (List.map_id digits)
  have word (c : Char) (rest : List Char) (letter : c.isDigit = false)
      (same : String.ofList digits = String.ofList (c :: rest)) : False := by
    have digit := run.2 c (String.ofList_injective same ▸ List.mem_cons_self)
    exact absurd digit (by simp [letter])
  simp only [Binary64.ofTextOrWord?, sign, lowered]
  split
  · next same => exact (word 'i' ['n', 'f'] rfl same).elim
  · next same => exact (word 'i' "nfinity".toList rfl same).elim
  · next same => exact (word 'n' ['a', 'n'] rfl same).elim
  · rw [decimal]
    cases negative
    · simp [Int.not_lt.mpr (Int.natCast_nonneg k)]
    · have positive : 0 < k := by simpa [Nat.pos_iff_ne_zero] using nonzero
      simp [positive]

end Number

end BridgeFinder
