import BridgeFinder.Layered.File
import BridgeFinder.Proofs.Net.Ipv4
import BridgeFinder.Proofs.Number.Decimal
import BridgeFinder.Proofs.Number.Rounding

/-!
# What texts stand for in the sources

A variable of the environment and a plain scalar of a file are looked at in much the same way.  A
decimal integer of 64 bits is an integer and any other one a double, while the text of an address
is neither.
-/

namespace BridgeFinder

namespace Net.Ipv4

/-- A field that is not the last one ends at a point. -/
theorem exists_of_fieldsOf_eq {text field next : List Char} {fields : List (List Char)}
    (split : fieldsOf text = field :: next :: fields) :
    ∃ rest, text = field ++ '.' :: rest ∧ fieldsOf rest = next :: fields := by
  induction text generalizing field with
  | nil => simp [fieldsOf] at split
  | cons c text ih =>
      rw [fieldsOf] at split
      split at split
      · next point =>
          rcases List.cons.inj split with ⟨rfl, rest⟩
          exact ⟨text, by rw [point]; rfl, rest⟩
      · rcases List.cons.inj split with ⟨rfl, rest⟩
        rcases fields' : fieldsOf text with _ | ⟨first, others⟩ <;> rw [fields'] at rest
        · cases rest
        · rcases ih (fields'.trans (congrArg _ rest)) with ⟨after, rfl, later⟩
          exact ⟨after, by simp, later⟩

theorem isDigit_of_octet? {digits : List Char} {n : Nat} (read : octet? digits = some n) :
    digits ≠ [] ∧ ∀ c ∈ digits, c.isDigit := by
  rw [octet?] at read
  split at read
  · cases read
  · split at read
    · cases read
    · split at read
      · next found => exact Text.isDigit_of_natural? found
      · cases read

/-- The text of an address has a point between two runs of digits, and another one after them. -/
theorem exists_of_parse? {text : String} {address : Ipv4} (read : parse? text = some address) :
    ∃ first second rest, text.toList = first ++ '.' :: (second ++ '.' :: rest) ∧
      (first ≠ [] ∧ ∀ c ∈ first, c.isDigit) ∧ (second ≠ [] ∧ ∀ c ∈ second, c.isDigit) := by
  rw [parse?] at read
  split at read
  · next a b c d octets =>
      rcases fields : fieldsOf text.toList with _ | ⟨first, _ | ⟨second, _ | ⟨third, others⟩⟩⟩ <;>
        rw [fields] at octets <;> simp only [List.map_cons, List.map_nil, List.cons.injEq,
          reduceCtorEq, and_false] at octets
      rcases exists_of_fieldsOf_eq fields with ⟨after, here, later⟩
      rcases exists_of_fieldsOf_eq later with ⟨rest, there, -⟩
      exact ⟨first, second, rest, there ▸ here, isDigit_of_octet? octets.1,
        isDigit_of_octet? octets.2.1⟩
  · cases read

end Net.Ipv4

namespace Layered

open Number (BeginsLikeNumber Binary64 Fits64 decimal?)

/-- A text that begins like a number is not looked at as a word. -/
theorem lower_ne_of_beginsLikeNumber {text : String} (begins : BeginsLikeNumber text.toList)
    (first : Char) (letter : 'a' ≤ first) (word : List Char) :
    Text.lower text ≠ String.ofList (first :: word) :=
  fun same => begins.lower_ne letter word (String.ofList_injective same)

theorem variableValue_eq {text : String} (begins : BeginsLikeNumber text.toList) :
    variableValue text =
      match Number.integer? text.toList with
      | some n => .integer n
      | none =>
          match Binary64.ofTextOrWord? text.toList with
          | some value => .float value
          | none => .string text := by
  rw [variableValue]
  split
  · next same =>
      exact absurd same (lower_ne_of_beginsLikeNumber begins 't' (by decide) "rue".toList)
  · next same =>
      exact absurd same (lower_ne_of_beginsLikeNumber begins 'f' (by decide) "alse".toList)
  · rfl

/-- A decimal integer is an integer if it is one of 64 bits, and otherwise the nearest double. -/
def ofDecimal (n : Int) : Found :=
  if Fits64 n then .integer n else .float (Binary64.ofDecimal (n < 0) n.natAbs 0)

theorem ne_zero_of_not_fits64 {n : Int} (large : ¬ Fits64 n) : n ≠ 0 := by
  rintro rfl
  exact large (by decide)

/-- A variable that gives a decimal integer. -/
theorem variableValue_of_decimal? {text : String} {n : Int}
    (read : decimal? text.toList = some n) : variableValue text = ofDecimal n := by
  rw [variableValue_eq (Number.beginsLikeNumber_of_decimal? read), ofDecimal]
  by_cases fits : Fits64 n
  · rw [Number.integer?_of_fits64 read fits, if_pos fits]
  · rw [Number.integer?_of_not_fits64 read fits, if_neg fits,
      Number.ofTextOrWord?_of_decimal? read (ne_zero_of_not_fits64 fits)]

/-- A text that is neither a boolean nor a number. -/
def IsWording (text : String) : Prop :=
  Text.lower text ≠ "true" ∧ Text.lower text ≠ "false" ∧ decimal? text.toList = none ∧
    Binary64.ofTextOrWord? text.toList = none

instance (text : String) : Decidable (IsWording text) :=
  inferInstanceAs (Decidable (_ ∧ _ ∧ _ ∧ _))

/-- A variable that gives a text. -/
theorem variableValue_of_isWording {text : String} (wording : IsWording text) :
    variableValue text = .string text := by
  rcases wording with ⟨yes, no, integer, float⟩
  rw [variableValue]
  split
  · next same => exact absurd same yes
  · next same => exact absurd same no
  · rw [Number.integer?_eq_filter, integer, float]
    rfl

/-- The text of an address begins like a number, but it is none. -/
theorem not_number_of_parse? {text : String} {address : Net.Ipv4}
    (read : Net.Ipv4.parse? text = some address) :
    BeginsLikeNumber text.toList ∧ decimal? text.toList = none ∧
      Binary64.ofText? text.toList = none ∧ Binary64.ofTextOrWord? text.toList = none := by
  rcases Net.Ipv4.exists_of_parse? read with ⟨first, second, rest, same, one, two⟩
  generalize text.toList = text at same
  rcases first with _ | ⟨c, first⟩
  · exact absurd rfl one.1
  have digit : c.isDigit := one.2 c List.mem_cons_self
  have begins : BeginsLikeNumber text := ⟨c, _, same, .inr (.inr digit)⟩
  have unsigned : Binary64.takeSign text = (false, text) :=
    same ▸ Number.takeSign_of_isDigit digit _
  have point : ('.').isDigit = false := rfl
  have whole : text.span Char.isDigit = (c :: first, '.' :: (second ++ '.' :: rest)) :=
    same ▸ Text.span_isDigit one.2 (by simp [point])
  have part : (second ++ '.' :: rest).span Char.isDigit = (second, '.' :: rest) :=
    Text.span_isDigit two.2 (by simp [point])
  have decimal : Binary64.ofText? text = none := by
    simp only [Binary64.ofText?, unsigned, whole, part, Binary64.exponent?]
    simp
  have word (letter : Char) (small : 'a' ≤ letter) (others : List Char)
      (named : String.ofList (text.map Char.toLower) = String.ofList (letter :: others)) :
      False :=
    begins.lower_ne small others (String.ofList_injective named)
  refine ⟨begins, ?_, decimal, ?_⟩
  · rw [decimal?, unsigned, Option.map_eq_none_iff]
    rcases natural : Text.natural? text with _ | n
    · rfl
    · have digit := (Text.isDigit_of_natural? natural).2 '.' (by rw [same]; simp)
      exact absurd digit (by simp [point])
  · rw [Binary64.ofTextOrWord?, unsigned]
    simp only
    split
    · next named => exact (word 'i' (by decide) ['n', 'f'] named).elim
    · next named => exact (word 'i' (by decide) "nfinity".toList named).elim
    · next named => exact (word 'n' (by decide) ['a', 'n'] named).elim
    · exact decimal

/-- A variable that gives an address. -/
theorem variableValue_of_parse? {text : String} {address : Net.Ipv4}
    (read : Net.Ipv4.parse? text = some address) : variableValue text = .string text := by
  rcases not_number_of_parse? read with ⟨begins, integer, -, float⟩
  rw [variableValue_eq begins, Number.integer?_eq_filter, integer, float]
  rfl

/-! ## Numerals of files -/

/-- A decimal integer bears no mark of a base. -/
theorem markedInteger?_of_decimal? {text : List Char} {n : Int} (read : decimal? text = some n) :
    markedInteger? text = none ∨ markedInteger? text = Number.integer? text := by
  rcases Option.map_eq_some_iff.mp read with ⟨k, natural, -⟩
  have run := Text.isDigit_of_natural? natural
  rw [markedInteger?.eq_def]
  split
  · exact absurd (run.2 'x' (by simp [Binary64.takeSign])) (by decide)
  · exact absurd (run.2 'o' (by simp [Binary64.takeSign])) (by decide)
  · next digits =>
      have unsigned : Binary64.takeSign digits = (false, digits) :=
        Number.takeSign_of_natural? natural
      right
      rw [Number.integer?, Number.integer?, unsigned]
      rfl
  · exact .inl rfl

/-- A plain scalar that begins like a number and bears no mark of a base is none of the words. -/
theorem plainMeaning_eq {text : List Char} (begins : BeginsLikeNumber text)
    (unmarked : markedInteger? text = none) :
    plainMeaning text =
      match Number.integer? text with
      | some n => .value (.integer n)
      | none => if isReal text then .real text else .value (.string (String.ofList text)) := by
  have word (first : Char) (other : first ≠ '-' ∧ first ≠ '+' ∧ first.isDigit = false)
      (rest : List Char) (same : String.ofList text = String.ofList (first :: rest)) : False :=
    begins.ne_cons other rest (String.ofList_injective same)
  simp only [plainMeaning, unmarked]
  split
  · next same => exact (begins.ne_nil (String.ofList_injective same)).elim
  · next same => exact (word '~' (by decide) [] same).elim
  · next same => exact (word 'n' (by decide) "ull".toList same).elim
  · next same => exact (word 't' (by decide) "rue".toList same).elim
  · next same => exact (word 'f' (by decide) "alse".toList same).elim
  · rfl

/-- A plain scalar that is a decimal integer. -/
theorem plainMeaning_of_decimal? {text : List Char} {n : Int} (read : decimal? text = some n) :
    plainMeaning text = if Fits64 n then .value (.integer n) else .real text := by
  rcases Option.map_eq_some_iff.mp read with ⟨k, natural, -⟩
  have real : isReal text = true := by
    have run := Text.isDigit_of_natural? natural
    obtain ⟨c, rest, digits⟩ := List.exists_cons_of_ne_nil run.1
    have member : c ∈ (Binary64.takeSign text).2 := digits ▸ List.mem_cons_self
    have digit : text.any Char.isDigit = true :=
      List.any_eq_true.mpr ⟨c, Number.mem_of_mem_takeSign member, run.2 c member⟩
    simp [isReal, digit, Number.ofText?_of_natural? natural]
  have plain : plainMeaning text =
      match Number.integer? text with
      | some n => .value (.integer n)
      | none => .real text := by
    rcases isMarked : markedInteger? text with _ | m
    · rw [plainMeaning_eq (Number.beginsLikeNumber_of_decimal? read) isMarked, if_pos real]
    · rcases markedInteger?_of_decimal? read with none | same
      · cases isMarked.symm.trans none
      · rw [plainMeaning, ← same, isMarked]
  rw [plain]
  by_cases fits : Fits64 n
  · rw [if_pos fits, Number.integer?_of_fits64 read fits]
  · rw [if_neg fits, Number.integer?_of_not_fits64 read fits]

/-- A plain scalar that is the text of an address. -/
theorem plainMeaning_of_parse? {text : String} {address : Net.Ipv4}
    (read : Net.Ipv4.parse? text = some address) :
    plainMeaning text.toList = .value (.string text) := by
  rcases not_number_of_parse? read with ⟨begins, integer, decimal, -⟩
  rcases Net.Ipv4.exists_of_parse? read with ⟨first, second, rest, same, one, -⟩
  rcases first with _ | ⟨c, first⟩
  · exact absurd rfl one.1
  have digit : c.isDigit := one.2 c List.mem_cons_self
  have unmarked : markedInteger? text.toList = none := by
    have second (d : Char) (letter : d ≠ '.' ∧ d.isDigit = false) (others : List Char) :
        text.toList ≠ '0' :: d :: others := by
      rw [same]
      intro eq
      rcases first with _ | ⟨e, first⟩
      · exact letter.1 (List.cons.inj (List.cons.inj eq).2).1.symm
      · have isDigit := one.2 e (List.mem_cons_of_mem _ List.mem_cons_self)
        rw [(List.cons.inj (List.cons.inj eq).2).1, letter.2] at isDigit
        cases isDigit
    rw [markedInteger?.eq_def]
    split
    · next eq => exact absurd eq (second 'x' (by decide) _)
    · next eq => exact absurd eq (second 'o' (by decide) _)
    · next eq =>
        rw [same] at eq
        rw [(List.cons.inj eq).1] at digit
        exact absurd digit (by decide)
    · rfl
  have real : isReal text.toList = false := by
    have words : ∀ word ∈ [".inf", ".Inf", ".INF", "+.inf", "+.Inf", "+.INF", "-.inf", "-.Inf",
        "-.INF", ".nan", "NaN", ".NAN"], (word.toList.head?.all fun c => !c.isDigit) = true := by
      decide
    have noWord : String.ofList text.toList ∉ [".inf", ".Inf", ".INF", "+.inf", "+.Inf", "+.INF",
        "-.inf", "-.Inf", "-.INF", ".nan", "NaN", ".NAN"] := by
      intro member
      have other := words _ member
      rw [String.toList_ofList, same] at other
      simp [digit] at other
    simp only [isReal, decimal, Option.isSome_none, Bool.and_false, Bool.or_false]
    simpa using noWord
  rw [plainMeaning_eq begins unmarked, Number.integer?_eq_filter, integer, real,
    String.ofList_toList]
  rfl

end Layered

end BridgeFinder
