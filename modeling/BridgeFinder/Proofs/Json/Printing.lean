import BridgeFinder.Json.Value
import BridgeFinder.Proofs.Json.Grammar
import BridgeFinder.Proofs.Number.Decimal

/-!
# What is printed

Printed strings, numbers, arrays and objects are texts of the grammar, with and without line breaks.
The two ways of printing differ only in their blanks, so both are described as layouts: how a value
is written, in terms of how the values directly inside it are.
-/

namespace BridgeFinder.Json

/-! ## Strings -/

/-- A character is printed in one of its spellings. -/
theorem spelledChar_escapeChar (c : Char) : SpelledChar c (escapeChar c) := by
  have controls : ∀ n : Fin 32, Text.naturalInBase? 16
      ['0', '0', hexDigit (n / 16), hexDigit (n % 16)] = some n.val := by decide
  have known {letter : Char} {n : Nat} (member : (letter, Char.ofNat n) ∈ escapes)
      (same : c.toNat = n) : SpelledChar c ['\\', letter] := by
    rw [← same, Char.ofNat_toNat] at member
    exact .escaped member
  rw [escapeChar]
  split
  · next same => subst same; exact .escaped (by decide)
  split
  · next same => subst same; exact .escaped (by decide)
  split
  · next same => exact known (by decide) same
  split
  · next same => exact known (by decide) same
  split
  · next same => exact known (by decide) same
  split
  · next same => exact known (by decide) same
  split
  · next same => exact known (by decide) same
  split
  · next control => exact .unit ⟨rfl, controls ⟨c.toNat, control⟩⟩
  · next notQuote notBackslash _ _ _ _ _ visible =>
      exact .plain ⟨notQuote, notBackslash, Nat.not_lt.mp visible⟩

theorem spelled_flatMap (chars : List Char) : Spelled chars (chars.flatMap escapeChar) := by
  induction chars with
  | nil => exact .nil
  | cons c chars ih => exact .cons (spelledChar_escapeChar c) ih

theorem isText_quote (text : String) : IsText text (quote text) :=
  ⟨_, spelled_flatMap _, rfl⟩

/-! ## Layouts -/

/-- How values are written: `outer` writes a value, and `inner` the values directly inside it. -/
structure Layout (outer inner : Value → List Char) : Prop where
  natural : ∀ n, outer (.natural n) = Nat.toDigits 10 n
  string : ∀ text, outer (.string text) = quote text
  array : ∀ elements : List Value, ∃ text, outer (.array elements) = '[' :: text ∧
    ElementTexts true (elements.map inner) text
  object : ∀ members : List (String × Value), ∃ text, outer (.object members) = '\x7b' :: text ∧
    MemberTexts IsText true (members.map fun member => (member.1, inner member.2)) text

theorem toList_text_natural (n : Nat) : (Numeral.natural n).text.toList = Nat.toDigits 10 n :=
  Text.toList_toString n

theorem elementTexts_compact (elements : List Value) :
    ElementTexts false (elements.map Value.compactChars) (compactElements elements) := by
  induction elements with
  | nil => exact .close isBlank_nil
  | cons element elements ih => exact .element isBlank_nil isBlank_nil ih

theorem memberTexts_compact (members : List (String × Value)) :
    MemberTexts IsText false (members.map fun member => (member.1, member.2.compactChars))
      (compactMembers members) := by
  induction members with
  | nil => exact .close isBlank_nil
  | cons member members ih =>
      have first : MemberTexts IsText false ((member.1, member.2.compactChars) :: _) _ :=
        .member isBlank_nil isBlank_nil (isText_quote member.1) isBlank_nil isBlank_nil ih
      simpa [compactMembers] using first

/-- Values without blanks. -/
theorem layout_compact : Layout Value.compactChars Value.compactChars where
  natural := toList_text_natural
  string _ := rfl
  array elements := by
    rcases elements with _ | ⟨element, elements⟩
    · exact ⟨_, rfl, .close isBlank_nil⟩
    · exact ⟨_, rfl, .element isBlank_nil isBlank_nil (elementTexts_compact elements)⟩
  object members := by
    rcases members with _ | ⟨⟨name, value⟩, members⟩
    · exact ⟨_, rfl, .close isBlank_nil⟩
    · refine ⟨_, rfl, ?_⟩
      have first : MemberTexts IsText true ((name, value.compactChars) :: _) _ :=
        .member isBlank_nil isBlank_nil (isText_quote name) isBlank_nil isBlank_nil
          (memberTexts_compact members)
      simpa using first

theorem isBlank_newLine (level : Nat) : IsBlank (newLine level) := by
  intro c member
  rcases List.mem_cons.mp member with rfl | there
  · decide
  · rw [List.eq_of_mem_replicate there]
    decide

theorem isBlank_space : IsBlank [' '] := by
  decide

theorem elementTexts_pretty (level : Nat) (elements : List Value) :
    ElementTexts false (elements.map (Value.prettyChars (level + 1)))
      (prettyElements level elements) := by
  induction elements with
  | nil => exact .close (isBlank_newLine level)
  | cons element elements ih =>
      have first : ElementTexts false (element.prettyChars (level + 1) :: _) _ :=
        .element isBlank_nil (isBlank_newLine (level + 1)) ih
      simpa [prettyElements] using first

theorem memberTexts_pretty (level : Nat) (members : List (String × Value)) :
    MemberTexts IsText false
      (members.map fun member => (member.1, member.2.prettyChars (level + 1)))
      (prettyMembers level members) := by
  induction members with
  | nil => exact .close (isBlank_newLine level)
  | cons member members ih =>
      have first : MemberTexts IsText false ((member.1, member.2.prettyChars (level + 1)) :: _) _ :=
        .member isBlank_nil (isBlank_newLine (level + 1)) (isText_quote member.1) isBlank_nil
          isBlank_space ih
      simpa [prettyMembers] using first

/-- Values over several lines. -/
theorem layout_pretty (level : Nat) :
    Layout (Value.prettyChars level) (Value.prettyChars (level + 1)) where
  natural := toList_text_natural
  string _ := rfl
  array elements := by
    rcases elements with _ | ⟨element, elements⟩
    · exact ⟨_, rfl, .close isBlank_nil⟩
    · refine ⟨_, rfl, ?_⟩
      have first : ElementTexts true (element.prettyChars (level + 1) :: _) _ :=
        .element isBlank_nil (isBlank_newLine (level + 1)) (elementTexts_pretty level elements)
      simpa using first
  object members := by
    rcases members with _ | ⟨⟨name, value⟩, members⟩
    · exact ⟨_, rfl, .close isBlank_nil⟩
    · refine ⟨_, rfl, ?_⟩
      have first : MemberTexts IsText true ((name, value.prettyChars (level + 1)) :: _) _ :=
        .member isBlank_nil (isBlank_newLine (level + 1)) (isText_quote name) isBlank_nil
          isBlank_space (memberTexts_pretty level members)
      simpa using first

end BridgeFinder.Json
