import BridgeFinder.Text.Character
import Mathlib.Data.List.TakeDrop
import Mathlib.Data.List.TakeWhile

/-!
# What stands at the front of a text

A run of characters of one kind is taken from the front of a text up to the first character of
another kind, and a word is taken in whatever case its letters are.  Blanks and digits have no case,
so a word is never taken for them.
-/

namespace BridgeFinder.Text

/-! ## Runs -/

section

variable {isKind : Char → Bool} {text run rest : List Char}

/-- A text does not begin with a character of the kind. -/
def Ends (isKind : Char → Bool) (text : List Char) : Prop :=
  ∀ c ∈ text.head?, isKind c = false

theorem ends_nil (isKind : Char → Bool) : Ends isKind [] := by
  simp [Ends]

theorem ends_cons {c : Char} (other : isKind c = false) (rest : List Char) :
    Ends isKind (c :: rest) := by
  intro d isHead
  cases isHead
  exact other

theorem ends_dropWhile (isKind : Char → Bool) (text : List Char) :
    Ends isKind (text.dropWhile isKind) := by
  intro c isHead
  have other := List.head?_dropWhile_not isKind text
  rwa [Option.mem_def.mp isHead] at other

theorem dropWhile_append (inside : ∀ c ∈ run, isKind c) (ends : Ends isKind rest) :
    (run ++ rest).dropWhile isKind = rest := by
  rw [List.dropWhile_append_of_pos inside]
  cases rest with
  | nil => rfl
  | cons c rest => simp [ends c rfl]

theorem takeWhile_append (inside : ∀ c ∈ run, isKind c) (ends : Ends isKind rest) :
    (run ++ rest).takeWhile isKind = run := by
  rw [List.takeWhile_append_of_pos inside]
  cases rest with
  | nil => simp
  | cons c rest => simp [ends c rfl]

/-- A run is what stands before the first character of another kind. -/
theorem span_eq_iff :
    text.span isKind = (run, rest) ↔
      text = run ++ rest ∧ (∀ c ∈ run, isKind c) ∧ Ends isKind rest := by
  rw [List.span_eq_takeWhile_dropWhile, Prod.mk.injEq]
  constructor
  · rintro ⟨rfl, rfl⟩
    exact ⟨List.takeWhile_append_dropWhile.symm, fun c => List.mem_takeWhile_imp,
      ends_dropWhile isKind text⟩
  · rintro ⟨rfl, inside, ends⟩
    exact ⟨takeWhile_append inside ends, dropWhile_append inside ends⟩

/-- Nothing but blanks. -/
def IsGap (text : List Char) : Prop :=
  ∀ c ∈ text, isBlank c

theorem trimStart_append {gap : List Char} (isGap : IsGap gap) (ends : Ends isBlank rest) :
    trimStart (gap ++ rest) = rest :=
  dropWhile_append isGap ends

/-- Trimming takes blanks away, and leaves none at the front. -/
theorem exists_trimStart (text : List Char) :
    ∃ gap, IsGap gap ∧ text = gap ++ trimStart text ∧ Ends isBlank (trimStart text) :=
  ⟨text.takeWhile isBlank, fun _ => List.mem_takeWhile_imp,
    List.takeWhile_append_dropWhile.symm, ends_dropWhile isBlank text⟩

end

/-! ## Words -/

section

variable {word text rest : List Char} {c w : Char}

/-- The text agrees with a lower-case word up to case. -/
def Folds (word text : List Char) : Prop :=
  text.map foldCase = word

theorem folds_nil : Folds [] text ↔ text = [] :=
  List.map_eq_nil_iff

theorem folds_cons : Folds (w :: word) text ↔
    ∃ c rest, text = c :: rest ∧ foldCase c = w ∧ Folds word rest := by
  cases text with
  | nil => simp [Folds]
  | cons c text => simp [Folds]

/-- A word is dropped exactly if the text begins with it. -/
theorem dropFolded?_eq_some :
    dropFolded? word text = some rest ↔ ∃ front, Folds word front ∧ text = front ++ rest := by
  induction word generalizing text with
  | nil => simp [dropFolded?, folds_nil, eq_comm]
  | cons w word ih =>
      simp only [folds_cons]
      cases text with
      | nil => simp [dropFolded?]
      | cons c text =>
          by_cases same : foldCase c = w
          · simp [dropFolded?, same, ih]
          · simp [dropFolded?, same]

/-- The numbers of the characters that have another folding. -/
def capitals : List Nat :=
  0x17F :: 0x212A :: List.range' 65 26

theorem foldCase_eq_self (small : c.toNat ∉ capitals) : foldCase c = c := by
  simp only [capitals, List.mem_cons, List.mem_range'_1, not_or] at small
  rcases small with ⟨longS, kelvin, upper⟩
  have notUpper : ¬ (c.val ≥ 'A'.val ∧ c.val ≤ 'Z'.val) := by
    rintro ⟨atLeast, atMost⟩
    exact upper ⟨UInt32.le_iff_toNat_le.mp atLeast,
      Nat.lt_succ_of_le (UInt32.le_iff_toNat_le.mp atMost)⟩
  rw [foldCase, if_neg longS, if_neg kelvin]
  exact dif_neg notUpper

/-- Characters of a kind have no case. -/
def IsCaseless (isKind : Char → Bool) : Prop :=
  ∀ n ∈ capitals, isKind (Char.ofNat n) = false

instance (isKind : Char → Bool) : Decidable (IsCaseless isKind) :=
  List.decidableBAll _ capitals

theorem isCaseless_isBlank : IsCaseless isBlank := by
  decide

theorem isCaseless_isDecimalDigit : IsCaseless isDecimalDigit := by
  decide

/-- A word does not begin with a character of a kind without case, if its own first letter is of
another kind. -/
theorem Folds.ends {isKind : Char → Bool} (folds : Folds (w :: word) text)
    (caseless : IsCaseless isKind) (other : isKind w = false) (rest : List Char) :
    Ends isKind (text ++ rest) := by
  rcases folds_cons.mp folds with ⟨c, later, rfl, same, -⟩
  apply ends_cons
  by_cases capital : c.toNat ∈ capitals
  · simpa using caseless c.toNat capital
  · rwa [← foldCase_eq_self capital, same]

end

end BridgeFinder.Text
