import BridgeFinder.Proofs.Text.Front
import BridgeFinder.Text.Ascii
import Mathlib.Data.List.Infix

/-!
# Texts up to case

Lowering the ASCII letters of a text changes neither its blanks nor its hexadecimal digits, and
nothing that is raised afterwards.  So trimming a text, and picking the hexadecimal digits from it,
comes to the same up to case.
-/

namespace BridgeFinder.Text

/-! ## Characters -/

/-- The numbers of the ASCII capitals. -/
def asciiCapitals : List Nat :=
  List.range' 65 26

theorem toLower_eq_self {c : Char} (small : c.toNat ∉ asciiCapitals) : c.toLower = c := by
  have notCapital : ¬ (c.val ≥ 'A'.val ∧ c.val ≤ 'Z'.val) := by
    rintro ⟨atLeast, atMost⟩
    exact small (List.mem_range'_1.mpr ⟨UInt32.le_iff_toNat_le.mp atLeast,
      Nat.lt_succ_of_le (UInt32.le_iff_toNat_le.mp atMost)⟩)
  exact dif_neg notCapital

/-- What is the same for every capital and its small letter is the same for every character and that
character lowered. -/
theorem toLower_congr {α : Type} (value : Char → α)
    (each : ∀ n ∈ asciiCapitals, value (Char.ofNat n).toLower = value (Char.ofNat n)) (c : Char) :
    value c.toLower = value c := by
  by_cases capital : c.toNat ∈ asciiCapitals
  · simpa using each c.toNat capital
  · rw [toLower_eq_self capital]

@[simp]
theorem isBlank_toLower (c : Char) : isBlank c.toLower = isBlank c :=
  toLower_congr isBlank (by decide) c

@[simp]
theorem isHexDigit_toLower (c : Char) : isHexDigit c.toLower = isHexDigit c :=
  toLower_congr isHexDigit (by decide) c

@[simp]
theorem toUpper_toLower (c : Char) : c.toLower.toUpper = c.toUpper :=
  toLower_congr Char.toUpper (by decide) c

/-! ## Texts -/

section

variable {text core part : List Char}

/-- The text consists of its core and of blanks around it. -/
def Trims (core text : List Char) : Prop :=
  ∃ before after, IsGap before ∧ IsGap after ∧ text = before ++ (core ++ after) ∧
    Ends isBlank core ∧ Ends isBlank core.reverse

theorem isGap_reverse : IsGap text.reverse ↔ IsGap text := by
  simp [IsGap]

/-- Trimming takes everything away exactly if there is nothing but blanks. -/
theorem trim_eq_nil : trim text = [] ↔ IsGap text := by
  simp only [trim, trimEnd, trimStart, List.reverse_eq_nil_iff, List.dropWhile_eq_nil_iff,
    List.mem_reverse, IsGap]
  constructor
  · intro none c member
    -- What is left of the text begins with a character that is no blank.
    cases left : text.dropWhile isBlank with
    | nil => exact List.dropWhile_eq_nil_iff.mp left c member
    | cons d rest =>
        have blank := none d (left ▸ List.mem_cons_self)
        have visible := ends_dropWhile isBlank text d (by rw [left]; rfl)
        rw [visible] at blank
        cases blank
  · exact fun gap c member => gap c ((List.dropWhile_sublist isBlank).subset member)

/-- Trimming leaves the core of a text. -/
theorem trim_eq_iff (filled : core ≠ []) : trim text = core ↔ Trims core text := by
  constructor
  · rintro rfl
    rcases exists_trimStart text with ⟨before, gap, split, ends⟩
    rcases exists_trimStart (trimStart text).reverse with ⟨after, gapAfter, back, endsBack⟩
    have core : (trimStart (trimStart text).reverse).reverse = trim text := rfl
    have splitCore : trimStart text = trim text ++ after.reverse := by
      rw [← core, ← List.reverse_append, ← back, List.reverse_reverse]
    refine ⟨before, after.reverse, gap, isGap_reverse.mpr gapAfter, ?_, ?_, ?_⟩
    · rw [← splitCore]
      exact split
    · intro c isHead
      apply ends c
      rcases List.exists_cons_of_ne_nil filled with ⟨d, rest, same⟩
      rw [splitCore, same]
      rwa [same] at isHead
    · rwa [← core, List.reverse_reverse]
  · rintro ⟨before, after, gap, gapAfter, rfl, ends, endsBack⟩
    have front : trimStart (before ++ (core ++ after)) = core ++ after := by
      apply trimStart_append gap
      rcases List.exists_cons_of_ne_nil filled with ⟨d, rest, rfl⟩
      exact ends_cons (ends d rfl) _
    rw [trim, front, trimEnd, List.reverse_append,
      dropWhile_append (isGap_reverse.mpr gapAfter) endsBack, List.reverse_reverse]

theorem trim_map_toLower (text : List Char) :
    trim (text.map Char.toLower) = (trim text).map Char.toLower := by
  have kind : isBlank ∘ Char.toLower = isBlank := funext isBlank_toLower
  simp only [trim, trimEnd, trimStart, List.dropWhile_map, kind, ← List.map_reverse]

theorem filter_isHexDigit_map_toLower (text : List Char) :
    (text.map Char.toLower).filter isHexDigit = (text.filter isHexDigit).map Char.toLower := by
  have kind : isHexDigit ∘ Char.toLower = isHexDigit := funext isHexDigit_toLower
  rw [List.filter_map, kind]

theorem map_toUpper_map_toLower (text : List Char) :
    (text.map Char.toLower).map Char.toUpper = text.map Char.toUpper := by
  simp [Function.comp_def]

/-- A part occurs in a text as a run of consecutive characters. -/
theorem occursIn_iff : occursIn part text ↔ part <:+: text := by
  induction text with
  | nil => simp [occursIn, List.isEmpty_iff]
  | cons c rest ih =>
      rw [occursIn, Bool.or_eq_true, List.isPrefixOf_iff_prefix, ih, List.infix_cons_iff]

end

end BridgeFinder.Text
