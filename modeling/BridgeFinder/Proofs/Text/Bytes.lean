import BridgeFinder.Text.Utf8
import Mathlib.Tactic.SplitIfs

/-!
# Texts as bytes

A character of ASCII takes one byte.  So a text of nothing else has as many bytes as characters, and
wherever its bytes are cut, both parts are texts.

Texts are compared character by character.  The bytes that encode them, compared one by one, are in
the same order: the encodings of two characters differ first at a byte that is less for the lesser
character, so neither is a beginning of the other.
-/

namespace BridgeFinder.Text

/-! ## ASCII -/

/-- The text has characters of ASCII only. -/
def IsAscii (text : List Char) : Prop :=
  ∀ c ∈ text, c.toNat < 128

section

variable {text : List Char}

theorem utf8EncodeChar_of_ascii {c : Char} (ascii : c.toNat < 128) :
    String.utf8EncodeChar c = [UInt8.ofNat c.toNat] := by
  have small : c.utf8Size = 1 :=
    Char.utf8Size_eq_one_iff.mpr (UInt32.le_iff_toNat_le.mpr (Nat.le_of_lt_succ ascii))
  rw [String.utf8EncodeChar_eq_singleton small]
  rfl

/-- Every character takes one byte. -/
theorem IsAscii.encode_eq (ascii : IsAscii text) :
    encode text = text.map fun c => UInt8.ofNat c.toNat := by
  induction text with
  | nil => rfl
  | cons c text ih =>
      rcases List.forall_mem_cons.mp ascii with ⟨here, later⟩
      rw [encode, List.flatMap_cons, utf8EncodeChar_of_ascii here, List.map_cons, ← ih later]
      rfl

theorem IsAscii.length_encode (ascii : IsAscii text) : (encode text).length = text.length := by
  rw [ascii.encode_eq, List.length_map]

/-- The bytes of the text are read as the text. -/
theorem IsAscii.decode?_encode (ascii : IsAscii text) : decode? (encode text) = some text := by
  rw [decode?, ascii.encode_eq]
  induction text with
  | nil => rfl
  | cons c text ih =>
      rcases List.forall_mem_cons.mp ascii with ⟨here, later⟩
      have byte : (UInt8.ofNat c.toNat).toNat = c.toNat :=
        UInt8.toNat_ofNat_of_lt' (Nat.lt_trans here (by decide))
      rw [List.map_cons, decodeParts]
      simp only [byte, if_pos here, List.nil_append, List.mapM_cons, id_eq, Char.ofNat_toNat,
        Option.bind_eq_bind, Option.bind_some, ih later]
      rfl

/-- What is cut off the front of the bytes is read as the front of the text. -/
theorem IsAscii.decode?_take (ascii : IsAscii text) (count : Nat) :
    decode? ((encode text).take count) = some (text.take count) := by
  have front : IsAscii (text.take count) := fun c member => ascii c (List.mem_of_mem_take member)
  rw [ascii.encode_eq, ← List.map_take, ← front.encode_eq, front.decode?_encode]

/-- What is left of the bytes is read as what is left of the text. -/
theorem IsAscii.decode?_drop (ascii : IsAscii text) (count : Nat) :
    decode? ((encode text).drop count) = some (text.drop count) := by
  have back : IsAscii (text.drop count) := fun c member => ascii c (List.mem_of_mem_drop member)
  rw [ascii.encode_eq, ← List.map_drop, ← back.encode_eq, back.decode?_encode]

end

/-! ## The order of bytes -/

/-- The scalar value of a character is below the end of the code space. -/
theorem scalar_le (c : Char) : c.val.toNat ≤ 0x10ffff := by
  rcases c.valid with low | ⟨_, high⟩
  · exact Nat.le_trans (Nat.le_of_lt low) (by decide)
  · exact Nat.le_of_lt_succ high

/-- Of two numbers the lesser one is less at the first digit to the base 64 where they
differ. -/
theorem digits_lt {n m : Nat} (less : n < m) :
    n / 262144 < m / 262144 ∨ n / 262144 = m / 262144 ∧
      (n / 4096 % 64 < m / 4096 % 64 ∨ n / 4096 % 64 = m / 4096 % 64 ∧
        (n / 64 % 64 < m / 64 % 64 ∨ n / 64 % 64 = m / 64 % 64 ∧ n % 64 < m % 64)) := by
  have first : n / 4096 = n / 64 / 64 ∧ m / 4096 = m / 64 / 64 := by
    constructor <;> rw [Nat.div_div_eq_div_mul]
  have second : n / 262144 = n / 4096 / 64 ∧ m / 262144 = m / 4096 / 64 := by
    constructor <;> rw [Nat.div_div_eq_div_mul]
  omega

/-- The encoding of a lesser character comes first, whatever follows it. -/
theorem encodeChar_append_lt {c d : Char} (less : c < d) (after others : List UInt8) :
    String.utf8EncodeChar c ++ after < String.utf8EncodeChar d ++ others := by
  have value : c.val.toNat < d.val.toNat := less
  have bound := scalar_le d
  have digits := digits_lt value
  simp only [String.utf8EncodeChar]
  split_ifs <;>
    simp only [List.cons_append, List.nil_append, List.cons_lt_cons_iff, UInt8.lt_iff_toNat_lt,
      ← UInt8.toNat_inj, UInt8.toNat_ofNat'] <;>
    simp (disch := omega) only [Nat.mod_eq_of_lt] <;>
    omega

/-- Texts and their encodings are in the same order. -/
theorem encode_lt_encode {first second : List Char} (less : first < second) :
    encode first < encode second := by
  induction first generalizing second with
  | nil =>
      cases second with
      | nil => exact absurd less (List.not_lt_nil _)
      | cons d rest =>
          have some : encode (d :: rest) ≠ [] := by simp [encode, String.utf8EncodeChar_ne_nil]
          rcases List.exists_cons_of_ne_nil some with ⟨byte, bytes, encoded⟩
          rw [encoded]
          exact List.nil_lt_cons ..
  | cons c start ih =>
      cases second with
      | nil => exact absurd less (List.not_lt_nil _)
      | cons d rest =>
          rcases List.cons_lt_cons_iff.mp less with before | ⟨rfl, later⟩
          · exact encodeChar_append_lt before _ _
          · exact List.append_left_lt (ih later)

end BridgeFinder.Text
