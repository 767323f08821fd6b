import BridgeFinder.Net.Ipv4
import BridgeFinder.Proofs.Number.Decimal

/-!
# Addresses and their texts

Reading the text of an address gives the address back.  So a text that can be read and
was printed is the only one for its address.
-/

namespace BridgeFinder.Net.Ipv4

/-- A number below 256 is printed with at most three digits, of which the first is a zero only if
there is no other. -/
theorem octet?_toString {n : Nat} (small : n < 256) : octet? (toString n).toList = some n := by
  have short : (toString n).toList.length ≤ 3 := by
    rw [Text.toList_toString]
    exact (Nat.length_toDigits_le_iff (by decide) (by decide)).mpr (Nat.lt_trans small (by decide))
  have noZero : ¬ ((toString n).toList.length > 1 ∧ (toString n).toList.head? = some '0') := by
    rintro ⟨long, zero⟩
    rcases List.head?_eq_some_iff.mp zero with ⟨rest, same⟩
    have alone := (Text.isNumeral_toString n).short rest same
    rw [same, alone] at long
    exact Nat.lt_irrefl 1 long
  rw [octet?, if_neg (Nat.not_lt.mpr short), if_neg noZero, Text.natural?_toString]
  exact if_pos small

theorem point_notMem_toString (n : Nat) : '.' ∉ (toString n).toList := fun member =>
  Text.ne_of_isDigit (Text.isDigit_of_mem_toString member) (by decide) rfl

/-- A text without a point is a field of its own. -/
theorem fieldsOf_eq_singleton {text : List Char} (single : '.' ∉ text) : fieldsOf text = [text] := by
  induction text with
  | nil => rfl
  | cons c rest ih =>
      rcases List.ne_and_not_mem_of_not_mem_cons single with ⟨other, later⟩
      simp [fieldsOf, ih later, Ne.symm other]

/-- A field ends at the first point. -/
theorem fieldsOf_append {field : List Char} (rest : List Char) (single : '.' ∉ field) :
    fieldsOf (field ++ '.' :: rest) = field :: fieldsOf rest := by
  induction field with
  | nil => simp [fieldsOf]
  | cons c field ih =>
      rcases List.ne_and_not_mem_of_not_mem_cons single with ⟨other, later⟩
      simp [fieldsOf, ih later, Ne.symm other]

theorem toList_text (address : Ipv4) :
    address.text.toList = (toString (address.octet 0)).toList ++
      '.' :: ((toString (address.octet 1)).toList ++
        '.' :: ((toString (address.octet 2)).toList ++
          '.' :: (toString (address.octet 3)).toList)) := by
  simp [text, List.range, List.range.loop]

/-- A text of an address has digits and points only. -/
theorem forall_mem_text {property : Char → Prop} (digit : ∀ c : Char, c.isDigit → property c)
    (point : property '.') (address : Ipv4) : ∀ c ∈ address.text.toList, property c := by
  have field (n : Nat) : ∀ c ∈ (toString n).toList, property c := fun c member =>
    digit c (Text.isDigit_of_mem_toString member)
  simp only [toList_text, List.forall_mem_append, List.forall_mem_cons]
  exact ⟨field _, point, field _, point, field _, point, field _⟩

theorem octet_lt (address : Ipv4) (place : Nat) : address.octet place < 256 :=
  Nat.mod_lt _ (by decide)

/-- An address is made of its octets. -/
theorem ofOctets_octet (address : Ipv4) :
    ofOctets (address.octet 0) (address.octet 1) (address.octet 2) (address.octet 3) = address := by
  rcases address with ⟨number, bound⟩
  have first : Nat.pow 256 (3 - 0) = 16777216 := rfl
  have second : Nat.pow 256 (3 - 1) = 65536 := rfl
  have third : Nat.pow 256 (3 - 2) = 256 := rfl
  have fourth : Nat.pow 256 (3 - 3) = 1 := rfl
  simp only [ofOctets, octet, first, second, third, fourth, mk.injEq]
  omega

/-- Reading the text of an address gives the address back. -/
theorem parse?_text (address : Ipv4) : parse? address.text = some address := by
  have single (place : Nat) := point_notMem_toString (address.octet place)
  have read (place : Nat) :
      octet? (toString (address.octet place)).toList = some (address.octet place) :=
    octet?_toString (address.octet_lt place)
  have fields : fieldsOf address.text.toList = [(toString (address.octet 0)).toList,
      (toString (address.octet 1)).toList, (toString (address.octet 2)).toList,
      (toString (address.octet 3)).toList] := by
    rw [toList_text, fieldsOf_append _ (single 0), fieldsOf_append _ (single 1),
      fieldsOf_append _ (single 2), fieldsOf_eq_singleton (single 3)]
  rw [parse?, fields]
  simp only [List.map_cons, List.map_nil, read, ofOctets_octet]

end BridgeFinder.Net.Ipv4
