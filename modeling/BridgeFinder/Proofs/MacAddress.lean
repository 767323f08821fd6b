import BridgeFinder.Proofs.Ssdp.Headers
import BridgeFinder.Proofs.Text.Bytes
import BridgeFinder.Proofs.Text.Case

/-!
# Ids from hardware addresses

A text gives an id exactly if it has twelve hexadecimal digits, whatever else it has, and the id is
made of these digits in capitals.  So two texts give one id only if their digits are the same up to
case.  Hexadecimal digits take one byte each, so it makes no difference whether they are counted and
cut as characters or as bytes.
-/

namespace BridgeFinder.MacAddress

variable {text other id : String}

/-! ## The digits -/

/-- The characters of a text that are hexadecimal digits of ASCII. -/
def hexadecimals (text : String) : List Char :=
  text.toList.filter (· ∈ "0123456789abcdefABCDEF".toList)

theorem digits_eq (text : String) : digits text = hexadecimals text := by
  have all : "0123456789abcdefABCDEF".toList.all Text.isHexDigit := by decide
  rw [digits, hexadecimals]
  apply List.filter_congr
  intro c _
  rw [Bool.eq_iff_iff, decide_eq_true_eq]
  exact ⟨Ssdp.of_isHexDigit (· ∈ "0123456789abcdefABCDEF".toList) (by decide),
    List.all_eq_true.mp all c⟩

theorem isHexDigit_of_mem_digits {c : Char} (member : c ∈ digits text) : Text.isHexDigit c :=
  (List.mem_filter.mp member).2

theorem isAscii_digits (text : String) : Text.IsAscii (digits text) := fun _ member =>
  Ssdp.of_isHexDigit (·.toNat < 128) (by decide) (isHexDigit_of_mem_digits member)

/-- Digits are the same in capitals exactly if they are the same in small letters. -/
theorem capitals_eq_iff : (digits text).map Char.toUpper = (digits other).map Char.toUpper ↔
    (digits text).map Char.toLower = (digits other).map Char.toLower := by
  have lowered (text : String) :
      ((digits text).map Char.toUpper).map Char.toLower = (digits text).map Char.toLower := by
    rw [List.map_map]
    exact List.map_congr_left fun c member =>
      Ssdp.of_isHexDigit (fun c => c.toUpper.toLower = c.toLower) (by decide)
        (isHexDigit_of_mem_digits member)
  constructor
  · intro same
    rw [← lowered text, same, lowered]
  · intro same
    rw [← Text.map_toUpper_map_toLower, same, Text.map_toUpper_map_toLower]

/-! ## The id -/

/-- The id that has the given digits, with four further ones in the middle. -/
structure IsMadeOf (id : String) (digits : List Char) : Prop where
  count : digits.length = 12
  spelled : id.toList = digits.take 6 ++ ("FFFE".toList ++ digits.drop 6)

/-- An id is made of twelve digits in capitals. -/
theorem uniqueId?_eq_some_iff :
    uniqueId? text = some id ↔ IsMadeOf id ((digits text).map Char.toUpper) := by
  have raised : ['F', 'F', 'F', 'E'].map Char.toUpper = "FFFE".toList := by decide
  have made : IsMadeOf id ((digits text).map Char.toUpper) ↔ (digits text).length = 12 ∧
      String.ofList (((digits text).take 6 ++ ['F', 'F', 'F', 'E'] ++
        (digits text).drop 6).map Char.toUpper) = id := by
    rw [← String.toList_inj, String.toList_ofList, List.map_append, List.map_append, raised,
      List.map_take, List.map_drop, List.append_assoc, eq_comm (b := id.toList)]
    constructor
    · rintro ⟨count, spelled⟩
      exact ⟨List.length_map _ ▸ count, spelled⟩
    · rintro ⟨count, spelled⟩
      exact ⟨(List.length_map _).trans count, spelled⟩
  rw [uniqueId?, Option.ite_none_right_eq_some, Option.some.injEq, made]

namespace IsMadeOf

variable {digits others : List Char}

/-- The further digits stand after six of the others. -/
theorem middle (made : IsMadeOf id digits) : (id.toList.drop 6).take 4 = "FFFE".toList := by
  have six : (digits.take 6).length = 6 := by simp [made.count]
  rw [made.spelled, List.drop_left' six]
  exact List.take_left' rfl

/-- The other digits stand around them. -/
theorem around (made : IsMadeOf id digits) : id.toList.take 6 ++ id.toList.drop 10 = digits := by
  have six : (digits.take 6).length = 6 := by simp [made.count]
  have ten : (digits.take 6 ++ "FFFE".toList).length = 10 := by
    rw [List.length_append, six]
    rfl
  have back : id.toList.drop 10 = digits.drop 6 := by
    rw [made.spelled, ← List.append_assoc, List.drop_left' ten]
  rw [back, made.spelled, List.take_left' six, List.take_append_drop]

/-- The digits are capitals, and so are the further ones. -/
theorem isUniqueId (made : IsMadeOf id digits)
    (capitals : ∀ c ∈ digits, c ∈ "0123456789ABCDEF".toList) : Ssdp.IsUniqueId id := by
  rw [Ssdp.IsUniqueId, made.spelled]
  constructor
  · simp [made.count]
  · rw [List.forall_mem_append, List.forall_mem_append]
    exact ⟨fun c member => capitals c (List.mem_of_mem_take member), by simp,
      fun c member => capitals c (List.mem_of_mem_drop member)⟩

/-- An id is made of one row of digits only. -/
theorem iff_eq (made : IsMadeOf id digits) : IsMadeOf id others ↔ digits = others := by
  constructor
  · intro madeToo
    rw [← made.around, madeToo.around]
  · rintro rfl
    exact made

end IsMadeOf

/-- The id that follows from a hardware address, with its digits counted and cut as bytes.  There is
none at all, not even the lack of one, if a cut is inside a character. -/
def uniqueIdOfBytes? (text : String) : Option (Option String) :=
  let bytes := Text.encode (digits text)
  if bytes.length = 12 then do
    let front ← Text.decode? (bytes.take 6)
    let back ← Text.decode? (bytes.drop 6)
    pure (some (Text.upper (String.ofList (front ++ ['F', 'F', 'F', 'E'] ++ back))))
  else pure none

/-- No cut is inside a character, and the id is the same. -/
theorem uniqueIdOfBytes?_eq (text : String) : uniqueIdOfBytes? text = some (uniqueId? text) := by
  have ascii := isAscii_digits text
  simp only [uniqueIdOfBytes?, uniqueId?, ascii.length_encode, ascii.decode?_take,
    ascii.decode?_drop, Text.upper, String.toList_ofList, Option.bind_eq_bind, Option.bind_some,
    Option.pure_def, apply_ite some]

/-! ## The account -/

/-- The account of the id that follows from a hardware address. -/
structure GivesId (text : String) : Prop where
  /-- There is one exactly if the text has twelve hexadecimal digits. -/
  given : (uniqueId? text).isSome ↔ (hexadecimals text).length = 12
  /-- It has sixteen hexadecimal digits in capitals: those of the text in their order, and four
  further ones in the middle. -/
  made : ∀ id, uniqueId? text = some id → Ssdp.IsUniqueId id ∧
    (id.toList.drop 6).take 4 = "FFFE".toList ∧
      id.toList.take 6 ++ id.toList.drop 10 = (hexadecimals text).map Char.toUpper
  /-- Another text gives the same id exactly if its digits are the same up to case. -/
  same : ∀ id other, uniqueId? text = some id → (uniqueId? other = some id ↔
    (hexadecimals text).map Char.toLower = (hexadecimals other).map Char.toLower)
  /-- It makes no difference whether digits are cut as bytes. -/
  bytes : uniqueIdOfBytes? text = some (uniqueId? text)

/-- Every text comes to its account. -/
theorem uniqueId?_account (text : String) : GivesId text := by
  constructor
  · rw [uniqueId?, Option.isSome_ite, digits_eq]
  · intro id found
    have made := uniqueId?_eq_some_iff.mp found
    refine ⟨made.isUniqueId ?_, made.middle, digits_eq text ▸ made.around⟩
    rw [List.forall_mem_map]
    exact fun c member => Ssdp.of_isHexDigit (·.toUpper ∈ "0123456789ABCDEF".toList) (by decide)
      (isHexDigit_of_mem_digits member)
  · intro id other found
    rw [uniqueId?_eq_some_iff, (uniqueId?_eq_some_iff.mp found).iff_eq, capitals_eq_iff, digits_eq,
      digits_eq]
  · exact uniqueIdOfBytes?_eq text

/-- Separators of any kind make no difference, and nor does the case of the digits. -/
example : uniqueId? "00:17:88:0a:b1:c2" = some "001788FFFE0AB1C2" ∧
    uniqueId? "ü001788-0AB1é€C2" = some "001788FFFE0AB1C2" := by
  decide

end BridgeFinder.MacAddress
