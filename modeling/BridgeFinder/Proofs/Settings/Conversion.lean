import BridgeFinder.Proofs.Layered.Texts
import BridgeFinder.Proofs.Outcome
import BridgeFinder.Proofs.Settings.Field
import BridgeFinder.Settings.Layered

/-!
# Converting single values

A leaf makes a value out of what a layered configuration has for it, whatever the key is called in
messages.  An integer in the range of the leaf stays what it is, be it a number or a run of digits.
-/

namespace BridgeFinder.Settings

open Layered (Value)

/-- What a leaf makes of a value, if it can convert it. -/
def Leaf.convert? (value : Value) : Leaf → Option Datum
  | .natural width _ => (toNaturalIn width "" value).toOption.map .natural
  | .text _ => (toText "" value).toOption.map .text
  | .address _ => ((toText "" value).toOption.bind Net.Ipv4.parse?).map .address
  | .texts _ =>
      match value with
      | .array _ values => (toTexts "" 0 values).toOption.map .texts
      | _ => none

theorem toOption_toNatural (key : String) (value : Value) :
    (toNatural key value).toOption = (toNatural "" value).toOption := by
  simp only [toNatural]
  split
  · rfl
  · split <;> rfl
  · rfl
  · split <;> rfl
  · rfl

theorem toOption_toNaturalIn (width : Width) (key : String) (value : Value) :
    (toNaturalIn width key value).toOption = (toNaturalIn width "" value).toOption := by
  simp only [toNaturalIn, toOption_bind, toOption_toNatural key]
  congr 1
  funext n
  split
  · split <;> rfl
  · rfl

theorem toOption_toText (key : String) (value : Value) :
    (toText key value).toOption = (toText "" value).toOption := by
  simp only [toText]
  split <;> rfl

/-- The origin of a scalar is mentioned in messages only. -/
theorem toOption_toNatural_scalar (origin : Option String) (found : Found) :
    (toNatural "" (.scalar origin found)).toOption =
      (toNatural "" (.scalar none found)).toOption := by
  simp only [toNatural, Value.found]
  split
  · rfl
  · split <;> rfl
  · rfl
  · split <;> rfl
  · rfl

theorem toOption_toText_scalar (origin : Option String) (found : Found) :
    (toText "" (.scalar origin found)).toOption = (toText "" (.scalar none found)).toOption := by
  cases found <;> rfl

theorem toOption_toTexts (key : String) (index : Nat) (values : List Value) :
    (toTexts key index values).toOption =
      values.mapM fun value => (toText "" value).toOption := by
  induction values generalizing index with
  | nil => rfl
  | cons value values ih =>
      simp only [toTexts, toOption_bind, toOption_toText (elementKey key index), ih,
        List.mapM_cons]
      rfl

/-- Reading a value stores what the leaf makes of it. -/
theorem Leaf.toOption_readLayered (leaf : Leaf) (key : String) (value : Value) (s : Settings) :
    (leaf.readLayered key value s).toOption =
      (leaf.convert? value).map fun datum => leaf.put datum s := by
  cases leaf with
  | natural width store =>
      simp only [readLayered, toOption_bind, toOption_toNaturalIn width key, convert?]
      cases (toNaturalIn width "" value).toOption <;> rfl
  | text store =>
      simp only [readLayered, toOption_bind, toOption_toText key, convert?]
      cases (toText "" value).toOption <;> rfl
  | address store =>
      simp only [readLayered, toOption_bind, toOption_toText key, convert?]
      rcases (toText "" value).toOption with _ | text
      · rfl
      · rw [Option.bind_some, Option.bind_some]
        cases Net.Ipv4.parse? text <;> rfl
  | texts store =>
      rcases value with ⟨origin, value⟩ | ⟨origin, values⟩ | ⟨origin, members⟩
      · rfl
      · simp only [readLayered, toOption_bind, toOption_toTexts, convert?]
        cases values.mapM fun value => (toText "" value).toOption <;> rfl
      · rfl

theorem Leaf.readLayered_eq_ok {leaf : Leaf} {key : String} {value : Value} {s t : Settings} :
    leaf.readLayered key value s = .ok t ↔
      ∃ datum, leaf.convert? value = some datum ∧ leaf.put datum s = t := by
  rw [← toOption_eq_some, toOption_readLayered, Option.map_eq_some_iff]

namespace Field

variable {field other : Field} {key : String} {value : Value} {s t : Settings}

theorem get_readLayered (read : field.leaf.readLayered key value s = .ok t)
    (admits : ∀ datum, field.leaf.convert? value = some datum → field.leaf.Admits datum) :
    field.get t = (field.leaf.convert? value).getD (field.get s) := by
  rcases Leaf.readLayered_eq_ok.mp read with ⟨datum, converted, rfl⟩
  rw [converted, Option.getD_some, get_put (admits datum converted)]

theorem get_readLayered_of_ne (apart : other ≠ field)
    (read : field.leaf.readLayered key value s = .ok t) : other.get t = other.get s := by
  rcases Leaf.readLayered_eq_ok.mp read with ⟨datum, _, rfl⟩
  exact get_put_of_ne apart datum s

theorem exists_readLayered (converts : (field.leaf.convert? value).isSome) (key : String)
    (s : Settings) : ∃ t, field.leaf.readLayered key value s = .ok t := by
  rcases Option.isSome_iff_exists.mp converts with ⟨datum, converted⟩
  exact ⟨_, Leaf.readLayered_eq_ok.mpr ⟨datum, converted, rfl⟩⟩

end Field

/-! ## Natural numbers -/

theorem Width.largest_lt (width : Width) : width.largest < Number.powerOfTwo 64 := by
  cases width <;> decide

section

variable {value : Value} {text : String} {origin : Option String}

/-- A number is converted if it is in the range that is checked after the conversion. -/
theorem toNaturalIn_eq_ok {width : Width} {key : String} {n : Nat} :
    toNaturalIn width key value = .ok n ↔
      toNatural key value = .ok n ∧
        ∀ bits, width.narrowBits? = some bits → n ≤ width.largest := by
  rw [toNaturalIn]
  rcases toNatural key value with fault | m
  · exact ⟨nofun, nofun⟩
  · rcases width.narrowBits? with _ | bits
    · exact ⟨fun same => ⟨same, nofun⟩, And.left⟩
    · change (if m ≤ width.largest then Except.ok m else Except.error _) = _ ↔ _
      by_cases inside : m ≤ width.largest
      · rw [if_pos inside]
        exact ⟨fun same => ⟨same, fun _ _ => Except.ok.inj same ▸ inside⟩, And.left⟩
      · rw [if_neg inside]
        refine ⟨nofun, ?_⟩
        rintro ⟨⟨⟩, narrow⟩
        exact absurd (narrow bits rfl) inside

theorem convert?_integer {width : Width} {store : Nat → Settings → Settings} {n : Int}
    (positive : 0 ≤ n) (inside : n ≤ width.largest) :
    (Leaf.natural width store).convert? (.scalar origin (.integer n)) =
      some (.natural n.toNat) := by
  have natural : toNatural "" (.scalar origin (.integer n)) = .ok n.toNat := by
    simp [toNatural, Value.found, positive]
  rw [Leaf.convert?, toNaturalIn_eq_ok.mpr ⟨natural, fun _ _ => by omega⟩]
  rfl

/-- Digits are no word for a number. -/
theorem naturalOfText?_of_beginsLikeNumber (begins : Number.BeginsLikeNumber text.toList) :
    naturalOfText? text =
      (Text.natural? (if text.toList.head? = some '+' then text.toList.drop 1
        else text.toList)).filter (· < Number.powerOfTwo 64) := by
  have word (first : Char) (letter : 'a' ≤ first) (rest : List Char)
      (same : Text.lower text = String.ofList (first :: rest)) : False :=
    Layered.lower_ne_of_beginsLikeNumber begins first letter rest same
  rw [naturalOfText?]
  split
  · next same => exact (word 't' (by decide) "rue".toList same).elim
  · next same => exact (word 'o' (by decide) ['n'] same).elim
  · next same => exact (word 'y' (by decide) ['e', 's'] same).elim
  · next same => exact (word 'f' (by decide) "alse".toList same).elim
  · next same => exact (word 'o' (by decide) ['f', 'f'] same).elim
  · next same => exact (word 'n' (by decide) ['o'] same).elim
  · rfl

theorem naturalOfText?_of_natural? {n : Nat} (read : Text.natural? text.toList = some n)
    (small : n < Number.powerOfTwo 64) : naturalOfText? text = some n := by
  have run := Text.isDigit_of_natural? read
  rcases same : text.toList with _ | ⟨c, rest⟩
  · exact absurd same run.1
  have digit : c.isDigit := run.2 c (same ▸ List.mem_cons_self)
  have unsigned : text.toList.head? ≠ some '+' := by
    rw [same]
    rintro ⟨⟩
    exact absurd digit (by decide)
  rw [naturalOfText?_of_beginsLikeNumber ⟨c, rest, same, .inr (.inr digit)⟩, if_neg unsigned, read,
    Option.filter_some, if_pos (by simpa using small)]

theorem convert?_digits {width : Width} {store : Nat → Settings → Settings} {n : Nat}
    (read : Text.natural? text.toList = some n) (inside : n ≤ width.largest) :
    (Leaf.natural width store).convert? (.scalar origin (.string text)) = some (.natural n) := by
  have natural : toNatural "" (.scalar origin (.string text)) = .ok n := by
    simp [toNatural, Value.found,
      naturalOfText?_of_natural? read (Nat.lt_of_le_of_lt inside width.largest_lt)]
  rw [Leaf.convert?, toNaturalIn_eq_ok.mpr ⟨natural, fun _ _ => inside⟩]
  rfl

end

end BridgeFinder.Settings
