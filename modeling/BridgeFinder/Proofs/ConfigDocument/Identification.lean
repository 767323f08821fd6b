import BridgeFinder.Proofs.ConfigDocument
import BridgeFinder.Proofs.Text.Case

/-!
# Which documents describe a bridge

A document describes a bridge if it gives an id and says that the device is a bridge.  The id that
is stated comes before the one that follows from the hardware address, and counts unless it is
blank.  The device is a bridge if its model and its interface version are given, or if its name says
so.  None of this depends on the case of the id, the hardware address or the name.
-/

namespace BridgeFinder

/-! ## Ids -/

namespace MacAddress

/-- The hexadecimal digits of a hardware address are six and another six, whatever stands between
them. -/
def HasDigits (text : String) (front back : List Char) : Prop :=
  text.toList.filter Text.isHexDigit = front ++ back ∧ front.length = 6 ∧ back.length = 6

/-- The id of a device has four further digits in the middle of its hardware address. -/
theorem uniqueId?_eq_some {text id : String} :
    uniqueId? text = some id ↔ ∃ front back, HasDigits text front back ∧
      id = Text.upper (String.ofList (front ++ ['F', 'F', 'F', 'E'] ++ back)) := by
  simp only [HasDigits, Text.upper, String.toList_ofList]
  constructor
  · intro found
    simp only [uniqueId?] at found
    split at found
    · rename_i twelve
      obtain rfl := Option.some.inj found
      rw [digits] at twelve
      refine ⟨_, _, ⟨(List.take_append_drop 6 _).symm, ?_, ?_⟩, rfl⟩ <;> simp [twelve]
    · cases found
  · rintro ⟨front, back, ⟨all, six, another⟩, rfl⟩
    have twelve : (front ++ back).length = 12 := by rw [List.length_append, six, another]
    simp only [uniqueId?, digits, all, twelve, if_true, List.take_left' six, List.drop_left' six]

/-- The case of a hardware address makes no difference. -/
theorem uniqueId?_congr {text other : String} (same : Text.lower text = Text.lower other) :
    uniqueId? text = uniqueId? other := by
  -- The id is made of the digits in lower case, which are those of the address in lower case.
  have lowered (text : String) : uniqueId? text = uniqueId? (Text.lower text) := by
    simp only [uniqueId?, digits, Text.lower, String.toList_ofList,
      Text.filter_isHexDigit_map_toLower, List.length_map, List.map_append, ← List.map_take,
      ← List.map_drop, Text.map_toUpper_map_toLower]
  rw [lowered text, same, ← lowered other]

end MacAddress

namespace ConfigDocument

variable {document changed : ConfigDocument} {id ip : String}

/-- The document gives no id outright: it has none, or a blank one. -/
def LacksId (document : ConfigDocument) : Prop :=
  ∀ text, document.bridgeId = some text → Text.IsGap text.toList

/-- The id that a document gives: the one that it states, in capitals and without blanks around it,
or else the one that follows from the hardware address. -/
inductive HasId (document : ConfigDocument) : String → Prop where
  | stated {text : String} {core : List Char} (given : document.bridgeId = some text)
      (filled : core ≠ []) (trims : Text.Trims core text.toList) :
      HasId document (Text.upper (String.ofList core))
  | derived {mac : String} {front back : List Char} (lacks : document.LacksId)
      (given : document.mac = some mac) (hasDigits : MacAddress.HasDigits mac front back) :
      HasId document (Text.upper (String.ofList (front ++ ['F', 'F', 'F', 'E'] ++ back)))

theorem statedId?_eq_some :
    document.statedId? = some id ↔ ∃ text core, document.bridgeId = some text ∧ core ≠ [] ∧
      Text.Trims core text.toList ∧ id = Text.upper (String.ofList core) := by
  simp only [statedId?, Option.bind_eq_bind, Option.bind_eq_some_iff]
  constructor
  · rintro ⟨text, given, stated⟩
    cases trimmed : Text.trim text.toList with
    | nil =>
        rw [trimmed] at stated
        cases stated
    | cons c rest =>
        rw [trimmed] at stated
        cases stated
        have filled : c :: rest ≠ [] := List.cons_ne_nil c rest
        exact ⟨text, _, given, filled, (Text.trim_eq_iff filled).mp trimmed, rfl⟩
  · rintro ⟨text, core, given, filled, trims, rfl⟩
    refine ⟨text, given, ?_⟩
    rw [(Text.trim_eq_iff filled).mpr trims]
    rcases List.exists_cons_of_ne_nil filled with ⟨c, rest, rfl⟩
    rfl

theorem statedId?_eq_none : document.statedId? = none ↔ document.LacksId := by
  simp only [statedId?, Option.bind_eq_bind, Option.bind_eq_none_iff, LacksId, ← Text.trim_eq_nil]
  constructor
  · intro none text given
    have none := none text given
    cases trimmed : Text.trim text.toList with
    | nil => rfl
    | cons c rest =>
        rw [trimmed] at none
        cases none
  · intro blank text given
    rw [blank text given]

theorem uniqueId?_eq_some : document.uniqueId? = some id ↔ document.HasId id := by
  constructor
  · intro found
    rw [uniqueId?] at found
    cases stated : document.statedId? with
    | some other =>
        rw [stated] at found
        cases found
        rcases statedId?_eq_some.mp stated with ⟨text, core, given, filled, trims, rfl⟩
        exact .stated given filled trims
    | none =>
        rw [stated] at found
        rcases Option.bind_eq_some_iff.mp found with ⟨mac, given, derived⟩
        rcases MacAddress.uniqueId?_eq_some.mp derived with ⟨front, back, hasDigits, rfl⟩
        exact .derived (statedId?_eq_none.mp stated) given hasDigits
  · intro hasId
    rw [uniqueId?]
    cases hasId with
    | stated given filled trims =>
        rw [statedId?_eq_some.mpr ⟨_, _, given, filled, trims, rfl⟩]
    | derived lacks given hasDigits =>
        rw [statedId?_eq_none.mpr lacks, given]
        exact MacAddress.uniqueId?_eq_some.mpr ⟨_, _, hasDigits, rfl⟩

/-! ## Identification -/

/-- The document says that the device is a bridge: it gives a model and an interface version, or the
name of the device contains the name of the product in some case. -/
def IsOfBridge (document : ConfigDocument) : Prop :=
  (∃ model version, document.modelId = some model ∧ model ≠ "" ∧
      document.apiVersion = some version ∧ version ≠ "") ∨
    ∃ name product, document.name = some name ∧ product <:+: name.toList ∧
      product.map Char.toLower = ['h', 'u', 'e']

/-- An optional text that is not empty is given. -/
theorem getD_ne_empty {text : Option String} :
    text.getD "" ≠ "" ↔ ∃ given, text = some given ∧ given ≠ "" := by
  cases text <;> simp

/-- A word occurs in a text that is lowered exactly if the text has a part that is the word in some
case. -/
theorem infix_map_toLower {word text : List Char} :
    word <:+: text.map Char.toLower ↔ ∃ part, part <:+: text ∧ part.map Char.toLower = word := by
  constructor
  · rintro ⟨before, after, split⟩
    rcases List.map_eq_append_iff.mp split.symm with ⟨front, back, rfl, lowered, rfl⟩
    rcases List.map_eq_append_iff.mp lowered with ⟨first, part, rfl, rfl, rfl⟩
    exact ⟨part, ⟨first, back, rfl⟩, rfl⟩
  · rintro ⟨part, inside, rfl⟩
    exact inside.map Char.toLower

theorem isIdentified_iff : document.isIdentified ↔ document.IsOfBridge := by
  simp only [isIdentified, Bool.or_eq_true, Bool.and_eq_true, bne_iff_ne, getD_ne_empty,
    Text.occursIn_iff, Text.lower, String.toList_ofList, infix_map_toLower, IsOfBridge]
  apply or_congr
  · constructor
    · rintro ⟨⟨model, isModel, filled⟩, version, isVersion, filledToo⟩
      exact ⟨model, version, isModel, filled, isVersion, filledToo⟩
    · rintro ⟨model, version, isModel, filled, isVersion, filledToo⟩
      exact ⟨⟨model, isModel, filled⟩, version, isVersion, filledToo⟩
  · cases document.name with
    | none =>
        constructor
        · rintro ⟨product, inside, spelled⟩
          rw [Option.getD_none, String.toList_empty, List.infix_nil] at inside
          subst inside
          cases spelled
        · rintro ⟨name, product, given, -⟩
          cases given
    | some name => simp

/-! ## Bridges -/

/-- The document describes the bridge at the given address. -/
structure Describes (document : ConfigDocument) (ip : String) (bridge : Bridge) : Prop where
  hasId : document.HasId bridge.uniqueId
  isOfBridge : document.IsOfBridge
  ip : bridge.ip = ip
  apiVersion : bridge.apiVersion = document.apiVersion.getD ""
  modelId : bridge.modelId = document.modelId.getD ""
  name : bridge.name = document.name.getD ""
  swVersion : bridge.swVersion = document.swVersion.getD ""

theorem bridge?_eq_some {bridge : Bridge} :
    document.bridge? ip = some bridge ↔ document.Describes ip bridge := by
  simp only [bridge?, Option.bind_eq_bind, Option.bind_eq_some_iff, Option.ite_none_right_eq_some,
    Option.some.injEq, uniqueId?_eq_some, isIdentified_iff]
  constructor
  · rintro ⟨id, hasId, isOfBridge, rfl⟩
    exact ⟨hasId, isOfBridge, rfl, rfl, rfl, rfl, rfl⟩
  · rintro ⟨hasId, isOfBridge, rfl, api, model, name, sw⟩
    rw [← api, ← model, ← name, ← sw]
    exact ⟨bridge.uniqueId, hasId, isOfBridge, rfl⟩

/-- Two documents differ only in the case of the id, the hardware address and the name. -/
structure AgreesUpToCase (document changed : ConfigDocument) : Prop where
  name : document.name.map Text.lower = changed.name.map Text.lower
  bridgeId : document.bridgeId.map Text.lower = changed.bridgeId.map Text.lower
  mac : document.mac.map Text.lower = changed.mac.map Text.lower
  apiVersion : document.apiVersion = changed.apiVersion
  modelId : document.modelId = changed.modelId
  swVersion : document.swVersion = changed.swVersion

namespace AgreesUpToCase

/-- A function of texts that does not depend on their case gives the same for optional texts that
agree up to case. -/
theorem bind_congr {α : Type} {value : String → Option α} {text other : Option String}
    (same : text.map Text.lower = other.map Text.lower)
    (congr : ∀ one two, Text.lower one = Text.lower two → value one = value two) :
    text.bind value = other.bind value := by
  cases text with
  | none =>
      cases other with
      | none => rfl
      | some => cases same
  | some one =>
      cases other with
      | none => cases same
      | some two => exact congr one two (Option.some.inj same)

variable (agrees : document.AgreesUpToCase changed)
include agrees

theorem statedId?_eq : document.statedId? = changed.statedId? := by
  apply bind_congr agrees.bridgeId
  have lowered (text : String) :
      (Text.trim text.toList).map Char.toLower = Text.trim (Text.lower text).toList := by
    rw [Text.lower, String.toList_ofList, Text.trim_map_toLower]
  intro one two same
  have trimmed : (Text.trim one.toList).map Char.toLower =
      (Text.trim two.toList).map Char.toLower := by
    rw [lowered, lowered, same]
  have raised : (Text.trim one.toList).map Char.toUpper =
      (Text.trim two.toList).map Char.toUpper := by
    rw [← Text.map_toUpper_map_toLower, trimmed, Text.map_toUpper_map_toLower]
  generalize Text.trim one.toList = first at raised
  generalize Text.trim two.toList = second at raised
  cases first with
  | nil =>
      cases second with
      | nil => rfl
      | cons => cases raised
  | cons =>
      cases second with
      | nil => cases raised
      | cons => simp only [Text.upper, String.toList_ofList, raised]

theorem uniqueId?_eq : document.uniqueId? = changed.uniqueId? := by
  rw [uniqueId?, uniqueId?, agrees.statedId?_eq,
    bind_congr agrees.mac fun _ _ => MacAddress.uniqueId?_congr]

theorem isIdentified_eq : document.isIdentified = changed.isIdentified := by
  have lowered (text : Option String) :
      Text.lower (text.getD "") = (text.map Text.lower).getD "" := by
    cases text <;> rfl
  rw [isIdentified, isIdentified, agrees.modelId, agrees.apiVersion, lowered, lowered, agrees.name]

theorem uniqueId_eq (ip other : String) :
    (document.bridge? ip).map Bridge.uniqueId = (changed.bridge? other).map Bridge.uniqueId := by
  simp only [bridge?, agrees.uniqueId?_eq, agrees.isIdentified_eq]
  cases changed.uniqueId? with
  | none => rfl
  | some id => cases changed.isIdentified <;> rfl

end AgreesUpToCase

end ConfigDocument

open ConfigDocument in
/-- The account of a confirmation.  A body that is a document is confirmed exactly if the document
gives an id and says that the device is a bridge; the bridge is the one that it describes, and its
id is not empty.  The case of the id, the hardware address and the name makes no difference to that.
A body that is no document is not confirmed. -/
theorem confirm?_account (ip body : String) :
    (∀ document, parse body = .ok document →
        (∀ bridge, confirm? ip body = some bridge ↔ document.Describes ip bridge) ∧
          ((∃ bridge, confirm? ip body = some bridge) ↔
            (∃ id, document.HasId id) ∧ document.IsOfBridge)) ∧
      (∀ error, parse body = .error error → confirm? ip body = none) ∧
      (∀ bridge, confirm? ip body = some bridge → bridge.uniqueId ≠ "") ∧
      ∀ other document changed, parse body = .ok document → parse other = .ok changed →
        document.AgreesUpToCase changed →
          (confirm? ip body).map Bridge.uniqueId = (confirm? ip other).map Bridge.uniqueId := by
  refine ⟨?_, ?_, ?_, ?_⟩
  · intro document parsed
    simp only [confirm?, parsed, bridge?_eq_some]
    refine ⟨fun _ => trivial, ?_⟩
    constructor
    · rintro ⟨bridge, describes⟩
      exact ⟨⟨_, describes.hasId⟩, describes.isOfBridge⟩
    · rintro ⟨⟨id, hasId⟩, isOfBridge⟩
      exact ⟨⟨id, ip, _, _, _, _⟩, hasId, isOfBridge, rfl, rfl, rfl, rfl, rfl⟩
  · intro error parsed
    simp only [confirm?, parsed]
  · exact fun bridge found => (confirm?_spec found).2.1
  · intro other document changed parsed parsedToo agrees
    simp only [confirm?, parsed, parsedToo]
    exact agrees.uniqueId_eq ip ip

example :
    (confirm? "10.0.0.2"
      "\x7b\"bridgeid\":\" \",\"mac\":\"EC:b5:fa:0a:b1:c2\",\"name\":\"my Hue\"\x7d").map
        Bridge.uniqueId = some "ECB5FAFFFE0AB1C2" := by
  decide +kernel

end BridgeFinder
