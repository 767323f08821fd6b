import BridgeFinder.Proofs.Settings.Sources

/-!
# Overriding the settings of a file

Loading settings from a file and the environment succeeds if all values are well-formed.  Every
setting is then what its variable says, or else what the file says, or else its default.
-/

namespace BridgeFinder.Settings

open Layered (IsWording Value Environment memberNamed? lowerName variableKey? variableValue)

/-! ## Well-formed values -/

/-- What a variable says in a well-formed text: a natural number in the ranges of the leaf and of
the integers of 64 bits, a text that is neither a boolean nor a number, or an address. -/
def Leaf.ofText? (text : String) : Leaf → Option Datum
  | .natural width _ =>
      (Number.integer? text.toList).bind fun n =>
        if 0 ≤ n ∧ n ≤ width.largest then some (.natural n.toNat) else none
  | .text _ => if IsWording text then some (.text text) else none
  | .address _ => (Net.Ipv4.parse? text).map .address
  | .texts _ => none

/-- The text that a value is. -/
def textIn? : Value → Option String
  | .scalar _ (.string text) => some text
  | _ => none

/-- What a file says in a well-formed value.  A natural number may be an integer or, in a format
that has none, a text of digits. -/
def Leaf.ofValue? (value : Value) : Leaf → Option Datum
  | .natural width _ =>
      match value with
      | .scalar _ (.integer n) =>
          if 0 ≤ n ∧ n ≤ width.largest then some (.natural n.toNat) else none
      | .scalar _ (.string digits) =>
          ((Text.natural? digits.toList).filter (· ≤ width.largest)).map .natural
      | _ => none
  | .text _ => (textIn? value).map .text
  | .address _ => ((textIn? value).bind Net.Ipv4.parse?).map .address
  | .texts _ =>
      match value with
      | .array _ values => (values.mapM textIn?).map .texts
      | _ => none

section

variable {leaf : Leaf} {value : Value} {text : String} {datum : Datum} {origin : Option String}

theorem toText_of_textIn? (read : textIn? value = some text) : toText "" value = .ok text := by
  rcases value with ⟨origin, found⟩ | _ | _
  · cases found <;> cases read
    rfl
  · cases read
  · cases read

theorem mapM_toText {values : List Value} {texts : List String}
    (read : values.mapM textIn? = some texts) :
    (values.mapM fun value => (toText "" value).toOption) = some texts := by
  induction values generalizing texts with
  | nil => exact read
  | cons value values ih =>
      rw [List.mapM_cons] at read ⊢
      rcases Option.bind_eq_some_iff.mp read with ⟨text, first, read⟩
      rcases Option.bind_eq_some_iff.mp read with ⟨others, later, same⟩
      rw [toText_of_textIn? first, ih later]
      exact same

/-- What a variable says in a well-formed text is what the leaf makes of it. -/
theorem Leaf.convert?_of_ofText? (origin : Option String) (read : leaf.ofText? text = some datum) :
    leaf.convert? (.scalar origin (variableValue text)) = some datum ∧ leaf.Admits datum := by
  cases leaf with
  | natural width store =>
      rcases Option.bind_eq_some_iff.mp read with ⟨n, integer, inside⟩
      split at inside
      · next range =>
          cases inside
          have decimal := Number.decimal?_of_integer? integer
          rw [Layered.variableValue_of_decimal? decimal.1, Layered.ofDecimal, if_pos decimal.2,
            convert?_integer range.1 range.2]
          exact ⟨rfl, show n.toNat ≤ width.largest by omega⟩
      · cases inside
  | text store =>
      rw [ofText?] at read
      split at read
      · next wording =>
          cases read
          rw [Layered.variableValue_of_isWording wording]
          exact ⟨rfl, trivial⟩
      · cases read
  | address store =>
      rcases Option.map_eq_some_iff.mp read with ⟨address, parsed, rfl⟩
      rw [Layered.variableValue_of_parse? parsed]
      have text : (toText "" (.scalar origin (.string text))).toOption = some text := rfl
      exact ⟨by rw [convert?, text, Option.bind_some, parsed]; rfl, trivial⟩
  | texts store => cases read

/-- What a file says in a well-formed value is what the leaf makes of it. -/
theorem Leaf.convert?_of_ofValue? (read : leaf.ofValue? value = some datum) :
    leaf.convert? value = some datum ∧ leaf.Admits datum := by
  cases leaf with
  | natural width store =>
      simp only [ofValue?] at read
      split at read
      · split at read
        · next range =>
            cases read
            exact ⟨convert?_integer range.1 range.2, show _ ≤ width.largest by omega⟩
        · cases read
      · rcases Option.map_eq_some_iff.mp read with ⟨n, inside, rfl⟩
        rcases Option.filter_eq_some_iff.mp inside with ⟨natural, small⟩
        exact ⟨convert?_digits natural (by simpa using small), by simpa [Admits] using small⟩
      · cases read
  | text store =>
      rcases Option.map_eq_some_iff.mp read with ⟨text, isText, rfl⟩
      exact ⟨by rw [convert?, toText_of_textIn? isText]; rfl, trivial⟩
  | address store =>
      rcases Option.map_eq_some_iff.mp read with ⟨address, isAddress, rfl⟩
      rcases Option.bind_eq_some_iff.mp isAddress with ⟨text, isText, parsed⟩
      refine ⟨?_, trivial⟩
      rw [convert?, toText_of_textIn? isText, Except.toOption, Option.bind_some, parsed,
        Option.map_some]
  | texts store =>
      simp only [ofValue?] at read
      split at read
      · next origin values =>
          rcases Option.map_eq_some_iff.mp read with ⟨texts, areTexts, rfl⟩
          refine ⟨?_, trivial⟩
          rw [convert?, toOption_toTexts, mapM_toText areTexts, Option.map_some]
      · cases read

end

/-! ## All settings -/

/-- Settings are loaded from a file and an environment with well-formed values, and each of them is
what the environment says, or else what the file says, or else its default.  Variables without the
prefix do not matter. -/
theorem ofLayers_precedence {path : Option String} {files : Layered.Files}
    {environment : Environment} {members : List (String × Value)}
    (file : fileMembers path files = .ok members) (unambiguous : Unambiguous members)
    (given : ∀ (field : Field) value, field.member? members = some value →
      (field.leaf.ofValue? value).isSome)
    (overriding : Overriding environment)
    (set : ∀ (field : Field) text, field.override? environment = some text →
      (field.leaf.ofText? text).isSome) :
    (∃ s, ofLayers path files environment = .ok s ∧
      ∀ field : Field, field.get s =
        (((field.override? environment).bind fun text => field.leaf.ofText? text).or
          ((field.member? members).bind fun value => field.leaf.ofValue? value)).getD
            (field.get {})) ∧
      ∀ others : Environment,
        (others.filter fun entry => hasPrefix entry.1) =
          (environment.filter fun entry => hasPrefix entry.1) →
        ofLayers path files others = ofLayers path files environment := by
  refine ⟨?_, fun others same => ?_⟩
  · rw [ofLayers_eq file]
    refine exists_of_tells (distinct_layers members environment)
      (fun _ _ known => overriding.tabular known (unambiguous.tabular known)) (fun field => ?_) {}
    rcases isSet : field.override? environment with _ | text
    · rcases isGiven : field.member? members with _ | value
      · simp [Tells, overriding.at?_layer, unambiguous.at?_layer, isSet, isGiven]
      · rcases Option.isSome_iff_exists.mp (given field value isGiven) with ⟨datum, wellFormed⟩
        have made := Leaf.convert?_of_ofValue? wellFormed
        simp [Tells, overriding.at?_layer, unambiguous.at?_layer, isSet, isGiven, wellFormed,
          convert?_overlay, made]
    · rcases Option.isSome_iff_exists.mp (set field text isSet) with ⟨datum, wellFormed⟩
      have made := Leaf.convert?_of_ofText? (some Layered.environmentOrigin) wellFormed
      simp [Tells, overriding.at?_layer, isSet, wellFormed, made]
  · have members : Environment.members others = Environment.members environment := by
      rw [← members_filter others, same, members_filter]
    simp only [ofLayers, layers, members]

/-- A file gives two settings of a section, and the environment replaces one of them. -/
theorem ofLayers_precedence_partial : ∃ s,
    ofLayers (some "a.yaml") { texts := [("a.yaml", "upnp:\n  port: 1901\n  mx: 5\n")] }
      [("HUE_DISCOVERY__UPNP__PORT", "1902")] = .ok s ∧
      s.multicast.port = 1902 ∧ s.multicast.answerDelay = 5 ∧ s.multicast.sendCount = 2 := by
  let inner : List (String × Value) :=
    [("port", .scalar (some "a.yaml") (.integer 1901)),
      ("mx", .scalar (some "a.yaml") (.integer 5))]
  let members : List (String × Value) := [("upnp", .table (some "a.yaml") inner)]
  have file : fileMembers (some "a.yaml")
      { texts := [("a.yaml", "upnp:\n  port: 1901\n  mx: 5\n")] } = .ok members :=
    toOption_eq_some.mp (by decide +kernel)
  have unambiguous : Unambiguous members := by
    refine ⟨?_, ?_, ?_, ?_⟩
    · intro name entry _ member there
      cases List.mem_singleton.mp there
      exact .inl (.inr (by decide))
    · intro name entry _
      exact List.length_filter_le _ _
    · intro name group value _ found
      rcases Layered.mem_of_memberNamed? found with ⟨key, -, there⟩
      cases List.mem_singleton.mp there
      exact ⟨_, _, rfl⟩
    · intro field name value _ found
      rcases Layered.mem_of_memberNamed? found with ⟨key, -, there⟩
      cases List.mem_singleton.mp there
      exact Layered.namedOnce_of_nodup (by decide) field.name
  have given (field : Field) : (field.member? members).all fun value =>
      (field.leaf.ofValue? value).isSome := by
    cases field <;> decide +kernel
  have port :
      lowerName "HUE_DISCOVERY__UPNP__PORT" = lowerName (Field.variable .multicastPort) := by
    decide +kernel
  have set (field : Field) (text : String)
      (found : field.override? [("HUE_DISCOVERY__UPNP__PORT", "1902")] = some text) :
      field = .multicastPort ∧ text = "1902" := by
    rcases Layered.mem_of_memberNamed? found with ⟨key, named, there⟩
    cases List.mem_singleton.mp there
    exact ⟨Field.eq_of_variable (named.symm.trans port), rfl⟩
  have overriding : Overriding [("HUE_DISCOVERY__UPNP__PORT", "1902")] := by
    refine ⟨fun entry member _ => ?_, fun field => List.length_filter_le _ _⟩
    cases List.mem_singleton.mp member
    exact ⟨.multicastPort, port⟩
  rcases (ofLayers_precedence file unambiguous
    (fun field value found => by simpa [found] using given field) overriding
    (fun field text found => by
      rcases set field text found with ⟨rfl, rfl⟩
      decide +kernel)).1 with ⟨s, loaded, settings⟩
  have port : Field.get .multicastPort s = .natural 1902 :=
    (settings .multicastPort).trans (by decide +kernel)
  have delay : Field.get .answerDelay s = .natural 5 :=
    (settings .answerDelay).trans (by decide +kernel)
  have count : Field.get .sendCount s = .natural 2 :=
    (settings .sendCount).trans (by decide +kernel)
  simp only [Field.get, Datum.natural.injEq] at port delay count
  exact ⟨s, loaded, UInt16.toNat_inj.mp port, UInt32.toNat_inj.mp delay, UInt32.toNat_inj.mp count⟩

end BridgeFinder.Settings
