import BridgeFinder.Proofs.Number.Rounding
import BridgeFinder.Proofs.Settings.Sources
import BridgeFinder.Settings.Yaml

/-!
# Integers from a file and the environment

A source holds a decimal integer exactly if it has 64 bits or is kept as a text; then it becomes
the value of a setting, or loading fails.  Any other integer is held as the nearest double, and
what is loaded is that double moved into the range of 64 bits: a negative integer becomes zero, and
a large one becomes some number that it need not be.
-/

namespace BridgeFinder.Settings

open Layered (Value Environment Path KeyAvoids lowerName variableKey? variableValue)
open Number (Fits64 decimal? powerOfTwo)

/-- How a source holds a decimal integer: as a number, or as its text. -/
inductive Holds (n : Int) : Found → Prop where
  | number : Holds n (Layered.ofDecimal n)
  | text {text : String} (read : decimal? text.toList = some n) : Holds n (.string text)

/-- The number that an integer beyond 63 bits turns into on the way through a double. -/
def nearest (n : Int) : Nat :=
  (Number.Binary64.ofDecimal false n.natAbs 0).toNatClamped (powerOfTwo 64 - 1)

/-- What a setting with the given range becomes if it is loaded from an integer that is held as
`found`: the integer itself, or what is left of an integer that has passed through a double. -/
inductive Loads (n : Int) (width : Width) : Found → Nat → Prop where
  | exact {found : Found} {k : Nat} (same : n = k) (inside : k ≤ width.largest) :
      Loads n width found k
  | below (negative : n < -(powerOfTwo 63 : Int)) : Loads n width (Layered.ofDecimal n) 0
  | above (large : (powerOfTwo 63 : Int) ≤ n) (wide : width.narrowBits? = none) :
      Loads n width (Layered.ofDecimal n) (nearest n)

section

variable {n : Int} {width : Width} {store : Nat → Settings → Settings} {found : Found}
  {origin : Option String} {datum : Datum}

theorem nearest_le (n : Int) : nearest n ≤ powerOfTwo 64 - 1 := by
  rw [nearest]
  generalize Number.Binary64.ofDecimal false n.natAbs 0 = x
  rcases x with _ | negative | ⟨negative, mantissa, exponent⟩
  · exact Nat.zero_le _
  · cases negative
    · exact Nat.le_refl _
    · exact Nat.zero_le _
  · cases negative
    · exact Nat.min_le_left _ _
    · exact Nat.zero_le _

theorem Loads.le_largest {k : Nat} (loads : Loads n width found k) : k ≤ width.largest := by
  cases loads with
  | exact same inside => exact inside
  | below negative => exact Nat.zero_le _
  | above large wide =>
      cases width with
      | bits16 | bits32 => cases wide
      | bits64 | size => exact nearest_le n

/-- A number in the range of a leaf is what has been converted. -/
theorem toNatural_of_convert? {value : Value}
    (converted : (Leaf.natural width store).convert? value = some datum) :
    ∃ k, toNatural "" value = .ok k ∧ datum = .natural k ∧
      ∀ bits, width.narrowBits? = some bits → k ≤ width.largest := by
  rcases Option.map_eq_some_iff.mp converted with ⟨k, isNumber, rfl⟩
  rcases toNaturalIn_eq_ok.mp (toOption_eq_some.mp isNumber) with ⟨natural, narrow⟩
  exact ⟨k, natural, rfl, narrow⟩

theorem le_largest_of_narrow {k limit : Nat} (small : k ≤ limit) (wide : limit ≤ powerOfTwo 64 - 1)
    (narrow : ∀ bits, width.narrowBits? = some bits → k ≤ width.largest) : k ≤ width.largest := by
  cases width with
  | bits16 => exact narrow 16 rfl
  | bits32 => exact narrow 32 rfl
  | bits64 | size => exact Nat.le_trans small wide

/-- No range of 16 or 32 bits has a number beyond 63 bits. -/
theorem narrowBits?_of_large {k : Nat} (large : powerOfTwo 63 ≤ k)
    (narrow : ∀ bits, width.narrowBits? = some bits → k ≤ width.largest) :
    width.narrowBits? = none := by
  rcases isNarrow : width.narrowBits? with _ | bits
  · rfl
  · have small := Nat.le_trans large (narrow bits isNarrow)
    cases width with
    | bits16 | bits32 => exact absurd small (by decide)
    | bits64 | size => cases isNarrow

/-- What an integer of 64 bits loads as. -/
theorem loads_of_fits {k : Nat} (fits : Fits64 n)
    (natural : toNatural "" (.scalar origin (.integer n)) = .ok k)
    (narrow : ∀ bits, width.narrowBits? = some bits → k ≤ width.largest) :
    Loads n width found k := by
  simp only [toNatural, Value.found] at natural
  split at natural
  · next positive =>
      cases natural
      have small : n.toNat ≤ powerOfTwo 63 := by have := fits.2; omega
      exact .exact (by omega) (le_largest_of_narrow small (by decide) narrow)
  · cases natural

/-- What an integer beyond 64 bits loads as: its double, moved into the range. -/
theorem loads_of_beyond {k : Nat} (beyond : ¬ Fits64 n)
    (natural : toNatural "" (.scalar origin (Layered.ofDecimal n)) = .ok k)
    (narrow : ∀ bits, width.narrowBits? = some bits → k ≤ width.largest) :
    Loads n width (Layered.ofDecimal n) k := by
  have double : Layered.ofDecimal n = .float (Number.Binary64.ofDecimal (n < 0) n.natAbs 0) := by
    rw [Layered.ofDecimal, if_neg beyond]
  simp only [double, toNatural, Value.found] at natural
  rw [Fits64] at beyond
  have := Int.natCast_nonneg (powerOfTwo 63)
  rcases Int.lt_or_le n 0 with negative | positive
  · rw [decide_eq_true negative, Number.Binary64.toNatClamped_ofDecimal_true] at natural
    cases natural
    exact .below (by omega)
  · have above : (powerOfTwo 63 : Int) ≤ n := by omega
    rw [decide_eq_false (Int.not_lt.mpr positive)] at natural
    cases natural
    have large : powerOfTwo 63 ≤
        (Number.Binary64.ofDecimal false n.natAbs 0).toNatClamped (powerOfTwo 64 - 1) :=
      Number.Binary64.le_toNatClamped_ofDecimal (by omega) (by decide)
    exact .above above (narrowBits?_of_large large narrow)

/-- What the text of an integer loads as. -/
theorem loads_of_text {k : Nat} {text : String} (read : decimal? text.toList = some n)
    (natural : toNatural "" (.scalar origin (.string text)) = .ok k)
    (narrow : ∀ bits, width.narrowBits? = some bits → k ≤ width.largest) :
    Loads n width found k := by
  simp only [toNatural, Value.found] at natural
  split at natural
  · next isNatural =>
      cases natural
      have begins := Number.beginsLikeNumber_of_decimal? read
      rw [naturalOfText?_of_beginsLikeNumber begins] at isNatural
      rcases Option.filter_eq_some_iff.mp isNatural with ⟨isNatural, small⟩
      have small : k ≤ powerOfTwo 64 - 1 := Nat.le_sub_one_of_lt (by simpa using small)
      exact .exact (Number.eq_of_natural? read isNatural)
        (le_largest_of_narrow small (Nat.le_refl _) narrow)
  · cases natural

/-- Whatever a leaf makes of an integer is what the integer loads as. -/
theorem loads_of_convert? (holds : Holds n found)
    (converted : (Leaf.natural width store).convert? (.scalar origin found) = some datum) :
    ∃ k, datum = .natural k ∧ Loads n width found k := by
  rcases toNatural_of_convert? converted with ⟨k, natural, rfl, narrow⟩
  refine ⟨k, rfl, ?_⟩
  cases holds with
  | number =>
      by_cases fits : Fits64 n
      · rw [Layered.ofDecimal, if_pos fits] at natural
        exact loads_of_fits fits natural narrow
      · exact loads_of_beyond fits natural narrow
  | text read => exact loads_of_text read natural narrow

end

/-- The last word on a setting is a decimal integer, held as `found`: it is in the file, and no
variable touches the way to the setting, or it is in the variable of the setting, and no later one
touches that way. -/
inductive Given (path : Option String) (files : Layered.Files) (field : Field) (n : Int) :
    Found → Environment → Prop where
  | file {members : List (String × Value)} {origin : Option String} {found : Found}
      {environment : Environment} (read : fileMembers path files = .ok members)
      (there : (Value.emptyTable.layer members).at? field.route = some (.scalar origin found))
      (holds : Holds n found)
      (others : ∀ entry ∈ environment, ∀ key, variableKey? entry.1 = some key →
        KeyAvoids field.route key) :
      Given path files field n found environment
  | override {before after : Environment} {name text : String}
      (named : lowerName name = lowerName field.variable)
      (decimal : decimal? text.toList = some n)
      (others : ∀ entry ∈ after, ∀ key, variableKey? entry.1 = some key →
        KeyAvoids field.route key) :
      Given path files field n (Layered.ofDecimal n) (before ++ (name, text) :: after)

/-- Variables that do not touch the way to a setting leave what a configuration has for it. -/
theorem at?_layer_of_avoids {environment : Environment} {field : Field}
    (others : ∀ entry ∈ environment, ∀ key, variableKey? entry.1 = some key →
      KeyAvoids field.route key) (root : Value) :
    (root.layer environment.members).at? field.route = root.at? field.route := by
  obtain ⟨first, names, route⟩ : ∃ first names, field.route = first :: names := by
    rw [Field.route]
    cases field.group? <;> exact ⟨_, _, rfl⟩
  rw [route] at others ⊢
  induction environment generalizing root with
  | nil => rfl
  | cons entry environment ih =>
      have later (root : Value) :=
        ih root fun entry member => others entry (List.mem_cons_of_mem _ member)
      rw [members_cons]
      rcases isKey : variableKey? entry.1 with _ | key
      · exact later root
      · have avoids := others entry List.mem_cons_self key isKey
        exact (later _).trans (Value.at?_putAt_of_avoids avoids _ root)

/-- What has the last word on a setting is found at the end of its route. -/
theorem Given.at?_layers {path : Option String} {files : Layered.Files}
    {environment : Environment} {field : Field} {n : Int} {found : Found}
    (given : Given path files field n found environment) {members : List (String × Value)}
    (read : fileMembers path files = .ok members) :
    ∃ origin, ((Value.emptyTable.layer members).layer environment.members).at? field.route =
      some (.scalar origin found) := by
  cases given with
  | @file others origin _ _ isRead there holds avoids =>
      cases isRead.symm.trans read
      exact ⟨origin, (at?_layer_of_avoids avoids _).trans there⟩
  | @override before after name text named decimal avoids =>
      refine ⟨some Layered.environmentOrigin, ?_⟩
      have parts : Environment.members (before ++ (name, text) :: after) =
          Environment.members before ++
            (field.key, .scalar (some Layered.environmentOrigin) (Layered.ofDecimal n)) ::
              Environment.members after := by
        rw [Environment.members, List.filterMap_append]
        change Environment.members before ++ Environment.members ((name, text) :: after) = _
        rw [members_cons, variableKey?_of_variable named,
          Layered.variableValue_of_decimal? decimal]
      rw [parts, Value.layer, List.foldl_append, List.foldl_cons]
      refine (at?_layer_of_avoids avoids _).trans ?_
      rw [Field.at?_putAt_key, if_pos rfl]

/-- An integer that has the last word on a setting is what the setting becomes, or loading fails,
unless the integer has more than 63 bits and is held as a number. -/
theorem ofLayers_integer {path : Option String} {files : Layered.Files}
    {environment : Environment} {field : Field} {width : Width}
    {store : Nat → Settings → Settings} (leaf : field.leaf = .natural width store) {n : Int}
    {found : Found} (given : Given path files field n found environment) {s : Settings}
    (loaded : ofLayers path files environment = .ok s) :
    ∃ k, field.get s = .natural k ∧ Loads n width found k := by
  have holds : Holds n found := by
    cases given with
    | file _ _ holds _ => exact holds
    | override => exact .number
  rcases exists_members_of_ofLayers loaded with ⟨members, read⟩
  rcases given.at?_layers read with ⟨origin, found⟩
  rw [ofLayers_eq read] at loaded
  rcases Field.exists_convert? found loaded with ⟨datum, converted⟩
  rcases loads_of_convert? holds (leaf ▸ converted) with ⟨k, rfl, loads⟩
  refine ⟨k, ?_, loads⟩
  rw [Field.get_readMembersLayered (distinct_layers members environment) _ _ loaded, found,
    Option.bind_some, converted, Option.getD_some]
  · exact fun name place => Field.tabular_of_at? found place
  · intro value datum isThere made
    cases found.symm.trans isThere
    cases converted.symm.trans made
    rw [leaf]
    exact loads.le_largest

/-- A variable gives a port. -/
theorem ofLayers_integer_port :
    ofLayers none {} [("HUE_DISCOVERY__UPNP__PORT", "8080")] =
        .ok { multicast := { port := 8080 } } ∧
      ∃ k, Field.get .multicastPort { multicast := { port := 8080 } } = .natural k ∧
        Loads 8080 .bits16 (Layered.ofDecimal 8080) k := by
  have loaded : ofLayers none {} [("HUE_DISCOVERY__UPNP__PORT", "8080")] =
      .ok { multicast := { port := 8080 } } :=
    toOption_eq_some.mp (by decide +kernel)
  have given : Given none {} .multicastPort 8080 (Layered.ofDecimal 8080)
      [("HUE_DISCOVERY__UPNP__PORT", "8080")] :=
    @Given.override none {} .multicastPort 8080 [] [] _ _ (by decide +kernel) (by decide +kernel)
      nofun
  exact ⟨loaded, ofLayers_integer rfl given loaded⟩

/-- An integer beyond 64 bits becomes another one and a small one becomes zero, which is not even a
port.  The same integers are refused if the file is read alone. -/
theorem integer_beyond_range :
    ofLayers none {} [("HUE_DISCOVERY__HTTP_TIMEOUT_MS", "18446744073709551616")] =
        .ok { httpTimeout := 18446744073709551615 } ∧
      ofLayers none {} [("HUE_DISCOVERY__UPNP__PORT", "-9223372036854775809")] =
        .ok { multicast := { port := 0 } } ∧
      (ofYaml "http_timeout_ms: 18446744073709551616\n").toOption = none ∧
      (ofYaml "upnp:\n  port: -9223372036854775809\n").toOption = none :=
  ⟨toOption_eq_some.mp (by decide +kernel), toOption_eq_some.mp (by decide +kernel),
    by decide +kernel, by decide +kernel⟩

end BridgeFinder.Settings
