import BridgeFinder.Options
import BridgeFinder.Proofs.Text.Case
import Mathlib.Data.Nat.Bitwise

/-!
# Reading the options

A text of options is a list of names, with commas between them.  What is read from it depends on
the names alone: they are all names of kinds and the bits of these kinds are set, or there is a
first one that is not, and then it is quoted.
-/

namespace BridgeFinder

/-! ## Bits -/

/-- The place of the bit of a kind. -/
def Kind.bit : Kind → Nat
  | upnp => 0
  | ipscan => 1
  | nupnp => 2
  | mdns => 3

namespace Options

variable {options first second : Options} {kind : Kind} {i : Nat}

/-- The bit at a place is set. -/
def Has (options : Options) (i : Nat) : Prop :=
  options.bits.toNat.testBit i = true

theorem ext_has (same : ∀ i, first.Has i ↔ second.Has i) : first = second := by
  have bits : first.bits.toNat = second.bits.toNat :=
    Nat.eq_of_testBit_eq fun i => Bool.eq_iff_iff.mpr (same i)
  cases first
  cases second
  exact congrArg Options.mk (UInt32.toNat_inj.mp bits)

@[simp]
theorem not_has_empty : ¬ empty.Has i := by
  simp [Has, empty]

@[simp]
theorem has_union : (first ∪ second).Has i ↔ first.Has i ∨ second.Has i := by
  change (first.bits ||| second.bits).toNat.testBit i = true ↔ _
  rw [UInt32.toNat_or, Nat.testBit_or, Bool.or_eq_true]
  rfl

/-- A set of options contains another one exactly if every bit that is set there is set. -/
theorem contains_iff : first.contains second = true ↔ ∀ i, second.Has i → first.Has i := by
  let both : Options := ⟨first.bits &&& second.bits⟩
  have has_both (i : Nat) : both.Has i ↔ first.Has i ∧ second.Has i := by
    simp only [both, Has, UInt32.toNat_and, Nat.testBit_and, Bool.and_eq_true]
  rw [contains, beq_iff_eq]
  constructor
  · intro same i has
    have same : both = second := congrArg Options.mk same
    rw [← same, has_both] at has
    exact has.1
  · intro within
    have same : both = second :=
      ext_has fun i => (has_both i).trans (and_iff_right_of_imp (within i))
    exact congrArg Options.bits same

@[simp]
theorem has_option : kind.option.Has i ↔ kind.bit = i := by
  have power : kind.option.bits.toNat = 2 ^ kind.bit := by cases kind <;> rfl
  rw [Has, power, Nat.testBit_two_pow, decide_eq_true_eq]

theorem has_all : all.Has i ↔ ∃ kind : Kind, kind.bit = i := by
  have power : all.bits.toNat = 2 ^ 4 - 1 := rfl
  rw [Has, power, Nat.testBit_two_pow_sub_one, decide_eq_true_eq]
  constructor
  · intro less
    match i with
    | 0 => exact ⟨.upnp, rfl⟩
    | 1 => exact ⟨.ipscan, rfl⟩
    | 2 => exact ⟨.nupnp, rfl⟩
    | 3 => exact ⟨.mdns, rfl⟩
  · rintro ⟨kind, rfl⟩
    cases kind <;> decide

/-- A kind is selected if its bit is set, whatever other bits are. -/
theorem contains_option_iff : options.contains kind.option = true ↔ options.Has kind.bit := by
  simp [contains_iff]

/-- Options are known if only bits of kinds are set. -/
theorem isKnown_iff :
    options.isKnown = true ↔ ∀ i, options.Has i → ∃ kind : Kind, kind.bit = i := by
  simp only [isKnown, contains_iff, has_all]

end Options

/-! ## Names -/

/-- The text is the name of a kind. -/
def Kind.IsName (name : String) : Prop :=
  ∃ kind : Kind, kind.name = name

theorem Kind.lookup_named_eq_some {name : String} {kind : Kind} :
    named.lookup name = some kind ↔ kind.name = name := by
  constructor
  · intro found
    rcases List.lookup_eq_some_iff.mp found with ⟨before, after, split, -⟩
    have member : (name, kind) ∈ named := split ▸ List.mem_append_right _ List.mem_cons_self
    rcases List.mem_map.mp member with ⟨_, -, same⟩
    cases same
    rfl
  · rintro rfl
    cases kind <;> rfl

theorem Kind.lookup_named_eq_none {name : String} : named.lookup name = none ↔ ¬ IsName name := by
  simp [Option.eq_none_iff_forall_ne_some, lookup_named_eq_some, IsName]

theorem Kind.name_inj {first second : Kind} : first.name = second.name ↔ first = second := by
  rw [← lookup_named_eq_some, lookup_named_eq_some.mpr rfl, Option.some.injEq, eq_comm]

namespace Options

/-- The names in a list of parts: those of the parts that are not blank, without the blanks around
them and in lower case. -/
def namesIn (parts : List (List Char)) : List String :=
  ((parts.map Text.trim).filter (· ≠ [])).map fun part => Text.lower (String.ofList part)

/-- The names in a text, between commas. -/
def names (text : String) : List String :=
  namesIn (text.toList.splitOn ',')

/-- The first text in a list that is not the name of a kind. -/
def IsFirstUnknown (names : List String) (name : String) : Prop :=
  ∃ before after, names = before ++ name :: after ∧ (∀ known ∈ before, Kind.IsName known) ∧
    ¬ Kind.IsName name

section

variable {options result : Options} {names more : List String} {name first : String}

theorem isFirstUnknown_cons : IsFirstUnknown (first :: names) name ↔
    ¬ Kind.IsName first ∧ first = name ∨ Kind.IsName first ∧ IsFirstUnknown names name := by
  constructor
  · rintro ⟨before, after, split, known, unknown⟩
    cases before with
    | nil =>
        cases split
        exact .inl ⟨unknown, rfl⟩
    | cons head before =>
        cases split
        rcases List.forall_mem_cons.mp known with ⟨here, known⟩
        exact .inr ⟨here, before, after, rfl, known, unknown⟩
  · rintro (⟨unknown, rfl⟩ | ⟨here, before, after, rfl, known, unknown⟩)
    · exact ⟨[], names, rfl, nofun, unknown⟩
    · exact ⟨first :: before, after, rfl, List.forall_mem_cons.mpr ⟨here, known⟩, unknown⟩

theorem IsFirstUnknown.append_right (unknown : IsFirstUnknown names name) :
    IsFirstUnknown (names ++ more) name := by
  rcases unknown with ⟨before, after, rfl, known, unknown⟩
  exact ⟨before, after ++ more, by simp, known, unknown⟩

theorem IsFirstUnknown.append_left (unknown : IsFirstUnknown names name)
    (known : ∀ name ∈ more, Kind.IsName name) : IsFirstUnknown (more ++ names) name := by
  rcases unknown with ⟨before, after, rfl, rest, unknown⟩
  exact ⟨more ++ before, after, by simp, List.forall_mem_append.mpr ⟨known, rest⟩, unknown⟩

/-! ## Adding names -/

/-- Add the kinds with the names of a list, up to the first that is not the name of a kind. -/
def addNames (options : Options) : List String → Except Kind.Unknown Options
  | [] => .ok options
  | name :: rest =>
      match Kind.named.lookup name with
      | some kind => addNames (options ∪ kind.option) rest
      | none => .error ⟨name⟩

theorem addNames_eq_ok : addNames options names = .ok result ↔
    (∀ name ∈ names, Kind.IsName name) ∧
      ∀ i, result.Has i ↔ options.Has i ∨ ∃ kind : Kind, kind.bit = i ∧ kind.name ∈ names := by
  induction names generalizing options with
  | nil =>
      simp only [addNames, Except.ok.injEq, List.not_mem_nil, and_false, exists_false, or_false]
      constructor
      · rintro rfl
        exact ⟨nofun, fun _ => Iff.rfl⟩
      · exact fun ⟨_, same⟩ => (ext_has same).symm
  | cons name rest ih =>
      rw [addNames]
      cases found : Kind.named.lookup name with
      | none =>
          have unknown := Kind.lookup_named_eq_none.mp found
          simp [unknown]
      | some kind =>
          obtain rfl := Kind.lookup_named_eq_some.mp found
          have known : Kind.IsName kind.name := ⟨kind, rfl⟩
          simp [ih, known, Kind.name_inj, and_or_left, exists_or, or_assoc, eq_comm]

theorem addNames_eq_error : addNames options names = .error ⟨name⟩ ↔ IsFirstUnknown names name := by
  induction names generalizing options with
  | nil => simp [addNames, IsFirstUnknown]
  | cons first rest ih =>
      rw [addNames, isFirstUnknown_cons]
      cases found : Kind.named.lookup first with
      | none => simp [Kind.lookup_named_eq_none.mp found]
      | some kind =>
          obtain rfl := Kind.lookup_named_eq_some.mp found
          have known : Kind.IsName kind.name := ⟨kind, rfl⟩
          simp [ih, known]

theorem addParts_eq_addNames (parts : List (List Char)) :
    addParts options parts = addNames options (namesIn parts) := by
  induction parts generalizing options with
  | nil => rfl
  | cons part rest ih =>
      rw [addParts]
      cases trimmed : Text.trim part with
      | nil => simp [ih, namesIn, trimmed]
      | cons c name =>
          have head : namesIn (part :: rest) =
              Text.lower (String.ofList (c :: name)) :: namesIn rest := by
            simp [namesIn, trimmed]
          rw [head, addNames]
          simp only [Kind.parse]
          cases Kind.named.lookup (Text.lower (String.ofList (c :: name))) with
          | none => rfl
          | some kind => exact ih

end

/-! ## Reading a text -/

theorem parts_eq_splitOn (text : List Char) : parts text = text.splitOn ',' := by
  induction text with
  | nil => rfl
  | cons c rest ih =>
      rw [parts, ih, List.splitOn_cons_eq_if_modifyHead]
      rcases List.exists_cons_of_ne_nil (List.splitOnP_ne_nil (· == ',') rest) with
        ⟨part, more, split⟩
      rw [List.splitOn, split]
      simp

theorem parse_eq_addNames (text : String) : parse text = addNames empty (names text) := by
  rw [parse, parts_eq_splitOn, addParts_eq_addNames, names]

/-- The bits that are set are those of the kinds that are named. -/
def Selects (options : Options) (names : List String) : Prop :=
  ∀ i, options.Has i ↔ ∃ kind : Kind, kind.bit = i ∧ kind.name ∈ names

variable {options : Options} {text other : String}

theorem parse_eq_ok : parse text = .ok options ↔
    (∀ name ∈ names text, Kind.IsName name) ∧ options.Selects (names text) := by
  simp [parse_eq_addNames, addNames_eq_ok, Selects]

theorem parse_eq_error {unknown : Kind.Unknown} :
    parse text = .error unknown ↔ IsFirstUnknown (names text) unknown.text := by
  rw [parse_eq_addNames, ← addNames_eq_error]

/-- The names in two texts with a comma between them are those of both. -/
theorem names_append (first second : String) :
    names (first ++ "," ++ second) = names first ++ names second := by
  have split : (first ++ "," ++ second).toList = first.toList ++ ',' :: second.toList := by simp
  have parts : (first.toList ++ ',' :: second.toList).splitOn ',' =
      first.toList.splitOn ',' ++ second.toList.splitOn ',' :=
    List.splitOnP_append_cons _ _ (by simp)
  rw [names, split, parts]
  simp [namesIn, names]

/-- Reading two texts with a comma between them is reading one and then the other. -/
theorem parse_append (first second : String) :
    parse (first ++ "," ++ second) =
      (do
        let one ← parse first
        let other ← parse second
        return one ∪ other) := by
  cases readFirst : parse first with
  | error unknown =>
      have here := parse_eq_error.mp readFirst
      exact parse_eq_error.mpr (names_append first second ▸ here.append_right)
  | ok one =>
      have known := parse_eq_ok.mp readFirst
      cases readSecond : parse second with
      | error unknown =>
          have there := parse_eq_error.mp readSecond
          exact parse_eq_error.mpr (names_append first second ▸ there.append_left known.1)
      | ok other =>
          have knownToo := parse_eq_ok.mp readSecond
          apply parse_eq_ok.mpr
          rw [names_append]
          refine ⟨List.forall_mem_append.mpr ⟨known.1, knownToo.1⟩, fun i => ?_⟩
          rw [has_union, known.2 i, knownToo.2 i]
          simp [and_or_left, exists_or]

theorem mem_names {name : String} : name ∈ names text ↔
    ∃ part ∈ text.toList.splitOn ',', ∃ core, core ≠ [] ∧ Text.Trims core part ∧
      name = Text.lower (String.ofList core) := by
  simp only [names, namesIn, List.mem_map, List.mem_filter, decide_eq_true_eq]
  constructor
  · rintro ⟨core, ⟨⟨part, member, trimmed⟩, filled⟩, rfl⟩
    exact ⟨part, member, core, filled, (Text.trim_eq_iff filled).mp trimmed, rfl⟩
  · rintro ⟨part, member, core, filled, trims, rfl⟩
    exact ⟨core, ⟨⟨part, member, (Text.trim_eq_iff filled).mpr trims⟩, filled⟩, rfl⟩

theorem exists_parse_eq_ok :
    (∃ options, parse text = .ok options) ↔ ∀ name ∈ names text, Kind.IsName name := by
  constructor
  · rintro ⟨options, read⟩
    exact (parse_eq_ok.mp read).1
  · intro known
    cases read : parse text with
    | ok options => exact ⟨options, rfl⟩
    | error unknown =>
        rcases parse_eq_error.mp read with ⟨before, after, split, -, offends⟩
        have member : unknown.text ∈ names text := by simp [split]
        exact absurd (known _ member) offends

theorem Selects.isKnown {names : List String} (selects : options.Selects names) :
    options.isKnown = true := by
  rw [isKnown_iff]
  intro i has
  rcases (selects i).mp has with ⟨kind, here, -⟩
  exact ⟨kind, here⟩

/-- Texts with the same names, in whatever order, are read as the same, or both are refused for
different names. -/
theorem parse_congr_names (same : ∀ name, name ∈ names text ↔ name ∈ names other) :
    parse text = parse other ∨ ∃ one two : Kind.Unknown, one ≠ two ∧
      parse text = .error one ∧ parse other = .error two := by
  have alike : (∃ options, parse text = .ok options) ↔ ∃ options, parse other = .ok options := by
    simp only [exists_parse_eq_ok, same]
  cases read : parse text with
  | ok options =>
      rcases alike.mp ⟨options, read⟩ with ⟨options', readOther⟩
      rw [readOther]
      left
      congr 1
      apply ext_has
      intro i
      rw [(parse_eq_ok.mp read).2 i, (parse_eq_ok.mp readOther).2 i]
      simp only [same]
  | error one =>
      cases readOther : parse other with
      | ok options =>
          rcases alike.mpr ⟨options, readOther⟩ with ⟨options', here⟩
          rw [read] at here
          cases here
      | error two =>
          by_cases agree : one = two
          · exact .inl (congrArg Except.error agree)
          · exact .inr ⟨one, two, agree, rfl, rfl⟩

/-! ## Case -/

theorem splitOn_map_toLower (text : List Char) :
    (text.map Char.toLower).splitOn ',' = (text.splitOn ',').map (List.map Char.toLower) := by
  induction text with
  | nil => rfl
  | cons c rest ih =>
      have comma : (c.toLower == ',') = (c == ',') :=
        Text.toLower_congr (· == ',') (by decide) c
      rw [List.map_cons, List.splitOn_cons_eq_if_modifyHead, List.splitOn_cons_eq_if_modifyHead,
        ih, comma]
      rcases List.exists_cons_of_ne_nil (List.splitOnP_ne_nil (· == ',') rest) with
        ⟨part, more, split⟩
      rw [List.splitOn, split]
      split
      · rfl
      · rfl

/-- Lowering a text beforehand changes no name in it. -/
theorem names_lower (text : String) : names (Text.lower text) = names text := by
  have lowered (c : Char) : c.toLower.toLower = c.toLower :=
    Text.toLower_congr Char.toLower (by decide) c
  simp [names, namesIn, Text.lower, splitOn_map_toLower, Text.trim_map_toLower, List.filter_map,
    Function.comp_def, lowered]

/-! ## The account -/

/-- What is read from a text, whatever it is.

Two texts with a comma between them give what both give together, or the first failure.  The names
in a text are its parts between commas, without the blanks around them and in lower case, as far as
there is anything left of them.  All of them must be names of kinds, and then the bits of just these
kinds are set; otherwise the first that is not is quoted.  So case, blanks and empty parts do not
matter.  The order and the number of the names do not matter either, except that it depends on the
order which one is quoted if there are several to choose from. -/
theorem parse_account :
    (∀ first second, parse (first ++ "," ++ second) =
      (do
        let one ← parse first
        let other ← parse second
        return one ∪ other)) ∧
    (∀ text name, name ∈ names text ↔
      ∃ part ∈ text.toList.splitOn ',', ∃ core, core ≠ [] ∧ Text.Trims core part ∧
        name = Text.lower (String.ofList core)) ∧
    (∀ text, (∃ options, parse text = .ok options) ↔ ∀ name ∈ names text, Kind.IsName name) ∧
    (∀ text options, parse text = .ok options →
      options.Selects (names text) ∧ options.isKnown = true) ∧
    (∀ text unknown, parse text = .error unknown ↔ IsFirstUnknown (names text) unknown.text) ∧
    (∀ unknown : Kind.Unknown,
      unknown.message = "unknown discovery method '" ++ unknown.text ++ "'") ∧
    (∀ text, parse (Text.lower text) = parse text) ∧
    (∀ text other, names text = names other → parse text = parse other) ∧
    ∀ text other, (∀ name, name ∈ names text ↔ name ∈ names other) →
      parse text = parse other ∨ ∃ one two : Kind.Unknown, one ≠ two ∧
        parse text = .error one ∧ parse other = .error two := by
  refine ⟨parse_append, fun _ _ => mem_names, fun _ => exists_parse_eq_ok, ?_,
    fun _ _ => parse_eq_error, fun _ => rfl, ?_, ?_, fun _ _ => parse_congr_names⟩
  · intro text options read
    have selects := (parse_eq_ok.mp read).2
    exact ⟨selects, selects.isKnown⟩
  · intro text
    rw [parse_eq_addNames, names_lower, ← parse_eq_addNames]
  · intro text other same
    rw [parse_eq_addNames, same, ← parse_eq_addNames]

/-- If several parts are no names, their order decides which of them is quoted. -/
theorem parse_quotes_first :
    (∀ name, name ∈ names "x,y" ↔ name ∈ names "y,x") ∧ parse "x,y" = .error ⟨"x"⟩ ∧
      parse "y,x" = .error ⟨"y"⟩ ∧ parse "x,y" ≠ parse "y,x" := by
  have first : names "x,y" = ["x", "y"] := rfl
  have second : names "y,x" = ["y", "x"] := rfl
  refine ⟨fun name => ?_, rfl, rfl, by decide⟩
  simp [first, second, or_comm]

end Options

end BridgeFinder
