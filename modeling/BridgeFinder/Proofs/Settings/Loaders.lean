import BridgeFinder.Proofs.Settings.Sources
import BridgeFinder.Proofs.Settings.Yaml

/-!
# Two loaders of one document

A YAML document can be read alone, or as the file of a layered configuration.  Both give the same
settings if the document is written so that both take its scalars for the same values and if its
unknown keys cannot be mistaken for names of settings.  Without that they may differ: a document
without content is a configuration for the first loader only.
-/

namespace BridgeFinder.Settings

open Layered (HasValue KeyClear Named NamedOnce Readable Value Environment keyText lowerName
  memberNamed? membersOf plainMeaning takenFor? valueOf)
open Number (decimal? powerOfTwo)
open Yaml (Document Node)

/-! ## Scalars that are taken alike -/

/-- A natural number as both loaders read it: in decimal, or in one of two other bases. -/
inductive Numeral : List Char → Nat → Prop where
  | decimal {text : List Char} {n : Nat} (read : decimal? text = some (n : Int)) : Numeral text n
  | hexadecimal {digits : List Char} {n : Nat} (read : Text.naturalInBase? 16 digits = some n) :
      Numeral ('0' :: 'x' :: digits) n
  | octal {digits : List Char} {n : Nat} (read : Text.naturalInBase? 8 digits = some n) :
      Numeral ('0' :: 'o' :: digits) n

/-- A scalar that is taken for a value with the number that is written. -/
def Counted (node : Node) : Prop :=
  ∃ mark scalar found n, node = .scalar mark scalar ∧ takenFor? scalar = some found ∧
    Numeral scalar.text n ∧ toNatural "" (.scalar none found) = .ok n

/-- A scalar that is taken for a value with the text that is written. -/
def Spelled (node : Node) : Prop :=
  ∃ mark scalar found, node = .scalar mark scalar ∧ takenFor? scalar = some found ∧
    toText "" (.scalar none found) = .ok (String.ofList scalar.text)

/-- A node from which both loaders make the same value of a leaf. -/
def Leaf.Agrees (leaf : Leaf) (node : Node) : Prop :=
  match leaf with
  | .natural _ _ => Counted node
  | .text _ | .address _ => Spelled node
  | .texts _ => ∃ mark tag elements, node = .sequence mark tag elements ∧
      ∀ element ∈ elements, Spelled element

section

variable {text : List Char} {n limit k : Nat}

/-- The digits of another base have no sign. -/
theorem takeSign_of_naturalInBase? {base : Nat} {digits : List Char}
    (read : Text.naturalInBase? base digits = some n) :
    Number.Binary64.takeSign digits = (false, digits) := by
  have noSign (sign : Char) (other : Text.hexValue? sign = none) (rest : List Char) :
      Text.naturalInBase? base (sign :: rest) = none := by
    simp [Text.naturalInBase?, other]
  apply Number.takeSign_of_unsigned
  rcases digits with _ | ⟨c, rest⟩
  · nofun
  · rintro d ⟨⟩
    constructor <;> rintro rfl
    · cases read.symm.trans (noSign '-' (by decide) rest)
    · cases read.symm.trans (noSign '+' (by decide) rest)

/-- What the loader of layered configurations takes a numeral for. -/
theorem Numeral.plainMeaning_eq (numeral : Numeral text n) (small : n < powerOfTwo 63) :
    plainMeaning text = .value (.integer n) := by
  have based {base : Nat} {digits : List Char} (read : Text.naturalInBase? base digits = some n) :
      Layered.basedInteger? base digits = some (n : Int) := by
    simp [Layered.basedInteger?, takeSign_of_naturalInBase? read, read, small]
  cases numeral with
  | decimal read =>
      have fits : Number.Fits64 n := ⟨by omega, by omega⟩
      rw [Layered.plainMeaning_of_decimal? read, if_pos fits]
  | hexadecimal read => rw [plainMeaning, Layered.markedInteger?, based read]
  | octal read => rw [plainMeaning, Layered.markedInteger?, based read]

/-- A mark of a base is not among decimal digits. -/
theorem natural?_marked {mark : Char} (other : mark.isDigit = false) (zero : Char)
    (digits : List Char) : Text.natural? (zero :: mark :: digits) = none := by
  rcases read : Text.natural? (zero :: mark :: digits) with _ | n
  · rfl
  · have digit := (Text.isDigit_of_natural? read).2 mark (by simp)
    rw [other] at digit
    cases digit

theorem decimal?_marked {mark : Char} (other : mark.isDigit = false) {digits : List Char}
    (same : (if text.head? = some '+' then text.drop 1 else text) = '0' :: mark :: digits) :
    decimal? text = none := by
  rw [decimal?, Option.map_eq_none_iff]
  rcases text with _ | ⟨c, text⟩
  · cases same
  · by_cases plus : c = '+'
    · subst plus
      have same : text = '0' :: mark :: digits := by simpa using same
      subst same
      exact natural?_marked other '0' digits
    · rw [if_neg (by simpa using plus)] at same
      cases same
      exact natural?_marked other '0' digits

/-- A natural number that is read is written in a scalar, and is in range. -/
theorem natural?_of_naturalOf {document : Document} {mark : Yaml.Mark} {scalar : Yaml.Scalar}
    {width : Width} {path : List Step} {k : Nat}
    (read : naturalOf document path width (.scalar mark scalar) = .ok k) :
    Yaml.natural? (powerOfTwo 64 - 1) scalar.text = some k ∧ k ≤ width.largest := by
  simp only [naturalOf, follow] at read
  split at read
  · next n isNumber =>
      split at isNumber
      · split at read
        · next inside =>
            cases read
            exact ⟨isNumber, inside⟩
        · cases read
      · cases isNumber
  · cases read

/-- What the loader of documents takes a numeral for, if it accepts it. -/
theorem Numeral.eq_of_natural? (numeral : Numeral text n)
    (read : Yaml.natural? limit text = some k) : k = n := by
  simp only [Yaml.natural?] at read
  split at read
  · next based =>
      cases read
      cases numeral with
      | decimal isDecimal =>
          rw [Yaml.based?.eq_def] at based
          split at based
          · next same => cases isDecimal.symm.trans (decimal?_marked (by decide) same)
          · next same => cases isDecimal.symm.trans (decimal?_marked (by decide) same)
          · next same => cases isDecimal.symm.trans (decimal?_marked (by decide) same)
          · cases based
      | hexadecimal isHex =>
          rcases Option.filter_eq_some_iff.mp based with ⟨value, -⟩
          exact Option.some.inj (value.symm.trans isHex)
      | octal isOctal =>
          rcases Option.filter_eq_some_iff.mp based with ⟨value, -⟩
          exact Option.some.inj (value.symm.trans isOctal)
  · split at read
    · cases read
    · rcases Option.filter_eq_some_iff.mp read with ⟨natural, -⟩
      cases numeral with
      | decimal isDecimal => exact (Int.ofNat.inj (Number.eq_of_natural? isDecimal natural)).symm
      | hexadecimal isHex =>
          cases natural.symm.trans (natural?_marked (by decide) _ _)
      | octal isOctal =>
          cases natural.symm.trans (natural?_marked (by decide) _ _)

end

section

variable {document : Document} {node : Node} {origin : String} {datum : Datum}

/-- A numeral below `2 ^ 63` without a tag is taken for the number that is written. -/
theorem counted_of_numeral {text : List Char} {n : Nat} (numeral : Numeral text n)
    (small : n < powerOfTwo 63) (mark : Yaml.Mark) :
    Counted (.scalar mark ⟨none, .plain, text⟩) := by
  have meant : Layered.meaning ⟨none, .plain, text⟩ = _ := numeral.plainMeaning_eq small
  refine ⟨mark, _, .integer n, n, rfl, ?_, numeral, ?_⟩
  · rw [takenFor?, meant]
  · simp [toNatural, Value.found]

/-- A scalar in quotes is taken for its text. -/
theorem spelled_of_quoted {scalar : Yaml.Scalar} (quoted : scalar.style ≠ .plain)
    (mark : Yaml.Mark) : Spelled (.scalar mark scalar) := by
  refine ⟨mark, scalar, .string (String.ofList scalar.text), rfl, ?_, rfl⟩
  rw [takenFor?, Layered.meaning, if_pos quoted]

/-- An address without a tag is taken for its text. -/
theorem spelled_of_parse? {text : String} {address : Net.Ipv4}
    (read : Net.Ipv4.parse? text = some address) (mark : Yaml.Mark) :
    Spelled (.scalar mark ⟨none, .plain, text.toList⟩) := by
  have meant : Layered.meaning ⟨none, .plain, text.toList⟩ = _ :=
    Layered.plainMeaning_of_parse? read
  refine ⟨mark, _, .string text, rfl, ?_, ?_⟩
  · rw [takenFor?, meant]
  · rw [String.ofList_toList]
    rfl

/-- Both loaders take a spelled scalar for its text. -/
theorem Spelled.texts (spelled : Spelled node) (origin : String) (document : Document) :
    HasValue origin node ∧ ∃ text, (toText "" (valueOf origin node)).toOption = some text ∧
      textOf document [] "" node = .ok text := by
  rcases spelled with ⟨mark, scalar, found, rfl, taken, isText⟩
  have value := Layered.hasValue_scalar origin mark taken
  refine ⟨value.1, _, ?_, rfl⟩
  rw [value.2, toOption_toText_scalar, isText]
  rfl

theorem mapM_spelled {elements : List Node} (each : ∀ element ∈ elements, Spelled element)
    (origin : String) (document : Document) :
    ((elements.map (valueOf origin)).mapM fun value => (toText "" value).toOption) =
      elements.mapM fun node => (textOf document [] "" node).toOption := by
  induction elements with
  | nil => rfl
  | cons element elements ih =>
      rcases (each element List.mem_cons_self).texts origin document with ⟨-, text, value, read⟩
      rw [List.map_cons, List.mapM_cons, List.mapM_cons, value, read,
        ih fun element member => each element (List.mem_cons_of_mem _ member)]
      rfl

/-- From a node on which they agree both loaders make the same value. -/
theorem Leaf.Agrees.convert? {leaf : Leaf} (agrees : leaf.Agrees node)
    (made : leaf.ofNode? document node = some datum) (origin : String) :
    HasValue origin node ∧ leaf.convert? (valueOf origin node) = some datum := by
  cases leaf with
  | natural width store =>
      rcases agrees with ⟨mark, scalar, found, n, rfl, taken, numeral, isNumber⟩
      rcases Layered.hasValue_scalar origin mark taken with ⟨hasValue, value⟩
      refine ⟨hasValue, ?_⟩
      rcases Option.map_eq_some_iff.mp made with ⟨k, read, rfl⟩
      rcases natural?_of_naturalOf (toOption_eq_some.mp read) with ⟨natural, inside⟩
      cases numeral.eq_of_natural? natural
      have isNatural : toNatural "" (.scalar (some origin) found) = .ok n := by
        rw [← toOption_eq_some, toOption_toNatural_scalar, isNumber]
        rfl
      rw [value, Leaf.convert?, toNaturalIn_eq_ok.mpr ⟨isNatural, fun _ _ => inside⟩]
      rfl
  | text store | address store =>
      rcases Spelled.texts agrees origin document with ⟨hasValue, text, value, read⟩
      refine ⟨hasValue, ?_⟩
      rw [ofNode?, read] at made
      rw [Leaf.convert?, value]
      exact made
  | texts store =>
      rcases agrees with ⟨mark, tag, elements, rfl, each⟩
      have values := Layered.hasValue_sequence origin mark tag
        fun element member => ((each element member).texts origin document).1
      refine ⟨values.1, ?_⟩
      rw [values.2, Leaf.convert?, toOption_toTexts, mapM_spelled each origin document]
      simp only [ofNode?, follow, toOption_textsFrom] at made
      exact made

end

/-! ## Documents -/

/-- A key that is no name at the top and cannot be mistaken for one: it is none in lower case, and
no path that begins with one. -/
def Foreign (key : String) : Prop :=
  ∀ name entry, schema.lookup name = some entry → KeyClear name key ∧ lowerName key ≠ name

/-- The mapping of a document that both loaders take alike. -/
structure Alike (pairs : List (Node × Node)) : Prop where
  mapped : Mapped pairs
  leaves : ∀ (field : Field) node, field.node? pairs = some node → field.leaf.Agrees node
  others : ∀ pair ∈ pairs, schema.lookup (keyText pair.1) = none →
    Foreign (keyText pair.1) ∧ Readable pair.2
  within : ∀ name group node, schema.lookup name = some (.group group) →
    (nodesOf pairs).lookup name = some node → ∀ pair ∈ pairsOf node,
      group.leaves.lookup (keyText pair.1) = none →
        (∀ other leaf, group.leaves.lookup other = some leaf →
          lowerName (keyText pair.1) ≠ other) ∧ Readable pair.2

theorem lowerName_of_schema {name : String} {entry : Entry}
    (known : schema.lookup name = some entry) : lowerName name = name := by
  have member := mem_of_lookup known
  simp only [schema, List.mem_cons, Prod.mk.injEq, List.not_mem_nil, or_false] at member
  rcases member with ⟨rfl, -⟩ | ⟨rfl, -⟩ | ⟨rfl, -⟩ | ⟨rfl, -⟩ | ⟨rfl, -⟩ | ⟨rfl, -⟩ | ⟨rfl, -⟩ <;>
    decide

theorem isWord_of_schema {name : String} {entry : Entry}
    (known : schema.lookup name = some entry) : Layered.IsWord name := by
  have member := mem_of_lookup known
  simp only [schema, List.mem_cons, Prod.mk.injEq, List.not_mem_nil, or_false] at member
  rcases member with ⟨rfl, -⟩ | ⟨rfl, -⟩ | ⟨rfl, -⟩ | ⟨rfl, -⟩ | ⟨rfl, -⟩ | ⟨rfl, -⟩ | ⟨rfl, -⟩ <;>
    exact .inr (by decide)

theorem lookup_membersOf (origin : String) (pairs : List (Node × Node)) (name : String) :
    (membersOf origin pairs).lookup name = ((nodesOf pairs).lookup name).map (valueOf origin) := by
  induction pairs with
  | nil => rfl
  | cons pair pairs ih =>
      simp only [membersOf, nodesOf, List.map_cons, List.lookup_cons] at ih ⊢
      split
      · rfl
      · exact ih

section

variable {pairs : List (Node × Node)} {origin : String} {document : Document}

/-- A member at the top whose name is that of a setting in lower case has that very name. -/
theorem Alike.exact (alike : Alike pairs) {name : String} {entry : Entry}
    (known : schema.lookup name = some entry) :
    ∀ member ∈ membersOf origin pairs, lowerName member.1 = name → member.1 = name := by
  intro member there named
  rcases List.mem_map.mp there with ⟨pair, isPair, rfl⟩
  rcases isKnown : schema.lookup (keyText pair.1) with _ | other
  · exact absurd named ((alike.others pair isPair isKnown).1 name entry known).2
  · rw [lowerName_of_schema isKnown] at named
    exact named

theorem Alike.exact_within (alike : Alike pairs) {name : String} {group : Section} {node : Node}
    (known : schema.lookup name = some (.group group))
    (there : (nodesOf pairs).lookup name = some node) {field : Field}
    (place : field.group? = some name) :
    ∀ member ∈ membersOf origin (pairsOf node), lowerName member.1 = field.name →
      member.1 = field.name := by
  intro member isMember named
  rcases List.mem_map.mp isMember with ⟨pair, isPair, rfl⟩
  rcases isKnown : group.leaves.lookup (keyText pair.1) with _ | leaf
  · have apart := (alike.within name group node known there pair isPair isKnown).1
    exact absurd named (apart field.name _ (Field.lookup_section place known))
  · rcases Field.exists_of_lookup_section known isKnown with ⟨other, -, isName, -⟩
    change lowerName (keyText pair.1) = field.name at named
    rw [← isName, other.lowerName_name, isName] at named
    exact named

/-- The leaves of the document can make something of their nodes. -/
def Made (document : Document) (pairs : List (Node × Node)) : Prop :=
  ∀ (field : Field) node, field.node? pairs = some node →
    ∃ datum, field.leaf.ofNode? document node = some datum

theorem Alike.hasValue_field (alike : Alike pairs) (made : Made document pairs) (origin : String)
    (field : Field) {node : Node} (found : field.node? pairs = some node) :
    HasValue origin node := by
  rcases made field node found with ⟨datum, isMade⟩
  exact ((alike.leaves field node found).convert? isMade origin).1

/-- All values of a section can be read. -/
theorem Alike.hasValue_within (alike : Alike pairs) (made : Made document pairs)
    (origin : String) {name : String} {group : Section} {mark : Yaml.Mark}
    {tag : Option Yaml.Tag} {inner : List (Node × Node)}
    (known : schema.lookup name = some (.group group))
    (there : (nodesOf pairs).lookup name = some (.mapping mark tag inner)) :
    ∀ pair ∈ inner, HasValue origin pair.2 := by
  intro pair member
  rcases alike.mapped.sections name group _ known there with ⟨_, _, _, same, named⟩
  cases same
  rcases isLeaf : group.leaves.lookup (keyText pair.1) with _ | leaf
  · exact (alike.within name group _ known there pair member isLeaf).2.hasValue origin
  · rcases Field.exists_of_lookup_section known isLeaf with ⟨field, place, isName, -⟩
    refine alike.hasValue_field made origin field ?_
    simp only [Field.node?, place, there, Option.bind_some, pairsOf, isName]
    exact lookup_nodesOf named member

/-- The value of a section is a table with its members. -/
theorem Alike.value_section (alike : Alike pairs) (made : Made document pairs) (origin : String)
    {name : String} {group : Section} {node : Node}
    (known : schema.lookup name = some (.group group))
    (there : (nodesOf pairs).lookup name = some node) :
    Named (pairsOf node) ∧ HasValue origin node ∧
      valueOf origin node = .table (some origin) (membersOf origin (pairsOf node)) := by
  rcases alike.mapped.sections name group node known there with ⟨mark, tag, inner, rfl, named⟩
  exact ⟨named, Layered.hasValue_mapping origin mark tag named
    (alike.hasValue_within made origin known there)⟩

/-- All values of the document can be read. -/
theorem Alike.hasValue (alike : Alike pairs) (made : Made document pairs) (origin : String) :
    ∀ pair ∈ pairs, HasValue origin pair.2 := by
  intro pair member
  have found := lookup_nodesOf alike.mapped.named member
  rcases isKnown : schema.lookup (keyText pair.1) with _ | leaf | group
  · exact (alike.others pair member isKnown).2.hasValue origin
  · rcases Field.exists_of_lookup_leaf isKnown with ⟨field, place, named, -⟩
    refine alike.hasValue_field made origin field ?_
    simp only [Field.node?, place, named, found]
  · exact (alike.value_section made origin isKnown found).2.1

/-- What the document has for a name at the top. -/
theorem Alike.memberNamed?_top (alike : Alike pairs) (origin : String) {name : String}
    {entry : Entry} (known : schema.lookup name = some entry) :
    memberNamed? name (membersOf origin pairs) =
      ((nodesOf pairs).lookup name).map (valueOf origin) := by
  rw [Layered.memberNamed?_eq_lookup (lowerName_of_schema known) (alike.exact known),
    lookup_membersOf]

/-- What the document has for a setting, as a file and as a mapping. -/
theorem Alike.member? (alike : Alike pairs) (made : Made document pairs) (origin : String)
    (field : Field) :
    field.member? (membersOf origin pairs) = (field.node? pairs).map (valueOf origin) := by
  rcases place : field.group? with _ | name
  · simp only [Field.member?, Field.node?, place]
    exact alike.memberNamed?_top origin (Field.lookup_schema place)
  · rcases Field.exists_section place with ⟨group, known⟩
    simp only [Field.member?, Field.node?, place, alike.memberNamed?_top origin known]
    rcases there : (nodesOf pairs).lookup name with _ | node
    · rfl
    · have value := (alike.value_section made origin known there).2.2
      rw [Option.map_some, Option.bind_some, Option.bind_some, value, Value.members_table,
        Layered.memberNamed?_eq_lookup field.lowerName_name
          (alike.exact_within known there place), lookup_membersOf]

theorem Alike.unambiguous (alike : Alike pairs) (made : Made document pairs) (origin : String) :
    Unambiguous (membersOf origin pairs) := by
  have found {name : String} {group : Section} {value : Value}
      (known : schema.lookup name = some (.group group))
      (isThere : memberNamed? name (membersOf origin pairs) = some value) :
      ∃ node, (nodesOf pairs).lookup name = some node ∧
        value = .table (some origin) (membersOf origin (pairsOf node)) := by
    rw [alike.memberNamed?_top origin known, Option.map_eq_some_iff] at isThere
    rcases isThere with ⟨node, there, rfl⟩
    exact ⟨node, there, (alike.value_section made origin known there).2.2⟩
  refine ⟨?_, ?_, ?_, ?_⟩
  · intro name entry known member there
    rcases List.mem_map.mp there with ⟨pair, isPair, rfl⟩
    rcases isKnown : schema.lookup (keyText pair.1) with _ | other
    · exact ((alike.others pair isPair isKnown).1 name entry known).1
    · exact .inl (isWord_of_schema isKnown)
  · intro name entry known
    refine Layered.namedOnce_of_exact ?_ (alike.exact known)
    rw [Layered.map_fst_membersOf]
    exact alike.mapped.named.distinct
  · intro name group value known isThere
    rcases found known isThere with ⟨node, -, rfl⟩
    exact ⟨_, _, rfl⟩
  · intro field name value place isThere
    rcases Field.exists_section place with ⟨group, known⟩
    rcases found known isThere with ⟨node, there, rfl⟩
    refine Layered.namedOnce_of_exact ?_ (alike.exact_within known there place)
    rw [Value.members_table, Layered.map_fst_membersOf]
    exact (alike.value_section made origin known there).1.distinct

end

/-- The environment has no variable with the prefix. -/
theorem members_eq_nil {environment : Environment}
    (unmentioned : ∀ entry ∈ environment, hasPrefix entry.1 = false) :
    environment.members = [] := by
  have none : (environment.filter fun entry => hasPrefix entry.1) = [] :=
    List.filter_eq_nil_iff.mpr fun entry member => by simp [unmentioned entry member]
  rw [← members_filter, none]
  rfl

/-- A text that both loaders take alike: it is empty but for comments, or it is one document that
stands for a mapping that they take alike. -/
def TakenAlike (text : String) : Prop :=
  Yaml.documents? text.toList = some [] ∨
    ∃ document known mark tag pairs, Yaml.documents? text.toList = some [document] ∧
      Text.isAllBlank text.toList = false ∧ document.StandsFor known (.mapping mark tag pairs) ∧
      (∀ entry ∈ known, Readable entry.2) ∧ Alike pairs

/-- The members of a YAML file are those of the documents that its scanner finds. -/
theorem fileMembers_yaml {text path : String} {files : Layered.Files}
    (stored : files.texts.lookup (Layered.plainName path) = some text)
    (scanned : files.scanner (Layered.withoutMark text).toList = Yaml.documents? text.toList)
    (format : Layered.extensions.lookup (Layered.extension (Layered.plainName path)) =
      some .yaml) :
    fileMembers (some path) files =
      Layered.Format.yaml.members Yaml.documents? (Layered.plainName path) text := by
  simp only [fileMembers, Layered.Files.members, Layered.Files.read?, stored, Option.map_some,
    format, Layered.Format.members, scanned]

/-- The members that a document with a mapping gives as a file. -/
theorem Alike.members_yaml {text : String} {document root : Document} {mark : Yaml.Mark}
    {tag : Option Yaml.Tag} {pairs : List (Node × Node)} {known : List (Nat × Node)}
    (alike : Alike pairs) (made : Made root pairs)
    (single : Yaml.documents? text.toList = some [document])
    (stands : document.StandsFor known (.mapping mark tag pairs))
    (readable : ∀ entry ∈ known, Readable entry.2) (origin : String) :
    Layered.Format.yaml.members Yaml.documents? origin text = .ok (membersOf origin pairs) := by
  have value := Layered.hasValue_mapping origin mark tag alike.mapped.named
    (alike.hasValue made origin)
  have isValue : Layered.ofDocument origin document =
      .ok (.table (some origin) (membersOf origin pairs)) := by
    rw [Layered.ofDocument_of_standsFor stands
      fun entry member => (readable entry member).hasValue origin]
    exact value.1.trans (congrArg _ value.2)
  simp only [Layered.Format.members, single, isValue]
  rfl

/-- A text that is accepted by itself, and that both loaders take alike, gives the same settings as
a file without variables, if the scanner of files finds the documents in it that the other one
finds. -/
theorem ofLayers_of_ofYaml {text path : String} {files : Layered.Files}
    {environment : Environment} {s : Settings} (alike : TakenAlike text)
    (stored : files.texts.lookup (Layered.plainName path) = some text)
    (scanned : files.scanner (Layered.withoutMark text).toList = Yaml.documents? text.toList)
    (format : Layered.extensions.lookup (Layered.extension (Layered.plainName path)) = some .yaml)
    (unmentioned : ∀ entry ∈ environment, hasPrefix entry.1 = false)
    (accepted : ofYaml text = .ok s) :
    ofLayers (some path) files environment = .ok s := by
  have file := fileMembers_yaml stored scanned format
  rcases alike with empty |
    ⟨document, known, mark, tag, pairs, single, filled, stands, readable, alike⟩
  · have nothing : Layered.Format.yaml.members Yaml.documents? (Layered.plainName path) text =
        .ok [] := by
      simp only [Layered.Format.members, empty]
      rfl
    have same : s = {} := by
      rw [ofYaml, empty] at accepted
      split at accepted <;> cases accepted <;> rfl
    rw [ofLayers_eq (file.trans nothing), members_eq_nil unmentioned, same]
    rfl
  · have isAccepted : ofDocument document = .ok s := by
      simp only [ofYaml, filled, single, Bool.false_eq_true, if_false] at accepted
      split at accepted
      · cases accepted; assumption
      · cases accepted
    have numbers := Yaml.nodup_numbers single List.mem_cons_self
    have isAccepted := ofDocument_writtenOut? stands numbers alike.mapped rfl isAccepted
    have made : Made (bare (.mapping mark tag pairs)) pairs := fun field node found =>
      Field.exists_ofNode? alike.mapped rfl isAccepted found
    have unambiguous := alike.unambiguous made (Layered.plainName path)
    rw [ofLayers_eq (file.trans (alike.members_yaml made single stands readable _)),
      members_eq_nil unmentioned]
    have tells (field : Field) : Tells (Value.emptyTable.layer
        (membersOf (Layered.plainName path) pairs)) field
          ((field.node? pairs).bind fun node =>
            field.leaf.ofNode? (bare (.mapping mark tag pairs)) node) := by
      rcases found : field.node? pairs with _ | node
      · simp [Tells, unambiguous.at?_layer, alike.member? made, found]
      · rcases made field node found with ⟨datum, isMade⟩
        have converted := ((alike.leaves field node found).convert? isMade
          (Layered.plainName path)).2
        simp [Tells, unambiguous.at?_layer, alike.member? made, found, isMade, convert?_overlay,
          converted, Leaf.admits_of_ofNode? isMade]
    rcases exists_of_tells (distinct_layers (membersOf (Layered.plainName path) pairs) [])
      (fun _ _ known => unambiguous.tabular known) tells {} with ⟨t, read, settings⟩
    have same : t = s := Field.ext fun field =>
      (settings field).trans (Field.get_ofDocument alike.mapped rfl isAccepted field).symm
    exact same ▸ read

/-- A document with a quoted text, an address and a number that is aliased under an unknown key. -/
theorem ofLayers_of_ofYaml_port :
    let text := "config_path: \"/x\"\nupnp:\n  multicast_addr: 239.0.0.1\n" ++
      "ipscan:\n  port: &p 8080\nlog: *p\n"
    let settings : Settings :=
      { configPath := "/x", multicast := { address := .ofOctets 239 0 0 1 },
        scan := { port := 8080 } }
    ofYaml text = .ok settings ∧
      ofLayers (some "a.yaml") { texts := [("a.yaml", text)] } [("PATH", "/bin")] =
        .ok settings := by
  intro text settings
  let plain (line column : Nat) (text : String) : Node :=
    .scalar ⟨line, column⟩ ⟨none, .plain, text.toList⟩
  let quoted : Node := .scalar ⟨0, 13⟩ ⟨none, .doubleQuoted, "/x".toList⟩
  let group : List (Node × Node) := [(plain 2 2 "multicast_addr", plain 2 18 "239.0.0.1")]
  let number : Node := plain 4 8 "8080"
  let probes : List (Node × Node) := [(plain 4 2 "port", number)]
  let pairs (log : Node) : List (Node × Node) :=
    [(plain 0 0 "config_path", quoted), (plain 1 0 "upnp", .mapping ⟨2, 2⟩ none group),
      (plain 3 0 "ipscan", .mapping ⟨4, 2⟩ none probes), (plain 5 0 "log", log)]
  let document : Document :=
    ⟨.mapping ⟨0, 0⟩ none (pairs (.reference ⟨5, 5⟩ 0)), [⟨0, ['p'], number⟩], 16⟩
  have accepted : ofYaml text = .ok settings := toOption_eq_some.mp (by decide +kernel)
  have single : Yaml.documents? text.toList = some [document] := by decide +kernel
  have stands : document.StandsFor [(0, number)] (.mapping ⟨0, 0⟩ none (pairs number)) :=
    ⟨by decide, rfl, rfl⟩
  have written : decimal? "8080".toList = some (8080 : Nat) := by decide
  have isAddress : Net.Ipv4.parse? "239.0.0.1" = some (.ofOctets 239 0 0 1) := by decide +kernel
  have readable : Readable number := .scalar _ (by decide)
  have named {key value : Node} (isKey : (Layered.keyOf? key).map Layered.Key.name =
      some (keyText key)) : Named [(key, value)] := by
    refine ⟨fun pair member => ?_, by simp⟩
    cases List.mem_singleton.mp member
    exact isKey
  -- The sections of the document have one key each, which is that of a setting.
  have isSection {name : String} {node : Node} {leaves : Section}
      (known : schema.lookup name = some (.group leaves))
      (found : (nodesOf (pairs number)).lookup name = some node) :
      ∃ mark tag key value, node = .mapping mark tag [(key, value)] ∧ Named [(key, value)] ∧
        (leaves.leaves.lookup (keyText key)).isSome = true := by
    rcases List.mem_map.mp (mem_of_lookup found) with ⟨pair, member, same⟩
    simp only [pairs, List.mem_cons, List.not_mem_nil, or_false] at member
    rcases member with rfl | rfl | rfl | rfl <;> cases same <;> cases known
    · exact ⟨_, _, _, _, rfl, named rfl, rfl⟩
    · exact ⟨_, _, _, _, rfl, named rfl, rfl⟩
  have alike : Alike (pairs number) := by
    refine ⟨⟨⟨?_, by decide⟩, ?_⟩, ?_, ?_, ?_⟩
    · intro pair member
      simp only [pairs, List.mem_cons, List.not_mem_nil, or_false] at member
      rcases member with rfl | rfl | rfl | rfl <;> rfl
    · intro name group node known found
      rcases isSection known found with ⟨mark, tag, key, value, rfl, named, -⟩
      exact ⟨mark, tag, _, rfl, named⟩
    · intro field node found
      cases field <;> cases found
      · exact spelled_of_quoted (by decide) _
      · exact spelled_of_parse? isAddress _
      · exact counted_of_numeral (.decimal written) (by decide) _
    · intro pair member unknown
      simp only [pairs, List.mem_cons, List.not_mem_nil, or_false] at member
      rcases member with rfl | rfl | rfl | rfl
      · cases unknown
      · cases unknown
      · cases unknown
      · refine ⟨fun name entry known => ⟨.inl (.inr (by decide)), ?_⟩, readable⟩
        rintro rfl
        have absent : (schema.lookup (lowerName "log")).isNone = true := by decide
        exact Option.some_ne_none entry (known.symm.trans (Option.isNone_iff_eq_none.mp absent))
    · intro name leaves node known found pair member unknown
      rcases isSection known found with ⟨mark, tag, key, value, rfl, -, there⟩
      cases List.mem_singleton.mp member
      rw [unknown] at there
      cases there
  have takenAlike : TakenAlike text :=
    .inr ⟨document, _, _, _, _, single, by decide +kernel, stands,
      List.forall_mem_singleton.mpr readable, alike⟩
  refine ⟨accepted, ofLayers_of_ofYaml takenAlike (by decide +kernel) (by decide +kernel)
    (by decide +kernel) ?_ accepted⟩
  intro entry member
  cases List.mem_singleton.mp member
  decide +kernel

/-- A document without content, and a section without content, stand for the defaults if the
document is read alone; as a file they are refused. -/
theorem ofLayers_without_content :
    (∀ text ∈ ["---\n", "upnp:\n"], ofYaml text = .ok {}) ∧
      ∀ text ∈ ["---\n", "upnp:\n"],
        (ofLayers (some "a.yaml") { texts := [("a.yaml", text)] } []).toOption = none := by
  refine ⟨?_, by decide +kernel⟩
  have each : ∀ text ∈ ["---\n", "upnp:\n"], (ofYaml text).toOption = some {} := by
    decide +kernel
  exact fun text member => toOption_eq_some.mp (each text member)

end BridgeFinder.Settings
