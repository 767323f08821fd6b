import BridgeFinder.Proofs.Layered.Nodes
import BridgeFinder.Proofs.Settings.Conversion
import BridgeFinder.Settings.Yaml

/-!
# Reading a mapping of YAML, setting by setting

A leaf makes a value out of a node, wherever the node stands.  If the keys of the mappings are
scalars and none is repeated, then every setting becomes what its leaf makes of its node.
-/

namespace BridgeFinder.Settings

open Layered (keyText)
open Yaml (Document Node)

/-! ## Single nodes -/

/-- What a leaf makes of a node, if it accepts it. -/
def Leaf.ofNode? (document : Document) (node : Node) : Leaf → Option Datum
  | .natural width _ => (naturalOf document [] width node).toOption.map .natural
  | .text _ => (textOf document [] "" node).toOption.map .text
  | .address _ => ((textOf document [] "" node).toOption.bind Net.Ipv4.parse?).map .address
  | .texts _ =>
      match follow document node with
      | .sequence _ _ elements => (textsFrom document [] 0 elements).toOption.map .texts
      | node => if isEmptyScalar node then some (.texts []) else none

section

variable (document : Document) (path : List Step) (node : Node)

theorem toOption_textOf (expected : String) :
    (textOf document path expected node).toOption = (textOf document [] "" node).toOption := by
  simp only [textOf]
  split <;> rfl

theorem toOption_naturalOf (width : Width) :
    (naturalOf document path width node).toOption =
      (naturalOf document [] width node).toOption := by
  simp only [naturalOf]
  split
  · split <;> rfl
  · rfl

theorem toOption_textsFrom (index : Nat) (nodes : List Node) :
    (textsFrom document path index nodes).toOption =
      nodes.mapM fun node => (textOf document [] "" node).toOption := by
  induction nodes generalizing index with
  | nil => rfl
  | cons node nodes ih =>
      simp only [textsFrom, toOption_bind, toOption_textOf document (path ++ [.index index]), ih,
        List.mapM_cons]
      rfl

/-- Reading a node stores what the leaf makes of it. -/
theorem Leaf.toOption_readYaml (leaf : Leaf) (s : Settings) :
    (leaf.readYaml document path node s).toOption =
      (leaf.ofNode? document node).map fun datum => leaf.put datum s := by
  cases leaf with
  | natural width store =>
      simp only [readYaml, toOption_bind, toOption_naturalOf document path, ofNode?]
      cases (naturalOf document [] width node).toOption <;> rfl
  | text store =>
      simp only [readYaml, toOption_bind, toOption_textOf document path, ofNode?]
      cases (textOf document [] "" node).toOption <;> rfl
  | address store =>
      simp only [readYaml, toOption_bind, toOption_textOf document path, ofNode?]
      rcases (textOf document [] "" node).toOption with _ | text
      · rfl
      · rw [Option.bind_some, Option.bind_some]
        cases Net.Ipv4.parse? text <;> rfl
  | texts store =>
      simp only [readYaml, ofNode?]
      generalize follow document node = target
      rcases target with _ | ⟨mark, tag, elements⟩ | _ | _
      · dsimp only; split <;> rfl
      · simp only [toOption_bind, toOption_textsFrom]
        cases elements.mapM fun node => (textOf document [] "" node).toOption <;> rfl
      · dsimp only; split <;> rfl
      · dsimp only; split <;> rfl

end

theorem Leaf.readYaml_eq_ok {document : Document} {path : List Step} {node : Node} {leaf : Leaf}
    {s t : Settings} : leaf.readYaml document path node s = .ok t ↔
      ∃ datum, leaf.ofNode? document node = some datum ∧ leaf.put datum s = t := by
  rw [← toOption_eq_some, toOption_readYaml, Option.map_eq_some_iff]

/-- What a leaf makes of a node is in its range. -/
theorem Leaf.admits_of_ofNode? {document : Document} {node : Node} {leaf : Leaf} {datum : Datum}
    (made : leaf.ofNode? document node = some datum) : leaf.Admits datum := by
  cases leaf with
  | natural width store =>
      rcases Option.map_eq_some_iff.mp made with ⟨n, read, rfl⟩
      rw [toOption_eq_some, naturalOf] at read
      split at read
      · split at read
        · next inside => cases read; exact inside
        · cases read
      · cases read
  | text store =>
      rcases Option.map_eq_some_iff.mp made with ⟨text, -, rfl⟩
      trivial
  | address store =>
      rcases Option.map_eq_some_iff.mp made with ⟨address, -, rfl⟩
      trivial
  | texts store =>
      simp only [ofNode?] at made
      split at made
      · rcases Option.map_eq_some_iff.mp made with ⟨texts, -, rfl⟩
        trivial
      · split at made <;> cases made
        trivial

namespace Field

variable {field other : Field} {document : Document} {path : List Step} {node : Node}
  {s t : Settings}

theorem get_readYaml (read : field.leaf.readYaml document path node s = .ok t) :
    field.get t = (field.leaf.ofNode? document node).getD (field.get s) := by
  rcases Leaf.readYaml_eq_ok.mp read with ⟨datum, made, rfl⟩
  rw [made, Option.getD_some, get_put (Leaf.admits_of_ofNode? made)]

theorem get_readYaml_of_ne (apart : other ≠ field)
    (read : field.leaf.readYaml document path node s = .ok t) : other.get t = other.get s := by
  rcases Leaf.readYaml_eq_ok.mp read with ⟨datum, _, rfl⟩
  exact get_put_of_ne apart datum s

end Field

/-! ## Members -/

/-- How the value under a name is read: where it stands, the value, and the settings so far. -/
abbrev ValueReader :=
  List Step → Node → Settings → Except YamlError Settings

/-- The members of a mapping by the texts of their keys, with the place of each. -/
def placed (path : List Step) (pairs : List (Node × Node)) : List (String × List Step × Node) :=
  pairs.map fun pair => (keyText pair.1, path ++ [stepOf pair.1], pair.2)

/-- Read one member of a mapping. -/
def readPlaced (read : String → Option ValueReader) (s : Settings)
    (member : String × List Step × Node) : Except YamlError Settings :=
  match read member.1 with
  | some readValue => readValue member.2.1 member.2.2 s
  | none => .ok s

/-- Members that can be read one after another are read each for itself. -/
theorem foldlM_of_readMembers {document : Document} {path : List Step} {owner : Node}
    {read : String → Option ValueReader} {given : List String} {s t : Settings}
    {pairs : List (Node × Node)}
    (scalars : ∀ pair ∈ pairs, ∃ mark scalar, pair.1 = .scalar mark scalar)
    (accepted : readMembers document path owner read given s pairs = .ok t) :
    (placed path pairs).foldlM (readPlaced read) s = .ok t := by
  induction pairs generalizing given s with
  | nil => exact accepted
  | cons pair pairs ih =>
      rcases pair with ⟨key, value⟩
      rcases scalars _ List.mem_cons_self with ⟨mark, scalar, isScalar⟩
      simp only at isScalar
      subst isScalar
      have later {given : List String} {s : Settings} := @ih given s
        fun pair member => scalars pair (List.mem_cons_of_mem _ member)
      have named : textOf document path "field identifier" (.scalar mark scalar) =
          .ok (String.ofList scalar.text) := rfl
      simp only [readMembers, named, Except.bind, bind] at accepted
      rw [placed, List.map_cons, List.foldlM_cons]
      simp only [readPlaced, keyText]
      split at accepted
      · next unknown =>
          rw [unknown]
          exact later accepted
      · next readValue known =>
          rw [known]
          split at accepted
          · cases accepted
          · split at accepted
            · cases accepted
            · next after first =>
                simp only [first]
                exact later accepted

/-- The values of a mapping under the texts of their keys. -/
def nodesOf (pairs : List (Node × Node)) : List (String × Node) :=
  pairs.map fun pair => (keyText pair.1, pair.2)

theorem lookup_nodesOf {pairs : List (Node × Node)} (named : Layered.Named pairs)
    {pair : Node × Node} (member : pair ∈ pairs) :
    (nodesOf pairs).lookup (keyText pair.1) = some pair.2 := by
  refine lookup_of_mem ?_ (List.mem_map.mpr ⟨pair, member, rfl⟩)
  rw [nodesOf, List.map_map]
  exact named.distinct

theorem map_fst_placed (path : List Step) (pairs : List (Node × Node)) :
    (placed path pairs).map Prod.fst = pairs.map fun pair => keyText pair.1 := by
  simp [placed]

/-- The places of the values do not matter for finding them. -/
theorem lookup_placed_bind {α : Type} (path : List Step) (pairs : List (Node × Node))
    (name : String) (make : Node → Option α) :
    (((placed path pairs).lookup name).bind fun place => make place.2) =
      ((nodesOf pairs).lookup name).bind make := by
  induction pairs with
  | nil => rfl
  | cons pair pairs ih =>
      simp only [placed, nodesOf, List.map_cons, List.lookup_cons] at ih ⊢
      split
      · rfl
      · exact ih

/-- A member of a mapping that can be read can be read for itself. -/
theorem exists_of_foldlM_placed {read : String → Option ValueReader} {path : List Step}
    {pairs : List (Node × Node)} {s t : Settings}
    (accepted : (placed path pairs).foldlM (readPlaced read) s = .ok t) {name : String}
    {node : Node} (found : (nodesOf pairs).lookup name = some node) :
    ∃ place before after, readPlaced read before (name, place, node) = .ok after := by
  have placedThere : ∃ place, (name, place, node) ∈ placed path pairs := by
    rcases List.mem_map.mp (mem_of_lookup found) with ⟨pair, member, same⟩
    cases same
    exact ⟨path ++ [stepOf pair.1], List.mem_map.mpr ⟨pair, member, rfl⟩⟩
  rcases placedThere with ⟨place, member⟩
  rcases exists_of_foldlM accepted member with ⟨before, after, step⟩
  exact ⟨place, before, after, step⟩

theorem Named.scalars {pairs : List (Node × Node)} (named : Layered.Named pairs) :
    ∀ pair ∈ pairs, ∃ mark scalar, pair.1 = .scalar mark scalar := by
  intro pair member
  have isKey := named.keys pair member
  rcases same : pair.1 with ⟨mark, scalar⟩ | _ | _ | _ <;> rw [same] at isKey
  · exact ⟨mark, scalar, rfl⟩
  · cases isKey
  · cases isKey
  · cases isKey

/-! ## Sections -/

/-- How the values of a section are read. -/
def Section.valueReader (group : Section) (document : Document) (name : String) :
    Option ValueReader :=
  (group.leaves.lookup name).map fun leaf path node s => leaf.readYaml document path node s

section

variable {group : Section} {name : String} {field : Field} {document : Document}
  {path : List Step} {mark : Yaml.Mark} {tag : Option Yaml.Tag} {pairs : List (Node × Node)}
  {s t : Settings}

theorem Section.foldlM_of_readYaml (named : Layered.Named pairs)
    (read : group.readYaml document path (.mapping mark tag pairs) s = .ok t) :
    (placed path pairs).foldlM (readPlaced (group.valueReader document)) s = .ok t :=
  foldlM_of_readMembers (Named.scalars named) read

/-- Reading a section makes of a setting what its leaf makes of its node, and leaves the settings of
other sections alone. -/
theorem Section.get_readYaml (known : schema.lookup name = some (.group group))
    (named : Layered.Named pairs)
    (read : group.readYaml document path (.mapping mark tag pairs) s = .ok t) :
    field.get t =
      if field.group? = some name then
        (((nodesOf pairs).lookup field.name).bind fun node =>
          field.leaf.ofNode? document node).getD (field.get s)
      else field.get s := by
  have distinct : ((placed path pairs).map Prod.fst).Nodup := by
    rw [map_fst_placed]
    exact named.distinct
  have apart {other : Field} (place : other.group? = some name)
      (elsewhere : field.group? ≠ some name ∨ field.name ≠ other.name) : field ≠ other := by
    rintro rfl
    exact elsewhere.elim (· place) (· rfl)
  have others {member : String × List Step × Node}
      (elsewhere : field.group? ≠ some name ∨ field.name ≠ member.1) {s t : Settings}
      (step : readPlaced (group.valueReader document) s member = .ok t) :
      field.get t = field.get s := by
    rw [readPlaced, valueReader] at step
    rcases found : group.leaves.lookup member.1 with _ | leaf <;> rw [found] at step
    · cases step; rfl
    · rcases Field.exists_of_lookup_section known found with ⟨other, place, named, rfl⟩
      exact Field.get_readYaml_of_ne (apart place (named ▸ elsewhere)) step
  have accepted := get_foldlM field field.name
    (fun place => if field.group? = some name then field.leaf.ofNode? document place.2 else none)
    (fun member _ other s t step => others (.inr (Ne.symm other)) step)
    (fun place _ s t step => ?_) distinct (foldlM_of_readYaml named read)
  · rw [accepted, lookup_placed_bind path pairs field.name fun node =>
      if field.group? = some name then field.leaf.ofNode? document node else none]
    split
    · rfl
    · simp
  · split
    · next mine =>
        rw [readPlaced, valueReader, Field.lookup_section mine known] at step
        exact Field.get_readYaml step
    · next elsewhere => exact others (.inl elsewhere) step

/-- A section can be read only if its leaves accept its nodes. -/
theorem Section.exists_ofNode? (known : schema.lookup name = some (.group group))
    (named : Layered.Named pairs)
    (read : group.readYaml document path (.mapping mark tag pairs) s = .ok t)
    (place : field.group? = some name) {node : Node}
    (found : (nodesOf pairs).lookup field.name = some node) :
    ∃ datum, field.leaf.ofNode? document node = some datum := by
  rcases exists_of_foldlM_placed (foldlM_of_readYaml named read) found with
    ⟨spot, before, after, step⟩
  rw [readPlaced, valueReader, Field.lookup_section place known] at step
  rcases Leaf.readYaml_eq_ok.mp step with ⟨datum, made, -⟩
  exact ⟨datum, made⟩

end

/-! ## Documents -/

/-- How the values at the top are read. -/
def topReader (document : Document) (name : String) : Option ValueReader :=
  (schema.lookup name).map fun entry path node s => entry.readYaml document path node s

/-- The members of a mapping. -/
def pairsOf : Node → List (Node × Node)
  | .mapping _ _ pairs => pairs
  | _ => []

/-- The node that a mapping has for a setting. -/
def Field.node? (field : Field) (pairs : List (Node × Node)) : Option Node :=
  match field.group? with
  | none => (nodesOf pairs).lookup field.name
  | some name =>
      ((nodesOf pairs).lookup name).bind fun node => (nodesOf (pairsOf node)).lookup field.name

/-- The mapping of a document, with mappings for the sections. -/
structure Mapped (pairs : List (Node × Node)) : Prop where
  named : Layered.Named pairs
  sections : ∀ name group node, schema.lookup name = some (.group group) →
    (nodesOf pairs).lookup name = some node →
      ∃ mark tag inner, node = .mapping mark tag inner ∧ Layered.Named inner

section

variable {document : Document} {mark : Yaml.Mark} {tag : Option Yaml.Tag}
  {pairs : List (Node × Node)} {s : Settings}

theorem foldlM_of_ofDocument (mapped : Mapped pairs)
    (root : document.root = .mapping mark tag pairs) (accepted : ofDocument document = .ok s) :
    (placed [] pairs).foldlM (readPlaced (topReader document)) {} = .ok s := by
  rw [ofDocument, root] at accepted
  exact foldlM_of_readMembers (Named.scalars mapped.named) accepted

/-- What stands under the name of a section is a mapping. -/
theorem Mapped.section_of_mem (mapped : Mapped pairs) {member : String × List Step × Node}
    (there : member ∈ placed [] pairs) {group : Section}
    (known : schema.lookup member.1 = some (.group group)) :
    ∃ mark tag inner, member.2.2 = .mapping mark tag inner ∧ Layered.Named inner := by
  rcases List.mem_map.mp there with ⟨pair, isPair, rfl⟩
  exact mapped.sections _ group _ known (lookup_nodesOf mapped.named isPair)

/-- A member leaves the settings alone that its name does not lead to. -/
theorem Mapped.get_of_ne (mapped : Mapped pairs) {field : Field}
    {member : String × List Step × Node} (there : member ∈ placed [] pairs)
    (other : field.group?.getD field.name ≠ member.1) {s t : Settings}
    (step : readPlaced (topReader document) s member = .ok t) : field.get t = field.get s := by
  rw [readPlaced, topReader] at step
  rcases known : schema.lookup member.1 with _ | leaf | group <;> rw [known] at step
  · cases step; rfl
  · rcases Field.exists_of_lookup_leaf known with ⟨another, top, named, rfl⟩
    refine Field.get_readYaml_of_ne ?_ step
    rintro rfl
    rw [top] at other
    exact other named
  · rcases mapped.section_of_mem there known with ⟨mark, tag, inner, isMapping, named⟩
    simp only [Option.map_some] at step
    rw [isMapping] at step
    have effect : field.get t = _ := Section.get_readYaml known named step
    rw [if_neg] at effect
    · exact effect
    · intro place
      rw [place] at other
      exact other rfl

/-- Every setting of an accepted document is what its leaf makes of its node, or its default. -/
theorem Field.get_ofDocument (mapped : Mapped pairs)
    (root : document.root = .mapping mark tag pairs) (accepted : ofDocument document = .ok s)
    (field : Field) :
    field.get s = ((field.node? pairs).bind fun node =>
      field.leaf.ofNode? document node).getD (field.get {}) := by
  have distinct : ((placed [] pairs).map Prod.fst).Nodup := by
    rw [map_fst_placed]
    exact mapped.named.distinct
  have read := foldlM_of_ofDocument mapped root accepted
  rcases place : field.group? with _ | name
  · have effect := get_foldlM field field.name
      (fun place => field.leaf.ofNode? document place.2)
      (fun member there other s t step =>
        mapped.get_of_ne there (by simpa [place] using Ne.symm other) step)
      (fun value _ s t step => ?_) distinct read
    · rw [effect, lookup_placed_bind [] pairs field.name fun node =>
        field.leaf.ofNode? document node]
      simp [node?, place]
    · rw [readPlaced, topReader, lookup_schema place] at step
      exact get_readYaml step
  · rcases exists_section place with ⟨group, known⟩
    have effect := get_foldlM field name
      (fun place => ((nodesOf (pairsOf place.2)).lookup field.name).bind fun node =>
        field.leaf.ofNode? document node)
      (fun member there other s t step =>
        mapped.get_of_ne there (by simpa [place] using Ne.symm other) step)
      (fun value there s t step => ?_) distinct read
    · rw [effect, lookup_placed_bind [] pairs name fun node =>
        ((nodesOf (pairsOf node)).lookup field.name).bind fun node =>
          field.leaf.ofNode? document node]
      simp [node?, place, Option.bind_assoc]
    · rcases mapped.section_of_mem there known with ⟨mark, tag, inner, isMapping, named⟩
      simp only [readPlaced, topReader, known, Option.map_some] at step isMapping ⊢
      rw [isMapping] at step ⊢
      exact (Section.get_readYaml known named step).trans (if_pos place)

/-- A document is accepted only if the leaves accept their nodes. -/
theorem Field.exists_ofNode? (mapped : Mapped pairs)
    (root : document.root = .mapping mark tag pairs) (accepted : ofDocument document = .ok s)
    {field : Field} {node : Node} (found : field.node? pairs = some node) :
    ∃ datum, field.leaf.ofNode? document node = some datum := by
  have read := foldlM_of_ofDocument mapped root accepted
  rcases place : field.group? with _ | name <;> simp only [node?, place] at found
  · rcases exists_of_foldlM_placed read found with ⟨spot, before, after, step⟩
    rw [readPlaced, topReader, lookup_schema place] at step
    rcases Leaf.readYaml_eq_ok.mp step with ⟨datum, made, -⟩
    exact ⟨datum, made⟩
  · rcases Option.bind_eq_some_iff.mp found with ⟨outer, isThere, found⟩
    rcases exists_section place with ⟨group, known⟩
    rcases mapped.sections name group outer known isThere with ⟨mark, tag, inner, rfl, named⟩
    rcases exists_of_foldlM_placed read isThere with ⟨spot, before, after, step⟩
    rw [readPlaced, topReader, known] at step
    exact Section.exists_ofNode? known named step place found

end

/-! ## Documents with aliases -/

/-- A document without anchors that has the given root. -/
def bare (root : Node) : Document :=
  ⟨root, [], 0⟩

theorem follow_bare (root node : Node) : follow (bare root) node = node := by
  cases node <;> rfl

section

variable {document : Document} {known : List (Nat × Node)} {root node result : Node}
  {path : List Step}

/-- What an alias leads to is written out as the alias is. -/
theorem follow_writtenOut? (stands : document.StandsFor known root)
    (numbers : (document.anchors.map Yaml.Anchor.number).Nodup)
    (written : node.writtenOut? known = some result) :
    (follow document node).writtenOut? known = some result := by
  rcases node with _ | _ | _ | ⟨mark, number⟩
  · exact written
  · exact written
  · exact written
  · rcases stands.exists_target numbers written with ⟨anchored, target, written⟩
    rw [follow, target]
    exact written

variable (stands : document.StandsFor known root)
  (numbers : (document.anchors.map Yaml.Anchor.number).Nodup)

include stands numbers

theorem textOf_writtenOut? {expected : String} {text : String}
    (written : node.writtenOut? known = some result)
    (read : textOf document path expected node = .ok text) :
    textOf (bare root) path expected result = .ok text := by
  have written := follow_writtenOut? stands numbers written
  rw [textOf] at read ⊢
  rw [follow_bare]
  rcases target : follow document node with ⟨mark, scalar⟩ | _ | _ | _ <;>
    rw [target] at read written
  · cases written
    exact read
  · cases read
  · cases read
  · cases read

theorem naturalOf_writtenOut? {width : Width} {n : Nat}
    (written : node.writtenOut? known = some result)
    (read : naturalOf document path width node = .ok n) :
    naturalOf (bare root) path width result = .ok n := by
  have written := follow_writtenOut? stands numbers written
  rw [naturalOf] at read ⊢
  rw [follow_bare]
  rcases target : follow document node with ⟨mark, scalar⟩ | _ | _ | _ <;>
    rw [target] at read written
  · cases written
    exact read
  · cases read
  · cases read
  · cases read

theorem textsFrom_writtenOut? {index : Nat} {nodes results : List Node} {texts : List String}
    (written : Node.allWrittenOut? known nodes = some results)
    (read : textsFrom document path index nodes = .ok texts) :
    textsFrom (bare root) path index results = .ok texts := by
  induction nodes generalizing index results texts with
  | nil =>
      cases written
      exact read
  | cons node nodes ih =>
      rcases Option.bind_eq_some_iff.mp written with ⟨result, first, written⟩
      rcases Option.bind_eq_some_iff.mp written with ⟨results, others, same⟩
      cases same
      rw [textsFrom] at read ⊢
      rcases bind_eq_ok.mp read with ⟨text, now, read⟩
      rcases bind_eq_ok.mp read with ⟨texts, later, read⟩
      exact bind_eq_ok.mpr ⟨text, textOf_writtenOut? stands numbers first now,
        bind_eq_ok.mpr ⟨texts, ih others later, read⟩⟩

/-- A leaf that accepts a node accepts what the node is written out as. -/
theorem Leaf.readYaml_writtenOut? {leaf : Leaf} {s t : Settings}
    (written : node.writtenOut? known = some result)
    (read : leaf.readYaml document path node s = .ok t) :
    leaf.readYaml (bare root) path result s = .ok t := by
  cases leaf with
  | natural width store =>
      rcases bind_eq_ok.mp read with ⟨n, value, stored⟩
      exact bind_eq_ok.mpr ⟨n, naturalOf_writtenOut? stands numbers written value, stored⟩
  | text store =>
      rcases bind_eq_ok.mp read with ⟨text, value, stored⟩
      exact bind_eq_ok.mpr ⟨text, textOf_writtenOut? stands numbers written value, stored⟩
  | address store =>
      rcases bind_eq_ok.mp read with ⟨text, value, stored⟩
      refine bind_eq_ok.mpr ⟨text, textOf_writtenOut? stands numbers written value, ?_⟩
      rcases parsed : Net.Ipv4.parse? text with _ | address <;> rw [parsed] at stored
      · cases stored
      · exact stored
  | texts store =>
      have written := follow_writtenOut? stands numbers written
      simp only [readYaml, follow_bare] at read ⊢
      rcases target : follow document node with ⟨mark, scalar⟩ | ⟨mark, tag, elements⟩ | _ | _ <;>
        rw [target] at read written
      · cases written
        simp only at read ⊢
        split at read
        · next empty =>
            rw [if_pos empty]
            exact read
        · cases read
      · rcases Option.map_eq_some_iff.mp written with ⟨results, all, rfl⟩
        rcases bind_eq_ok.mp read with ⟨texts, values, stored⟩
        exact bind_eq_ok.mpr ⟨texts, textsFrom_writtenOut? stands numbers all values, stored⟩
      · cases read
      · cases read

omit stands numbers in
/-- Members are read alike when they are written out, if each of them is. -/
theorem readMembers_writtenOut? {α : Type} (read : Document → α → ValueReader)
    {entries : List (String × α)} {owner other : Node} {given : List String}
    {s t : Settings} {members results : List (Node × Node)}
    (scalars : ∀ pair ∈ results, ∃ mark scalar, pair.1 = .scalar mark scalar)
    (written : Node.membersWrittenOut? known members = some results)
    (each : ∀ pair ∈ results, ∀ entry, entries.lookup (keyText pair.1) = some entry →
      ∀ (node : Node) path s t, node.writtenOut? known = some pair.2 →
        read document entry path node s = .ok t → read (bare root) entry path pair.2 s = .ok t)
    (accepted : readMembers document path owner
      (fun name => (entries.lookup name).map (read document)) given s members = .ok t) :
    readMembers (bare root) path other
      (fun name => (entries.lookup name).map (read (bare root))) given s results = .ok t := by
  induction members generalizing given s results with
  | nil =>
      cases written
      exact accepted
  | cons member members ih =>
      rcases member with ⟨key, node⟩
      rcases Option.bind_eq_some_iff.mp written with ⟨result, first, written⟩
      rcases Option.bind_eq_some_iff.mp written with ⟨results, others, same⟩
      cases same
      rcases scalars _ List.mem_cons_self with ⟨mark, scalar, isScalar⟩
      simp only at isScalar
      subst isScalar
      have now := each _ List.mem_cons_self
      have later {given : List String} {s : Settings} := @ih given s results
        (fun pair there => scalars pair (List.mem_cons_of_mem _ there)) others
        (fun pair there => each pair (List.mem_cons_of_mem _ there))
      have named (document : Document) :
          textOf document path "field identifier" (.scalar mark scalar) =
            .ok (String.ofList scalar.text) := rfl
      simp only [readMembers, named, bind, Except.bind] at accepted ⊢
      rcases found : entries.lookup (String.ofList scalar.text) with _ | entry <;>
        simp only [found, Option.map_none, Option.map_some] at accepted ⊢
      · exact later accepted
      · split at accepted
        · cases accepted
        · next free =>
            rw [if_neg free]
            split at accepted
            · cases accepted
            · next after step =>
                rw [now entry found node _ _ _ first step]
                exact later accepted

/-- A section is read alike when it is written out. -/
theorem Section.readYaml_writtenOut? {group : Section} {mark : Yaml.Mark} {tag : Option Yaml.Tag}
    {inner : List (Node × Node)} {s t : Settings} (named : Layered.Named inner)
    (written : node.writtenOut? known = some (.mapping mark tag inner))
    (read : group.readYaml document path node s = .ok t) :
    group.readYaml (bare root) path (.mapping mark tag inner) s = .ok t := by
  have written := follow_writtenOut? stands numbers written
  rw [readYaml, readRecord] at read
  rcases target : follow document node with _ | _ | ⟨mark, tag, members⟩ | _ <;>
    rw [target] at read written
  · cases written
  · rcases Option.map_eq_some_iff.mp written with ⟨results, -, same⟩
    cases same
  · rcases Option.map_eq_some_iff.mp written with ⟨results, all, same⟩
    cases same
    exact readMembers_writtenOut?
      (fun document (leaf : Leaf) path node s => leaf.readYaml document path node s)
      (Named.scalars named) all
      (fun _ _ _ _ _ _ _ _ => Leaf.readYaml_writtenOut? stands numbers) read
  · cases read

/-- A document that is accepted is accepted when it is written out. -/
theorem ofDocument_writtenOut? {mark : Yaml.Mark} {tag : Option Yaml.Tag}
    {pairs : List (Node × Node)} {s : Settings} (mapped : Mapped pairs)
    (isMapping : root = .mapping mark tag pairs) (accepted : ofDocument document = .ok s) :
    ofDocument (bare root) = .ok s := by
  have written := follow_writtenOut? stands numbers stands.root
  subst isMapping
  rw [ofDocument, readRecord] at accepted
  rcases target : follow document document.root with _ | _ | ⟨mark, tag, members⟩ | _ <;>
    rw [target] at accepted written
  · cases written
  · rcases Option.map_eq_some_iff.mp written with ⟨results, -, same⟩
    cases same
  · rcases Option.map_eq_some_iff.mp written with ⟨results, all, same⟩
    cases same
    refine readMembers_writtenOut?
      (fun document (entry : Entry) path node s => entry.readYaml document path node s)
      (Named.scalars mapped.named) all (fun pair there entry known node path s t => ?_) accepted
    rcases entry with leaf | group
    · exact Leaf.readYaml_writtenOut? stands numbers
    · rcases mapped.sections _ group _ known (lookup_nodesOf mapped.named there) with
        ⟨mark, tag, inner, isMapping, named⟩
      rw [isMapping]
      exact Section.readYaml_writtenOut? stands numbers named
  · cases accepted

end

end BridgeFinder.Settings
