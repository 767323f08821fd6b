import BridgeFinder.Proofs.ConfigDocument.Identification
import BridgeFinder.Proofs.Json.Labelled

/-!
# How a document of a bridge is written

A document is written as an object whose members give its texts by name.  It may as well be written
as an array: its elements then give the texts in a fixed order, and those behind the last element are
absent.  Nothing else is a document, so that only an object or an array of this kind is confirmed to
come from a bridge.
-/

namespace BridgeFinder

namespace ConfigDocument

open Json

/-! ## Labels -/

/-- The texts that a document may give. -/
inductive Label where
  | name
  | bridgeId
  | mac
  | apiVersion
  | modelId
  | swVersion
deriving DecidableEq

namespace Label

/-- The labels in the order of an array. -/
def all : List Label :=
  [name, bridgeId, mac, apiVersion, modelId, swVersion]

/-- The name of the member of an object. -/
def key : Label → String
  | name => "name"
  | bridgeId => "bridgeid"
  | mac => "mac"
  | apiVersion => "apiversion"
  | modelId => "modelid"
  | swVersion => "swversion"

/-- The text of a document. -/
def get : Label → ConfigDocument → Option String
  | name => ConfigDocument.name
  | bridgeId => ConfigDocument.bridgeId
  | mac => ConfigDocument.mac
  | apiVersion => ConfigDocument.apiVersion
  | modelId => ConfigDocument.modelId
  | swVersion => ConfigDocument.swVersion

/-- The document with another text. -/
def put : Label → Option String → ConfigDocument → ConfigDocument
  | name, text, document => { document with name := text }
  | bridgeId, text, document => { document with bridgeId := text }
  | mac, text, document => { document with mac := text }
  | apiVersion, text, document => { document with apiVersion := text }
  | modelId, text, document => { document with modelId := text }
  | swVersion, text, document => { document with swVersion := text }

variable {label other : Label} {text : Option String} {document changed : ConfigDocument}

theorem key_inj (same : label.key = other.key) : label = other := by
  revert same
  cases label <;> cases other <;> decide

@[simp]
theorem get_put : label.get (label.put text document) = text := by
  cases label <;> rfl

theorem get_put_of_ne (apart : other ≠ label) :
    other.get (label.put text document) = other.get document := by
  cases label <;> cases other <;> first | rfl | exact absurd rfl apart

/-- A document is nothing but its texts. -/
theorem ext_get (same : ∀ label : Label, label.get document = label.get changed) :
    document = changed := by
  cases document
  cases changed
  simp only [mk.injEq]
  exact ⟨same .name, same .bridgeId, same .mac, same .apiVersion, same .modelId, same .swVersion⟩

/-- The labels of the texts that a document is made of. -/
def labelling : Labelling Label record where
  labels := all
  key := key
  get := get
  value := Draft.document
  given := Draft.given
  store label text draft := ⟨label.key :: draft.given, label.put text draft.document⟩
  nodup := by decide
  complete label := by cases label <;> decide
  key_inj := key_inj
  ext_get := ext_get
  get_store _ _ _ := get_put
  get_store_of_ne _ _ apart := get_put_of_ne apart
  given_store _ _ _ := rfl
  given_empty := rfl
  get_empty label := by cases label <;> rfl
  fields_eq := rfl
  ofObject_eq _ := rfl
  ofArray_eq _ _ := rfl

end Label

/-! ## Drafts -/

/-- Named items make a document out of a draft.  None of them gives a text for a second time; those
with the name of a label are written for its text; and the others are values of any shape. -/
structure Completes (members : List (String × List Char)) (draft : Draft)
    (document : ConfigDocument) : Prop where
  once : ∀ label : Label, (members.map Prod.fst).count label.key ≤ 1
  fresh : ∀ label : Label, label.key ∈ draft.given → label.key ∉ members.map Prod.fst
  written : ∀ (label : Label) (item : List Char), (label.key, item) ∈ members →
    IsOptional IsText (label.get document) item
  kept : ∀ label : Label, label.key ∉ members.map Prod.fst →
    label.get document = label.get draft.document
  values : ∀ member ∈ members, IsValue member.2

theorem completes_iff {members : List (String × List Char)} {draft : Draft}
    {document : ConfigDocument} :
    Label.labelling.Completes members draft document ↔ Completes members draft document := by
  constructor
  · rintro ⟨once, fresh, written, kept, values⟩
    exact ⟨once, fresh, written, kept, values⟩
  · rintro ⟨once, fresh, written, kept, values⟩
    exact ⟨once, fresh, written, kept, values⟩

/-! ## Documents -/

/-- The names of the members, in the order of an array. -/
def names : List String :=
  Label.all.map Label.key

/-- A document is written as an object, whose members have the names of its texts, or as an array,
in which each text has its place. -/
inductive IsWritten (document : ConfigDocument) : List Char → Prop where
  | object {members : List (String × List Char)} {object : List Char}
      (layout : MemberTexts IsText true members object)
      (completes : Completes members {} document) : IsWritten document ('\x7b' :: object)
  | array {items : List (List Char)} {array : List Char} (layout : ElementTexts true items array)
      (few : items.length ≤ names.length) (completes : Completes (names.zip items) {} document) :
      IsWritten document ('[' :: array)

/-- The body is the document, with blanks around it. -/
def IsBody (document : ConfigDocument) (body : String) : Prop :=
  ∃ before text after, IsBlank before ∧ document.IsWritten text ∧ IsBlank after ∧
    body.toList = before ++ (text ++ after)

section

variable {document : ConfigDocument} {text : List Char}

theorem isWritten_iff : Label.labelling.IsWritten document text ↔ document.IsWritten text := by
  constructor
  · intro isWritten
    cases isWritten with
    | object layout completes => exact .object layout (completes_iff.mp completes)
    | array layout few completes => exact .array layout few (completes_iff.mp completes)
  · intro isWritten
    cases isWritten with
    | object layout completes => exact .object layout (completes_iff.mpr completes)
    | array layout few completes => exact .array layout few (completes_iff.mpr completes)

/-- A body is read as the document that it is, and as nothing else. -/
theorem parse_eq_ok {body : String} : parse body = .ok document ↔ document.IsBody body := by
  rw [parse, Label.labelling.decode_iff]
  simp only [isWritten_iff, IsBody]

end

/-! ## Bridges -/

/-- One of the members has the name of the label, and a string for its value. -/
def GivesText (members : List (String × List Char)) (label : Label) : Prop :=
  ∃ text item, (label.key, item) ∈ members ∧ IsText text item

/-- The members give what it takes to identify a bridge: an id or a hardware address, and either a
name or a model with an interface version. -/
def Identifies (members : List (String × List Char)) : Prop :=
  (GivesText members .bridgeId ∨ GivesText members .mac) ∧
    (GivesText members .name ∨ GivesText members .modelId ∧ GivesText members .apiVersion)

/-- The elements of an array are no more than there are names, each of them is `null` or a string,
and they give in their places what it takes to identify a bridge. -/
structure IdentifyInOrder (items : List (List Char)) : Prop where
  few : items.length ≤ names.length
  optional : ∀ item ∈ items, ∃ text, IsOptional IsText text item
  identifies : Identifies (names.zip items)

section

variable {members : List (String × List Char)} {items : List (List Char)}
  {document : ConfigDocument} {text ip : String} {bridge : Bridge}

theorem Completes.givesText (completes : Completes members {} document) (label : Label)
    (given : label.get document = some text) : GivesText members label := by
  by_cases known : label.key ∈ members.map Prod.fst
  · rcases List.mem_map.mp known with ⟨⟨name, item⟩, member, rfl⟩
    have written := completes.written label item member
    rw [given] at written
    exact ⟨text, item, member, written⟩
  · rw [completes.kept label known] at given
    cases label <;> cases given

theorem Describes.identifies (describes : document.Describes ip bridge)
    (completes : Completes members {} document) : Identifies members := by
  have hasId : ∃ id, document.HasId id := ⟨_, describes.hasId⟩
  constructor
  · rcases hasId with ⟨id, hasId⟩
    cases hasId with
    | stated given => exact .inl (completes.givesText .bridgeId given)
    | derived _ given => exact .inr (completes.givesText .mac given)
  · rcases describes.isOfBridge with ⟨model, version, isModel, -, isVersion, -⟩ |
      ⟨name, product, isName, -⟩
    · exact .inr ⟨completes.givesText .modelId isModel,
        completes.givesText .apiVersion isVersion⟩
    · exact .inl (completes.givesText .name isName)

theorem Completes.optional (completes : Completes (names.zip items) {} document)
    (few : items.length ≤ names.length) :
    ∀ item ∈ items, ∃ text, IsOptional IsText text item :=
  Labelling.Completes.optional (completes_iff.mpr completes) few

theorem IsWritten.isValue {item : List Char} (isWritten : document.IsWritten item) :
    IsValue item :=
  (isWritten_iff.mpr isWritten).isValue

end

end ConfigDocument

open Json ConfigDocument

section

variable {ip body : String} {bridge : Bridge}

theorem confirm?_eq_some : confirm? ip body = some bridge ↔
    ∃ document, IsBody document body ∧ document.Describes ip bridge := by
  simp only [← parse_eq_ok, ← bridge?_eq_some, confirm?]
  constructor
  · intro found
    split at found
    · rename_i document parsed
      exact ⟨document, parsed, found⟩
    · cases found
  · rintro ⟨document, parsed, found⟩
    simp only [parsed, found]

/-- An array is confirmed only if its elements identify a bridge in their order. -/
theorem identifyInOrder_of_confirm? {before array after : List Char} {items : List (List Char)}
    (found : confirm? ip body = some bridge) (blank : IsBlank before)
    (layout : ElementTexts true items array) (each : ∀ item ∈ items, IsValue item)
    (split : body.toList = before ++ ('[' :: array ++ after)) : IdentifyInOrder items := by
  rcases confirm?_eq_some.mp found with
    ⟨document, ⟨gap, item, rest, blankToo, isWritten, -, splitToo⟩, describes⟩
  have opens : Opens ('[' :: array) := ⟨_, _, rfl, by decide, by decide⟩
  have same := opens.eq_of_append blank isWritten.isValue.opens blankToo
    (split.symm.trans splitToo)
  cases isWritten with
  | object => cases (List.cons.inj same).1
  | array layoutToo few completes =>
      have optional := completes.optional few
      have eachToo item member := (optional item member).elim fun _ => IsOptional.isValue
      obtain rfl := layout.eq_of_append layoutToo each eachToo (List.cons.inj same).2
      exact ⟨few, optional, describes.identifies completes⟩

end

/-- Which bodies are confirmed.  A body is confirmed exactly if it is a document that describes a
bridge.  Such a body is a value of JSON with blanks around it: an object that has members with the
strings that identify a bridge, or an array whose elements are these strings in their places, with
`null` in the others.  An array that has any other element is not confirmed; in particular, an array
of objects is not. -/
theorem confirm?_written (ip body : String) :
    (∀ bridge, confirm? ip body = some bridge ↔
        ∃ document, IsBody document body ∧ document.Describes ip bridge) ∧
      (∀ bridge, confirm? ip body = some bridge →
        ∃ before text after, IsBlank before ∧ IsBlank after ∧ IsValue text ∧
          body.toList = before ++ (text ++ after) ∧
            ((∃ members object, text = '\x7b' :: object ∧
                MemberTexts IsText true members object ∧ Identifies members) ∨
              ∃ items array, text = '[' :: array ∧
                ElementTexts true items array ∧ IdentifyInOrder items)) ∧
      ∀ before items array after, IsBlank before → ElementTexts true items array →
        (∀ item ∈ items, IsValue item) → body.toList = before ++ ('[' :: array ++ after) →
          (∀ bridge, confirm? ip body = some bridge → IdentifyInOrder items) ∧
            ∀ object, '\x7b' :: object ∈ items → confirm? ip body = none := by
  refine ⟨fun _ => confirm?_eq_some, ?_, ?_⟩
  · intro bridge found
    rcases confirm?_eq_some.mp found with
      ⟨document, ⟨before, text, after, blank, isWritten, blankAfter, split⟩, describes⟩
    refine ⟨before, text, after, blank, blankAfter, isWritten.isValue, split, ?_⟩
    cases isWritten with
    | object layout completes =>
        exact .inl ⟨_, _, rfl, layout, describes.identifies completes⟩
    | array layout few completes =>
        exact .inr ⟨_, _, rfl, layout, few, completes.optional few, describes.identifies completes⟩
  · intro before items array after blank layout each split
    have inOrder {bridge : Bridge} (found : confirm? ip body = some bridge) :=
      identifyInOrder_of_confirm? found blank layout each split
    refine ⟨fun _ => inOrder, ?_⟩
    intro object member
    cases answer : confirm? ip body with
    | none => rfl
    | some bridge =>
        rcases (inOrder answer).optional _ member with ⟨text, written⟩
        cases text with
        | none => cases written
        | some text =>
            rcases written with ⟨inside, -, front⟩
            cases front

/-- An array with a name and an id in front is confirmed, although it is no object. -/
theorem confirm?_of_array :
    confirm? "10.0.0.2" "[\"Philips hue\",\"001788fffe0ab1c2\",null,null,null,null]" =
        some ⟨"001788FFFE0AB1C2", "10.0.0.2", "", "", "Philips hue", ""⟩ ∧
      ∀ before object, IsBlank before →
        "[\"Philips hue\",\"001788fffe0ab1c2\",null,null,null,null]".toList ≠
          before ++ '\x7b' :: object := by
  refine ⟨by decide +kernel, ?_⟩
  intro before object blank same
  cases before with
  | nil => cases (List.cons.inj same).1
  | cons c before =>
      obtain rfl := (List.cons.inj same).1
      exact absurd (blank _ List.mem_cons_self) (by decide)

end BridgeFinder
