import BridgeFinder.Json.Reader

/-!
# Decoding JSON into typed values

Decoders read a document from left to right and report the first thing that does
not fit.  A record may be written as an object, whose members come in any order
and whose unknown members are skipped, or as an array of its leading fields.  A
known member must not be repeated.
-/

namespace BridgeFinder.Json

/-- Report the value at the front of `text` as one of the wrong type.  Words,
numbers and strings are read to their ends first, brackets are not opened. -/
def wrongTypeAt {α : Type} (expected : String) (text : List Char) : Except Fault α := do
  let report {α : Type} (found : Found) (rest : List Char) : Except Fault α :=
    throw (.before (.wrongType found expected) rest)
  match text with
  | 'n' :: rest => do
      let rest ← readWord ['u', 'l', 'l'] rest
      report .unit rest
  | 't' :: rest => do
      let rest ← readWord ['r', 'u', 'e'] rest
      report (.boolean true) rest
  | 'f' :: rest => do
      let rest ← readWord ['a', 'l', 's', 'e'] rest
      report (.boolean false) rest
  | '-' :: rest => do
      let (numeral, rest) ← readUnsigned true rest
      report numeral.found rest
  | '"' :: rest => do
      let (string, rest) ← readString rest
      report (.string string) rest
  | '[' :: rest => report .sequence ('[' :: rest)
  | '\x7b' :: rest => report .map ('\x7b' :: rest)
  | [] => throw (.within .expectedValue [])
  | c :: rest =>
      if c.isDigit then do
        let (numeral, rest) ← readUnsigned false (c :: rest)
        report numeral.found rest
      else throw (.within .expectedValue (c :: rest))

/-- The rest of a document from its next token on, which must exist. -/
def nextToken (text : List Char) : Except Fault (List Char) :=
  match skipSpace text with
  | [] => .error (.within .endOfValue [])
  | rest => .ok rest

/-- Decode a string. -/
def string : Reader String := fun text => do
  match ← nextToken text with
  | '"' :: rest => readString rest
  | rest => wrongTypeAt "a string" rest

/-- Decode a string and convert it; a refused conversion is reported after the
string. -/
def stringAs {α : Type} (expected : String) (convert : String → Except Cause α) :
    Reader α := fun text => do
  match ← nextToken text with
  | '"' :: rest =>
      let (string, rest) ← readString rest
      match convert string with
      | .ok value => pure (value, rest)
      | .error cause => throw (.before cause rest)
  | rest => wrongTypeAt expected rest

/-- Decode `null` as an absent value and anything else with `decode`. -/
def optional {α : Type} (decode : Reader α) : Reader (Option α) := fun text => do
  match skipSpace text with
  | 'n' :: rest =>
      let rest ← readWord ['u', 'l', 'l'] rest
      pure (none, rest)
  | rest =>
      let (value, rest) ← decode rest
      pure (some value, rest)

/-- Take a numeral as a natural number of at most `largest`. -/
def Numeral.toNat? (largest : Nat) (expected : String) (rest : List Char) :
    Numeral → Except Fault (Nat × List Char)
  | natural value =>
      if value ≤ largest then .ok (value, rest)
      else .error (.before (.wrongValue (.integer value) expected) rest)
  | negative value => .error (.before (.wrongValue (.integer value) expected) rest)
  | float value => .error (.before (.wrongType (.float value) expected) rest)

/-- Decode a natural number of at most `largest`, called `expected` in
messages. -/
def natural (largest : Nat) (expected : String) : Reader Nat := fun text => do
  match ← nextToken text with
  | '-' :: rest =>
      let (numeral, rest) ← readUnsigned true rest
      numeral.toNat? largest expected rest
  | c :: rest =>
      if c.isDigit then
        let (numeral, rest) ← readUnsigned false (c :: rest)
        numeral.toNat? largest expected rest
      else wrongTypeAt expected (c :: rest)
  | [] => throw (.within .endOfValue [])

/-! ## Sequences -/

/-- Move to the next element of an array, or find its end.  `first` says that no
element came before. -/
def nextElement? (first : Bool) (text : List Char) : Except Fault (Option (List Char)) :=
  match skipSpace text with
  | [] => .error (.within .endOfList [])
  | ']' :: _ => .ok none
  | c :: rest =>
      if first then .ok (some (c :: rest))
      else if c = ',' then
        match skipSpace rest with
        | ']' :: rest => .error (.within .trailingComma (']' :: rest))
        | [] => .error (.within .endOfValue [])
        | rest => .ok (some rest)
      else .error (.within .expectedListCommaOrEnd (c :: rest))

/-- Decode the remaining elements of an array, at most `bound` of them, and stop
before its bracket. -/
def elementsUpTo {α : Type} (decode : Reader α) : Nat → Bool → Reader (List α)
  | 0, _, text => .error (.within .endOfList text)
  | bound + 1, first, text => do
      match ← nextElement? first text with
      | none => pure ([], skipSpace text)
      | some rest =>
          let (value, rest) ← decode rest
          let (values, rest) ← elementsUpTo decode bound false rest
          pure (value :: values, rest)

/-- Close an array. -/
def closeArray (text : List Char) : Except Fault (List Char) :=
  match skipSpace text with
  | ']' :: rest => .ok rest
  | ',' :: rest =>
      match skipSpace rest with
      | ']' :: rest => .error (.within .trailingComma (']' :: rest))
      | rest => .error (.within .trailingCharacters rest)
  | [] => .error (.within .endOfList [])
  | rest => .error (.within .trailingCharacters rest)

/-- Close an object. -/
def closeObject (text : List Char) : Except Fault (List Char) :=
  match skipSpace text with
  | '\x7d' :: rest => .ok rest
  | ',' :: rest => .error (.within .trailingComma (',' :: rest))
  | [] => .error (.within .endOfObject [])
  | rest => .error (.within .trailingCharacters rest)

/-- Decode an array of values of one kind. -/
def list {α : Type} (decode : Reader α) : Reader (List α) := fun text => do
  match ← nextToken text with
  | '[' :: rest =>
      let (values, rest) ← elementsUpTo decode (rest.length + 1) true rest
      let rest ← closeArray rest
      pure (values, rest)
  | rest => wrongTypeAt "a sequence" rest

/-! ## Records -/

/-- A field of a record that is collected in a draft of type `σ`. -/
structure RecordField (σ : Type) where
  /-- The name of the member that gives the field. -/
  name : String
  /-- The draft already has a value for this field. -/
  isSet : σ → Bool
  /-- Decode a value and put it into the draft. -/
  read : σ → Reader σ

/-- How a record is decoded: its name in messages, its fields in order, the empty
draft, and how a draft is completed.  A draft of an object lacks the fields that
no member gave; a draft of an array lacks the fields after its last element. -/
structure Record (σ α : Type) where
  name : String
  fields : List (RecordField σ)
  empty : σ
  ofObject : σ → Except Cause α
  ofArray : Nat → σ → Except Cause α

/-- The field that a member of the given name sets. -/
def fieldNamed? {σ : Type} (fields : List (RecordField σ)) (name : String) :
    Option (RecordField σ) :=
  fields.find? fun field => field.name == name

/-- Move to the next key of an object, or find its end.  The key's opening
quotation mark is left in place. -/
def nextKey? (first : Bool) (text : List Char) : Except Fault (Option (List Char)) :=
  match skipSpace text with
  | [] => .error (.within .endOfObject [])
  | '\x7d' :: _ => .ok none
  | c :: rest =>
      if first then
        if c = '"' then .ok (some (c :: rest)) else .error (.within .keyNotString (c :: rest))
      else if c = ',' then
        match skipSpace rest with
        | '"' :: rest => .ok (some ('"' :: rest))
        | '\x7d' :: rest => .error (.within .trailingComma ('\x7d' :: rest))
        | [] => .error (.within .endOfValue [])
        | rest => .error (.within .keyNotString rest)
      else .error (.within .expectedObjectCommaOrEnd (c :: rest))

/-- What the members of an object amount to: a draft, or the name of a field that
was given twice.  Either comes with the rest of the document. -/
inductive Members (σ : Type) where
  | complete (draft : σ) (rest : List Char)
  | repeated (name : String) (rest : List Char)

/-- Decode the remaining members of an object into a draft, at most `bound` of
them, and stop before its brace. -/
def membersUpTo {σ : Type} (fields : List (RecordField σ)) :
    Nat → Bool → σ → List Char → Except Fault (Members σ)
  | 0, _, _, text => .error (.within .endOfObject text)
  | bound + 1, first, draft, text => do
      match ← nextKey? first text with
      | none => pure (.complete draft (skipSpace text))
      | some rest =>
          let (key, rest) ← readString (rest.drop 1)
          match fieldNamed? fields key with
          | some field =>
              if field.isSet draft then pure (.repeated key rest)
              else
                let rest ← readColon rest
                let (draft, rest) ← field.read draft rest
                membersUpTo fields bound false draft rest
          | none =>
              let rest ← readColon rest
              let rest ← skipValue rest
              membersUpTo fields bound false draft rest

/-- Report a cause that concerns a whole object at the end of the object, or as
far towards it as the next token goes. -/
def faultAtEnd (cause : Cause) (text : List Char) : Fault :=
  match skipSpace text with
  | '\x7d' :: rest => .before cause rest
  | rest => .before cause rest

/-- Decode elements of an array into the fields of a record, in order.  Gives the
number of elements and the draft, and stops before the bracket or after the last
field. -/
def elementsInto {σ : Type} :
    List (RecordField σ) → Bool → Nat → σ → List Char → Except Fault (Nat × σ × List Char)
  | [], _, count, draft, text => .ok (count, draft, text)
  | field :: fields, first, count, draft, text => do
      match ← nextElement? first text with
      | none => pure (count, draft, skipSpace text)
      | some rest =>
          let (draft, rest) ← field.read draft rest
          elementsInto fields false (count + 1) draft rest

/-- Decode a record. -/
def Record.read {σ α : Type} (record : Record σ α) : Reader α := fun text => do
  match ← nextToken text with
  | '\x7b' :: rest =>
      match ← membersUpTo record.fields (rest.length + 1) true record.empty rest with
      | .complete draft rest =>
          match record.ofObject draft with
          | .ok value =>
              let rest ← closeObject rest
              pure (value, rest)
          | .error cause => throw (faultAtEnd cause rest)
      | .repeated name rest => throw (faultAtEnd (.duplicateField name) rest)
  | '[' :: rest =>
      let (count, draft, rest) ← elementsInto record.fields true 0 record.empty rest
      match record.ofArray count draft with
      | .ok value =>
          let rest ← closeArray rest
          pure (value, rest)
      | .error cause =>
          match closeArray rest with
          | .ok rest => throw (.before cause rest)
          | .error _ => throw (.before cause rest)
  | rest => wrongTypeAt ("struct " ++ record.name) rest

/-! ## Enumerations -/

/-- Find the value whose name is given, or say which names there are. -/
def variant {α : Type} (known : List (String × α)) (name : String) : Except Cause α :=
  match known.lookup name with
  | some value => .ok value
  | none => .error (.unknownVariant name (known.map Prod.fst))

/-- Decode the absent value. -/
def unit : Reader Unit := fun text => do
  match ← nextToken text with
  | 'n' :: rest =>
      let rest ← readWord ['u', 'l', 'l'] rest
      pure ((), rest)
  | rest => wrongTypeAt "unit" rest

/-- Decode a value of an enumeration: its name, or an object with the name as its
only key and `null` as the value. -/
def enumeration {α : Type} (known : List (String × α)) : Reader α := fun text => do
  match ← nextToken text with
  | '"' :: rest => stringAs "variant identifier" (variant known) ('"' :: rest)
  | '\x7b' :: rest =>
      let (value, rest) ← stringAs "variant identifier" (variant known) rest
      let rest ← readColon rest
      let (_, rest) ← unit rest
      match skipSpace rest with
      | '\x7d' :: rest => pure (value, rest)
      | [] => throw (.before .endOfObject [])
      | rest => throw (.before .expectedValue rest)
  | rest => throw (.within .expectedValue rest)

/-! ## Documents -/

/-- Decode a whole document: one value and nothing but blanks around it. -/
def decode {α : Type} (reader : Reader α) (document : String) : Except Error α :=
  let result := do
    let (value, rest) ← reader document.toList
    match skipSpace rest with
    | [] => pure value
    | rest => throw (Fault.within .trailingCharacters rest)
  result.mapError (Fault.locate document)

end BridgeFinder.Json
