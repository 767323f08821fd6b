import BridgeFinder.Yaml.Node
import BridgeFinder.Yaml.Token.Scan

/-!
# From tokens to documents

Tokens are read from left to right without going back.  What is missing between
two of them is an empty scalar, placed where the one before ends or the one after
begins.
-/

namespace BridgeFinder.Yaml

/-- What is known in the middle of a document: the tokens to come, the handles of
tags with their expansions, and the anchors so far. -/
structure Reading where
  tokens : List Token
  handles : List (List Char × List Char) := []
  /-- The names of all anchors that have begun, the last one first. -/
  names : List (List Char) := []
  /-- The anchors whose nodes have ended, the last one first. -/
  anchors : List Anchor := []
  size : Nat := 0

namespace Reading

/-- What the next token is. -/
def kind? (r : Reading) : Option Token.Kind :=
  r.tokens.head?.map Token.kind

/-- Where the next token begins. -/
def start (r : Reading) : Mark :=
  (r.tokens.head?.map Token.start).getD ⟨0, 0⟩

/-- Where the next token ends. -/
def stop (r : Reading) : Mark :=
  (r.tokens.head?.map Token.stop).getD ⟨0, 0⟩

/-- Move over the next token. -/
def next (r : Reading) : Reading :=
  { r with tokens := r.tokens.drop 1 }

/-- The next token is one of the given ones. -/
def isAt (r : Reading) (kinds : List Token.Kind) : Bool :=
  r.kind?.any kinds.contains

/-- Count `n` more nodes and brackets. -/
def count (r : Reading) (n : Nat) : Reading :=
  { r with size := r.size + n }

/-- Note that an anchor begins, and give its number. -/
def begin (r : Reading) (name : List Char) : Nat × Reading :=
  (r.names.length, { r with names := name :: r.names })

/-- The number of the last anchor of the given name. -/
def anchor? (r : Reading) (name : List Char) : Option Nat :=
  (r.names.idxOf? name).map fun i => r.names.length - 1 - i

end Reading

/-- Expand the handle of a tag. -/
def expandTag (handles : List (List Char × List Char)) (handle suffix : List Char) :
    Option Tag :=
  if handle.isEmpty then some ⟨[], suffix⟩
  else (handles.lookup handle).map fun expansion => ⟨expansion, suffix⟩

/-- The anchor and the tag before a node. -/
structure Properties where
  mark : Mark
  anchor : Option (List Char) := none
  tag : Option Tag := none

/-- Read the anchor and the tag before a node, in either order. -/
def readProperties (r : Reading) : Option (Properties × Reading) := do
  let mark := r.start
  match r.kind? with
  | some (.anchor name) =>
      match r.next.kind? with
      | some (.tag handle suffix) =>
          let tag ← expandTag r.handles handle suffix
          pure (⟨mark, some name, some tag⟩, r.next.next)
      | _ => pure (⟨mark, some name, none⟩, r.next)
  | some (.tag handle suffix) =>
      let tag ← expandTag r.handles handle suffix
      match r.next.kind? with
      | some (.anchor name) => pure (⟨mark, some name, some tag⟩, r.next.next)
      | _ => pure (⟨mark, none, some tag⟩, r.next)
  | _ => pure (⟨mark, none, none⟩, r)

/-- The tag of a scalar: the tag that is a mere exclamation mark says nothing. -/
def scalarTag (tag : Option Tag) : Option Tag :=
  tag.filter fun tag => tag.text != ['!']

/-- An empty scalar at the given place. -/
def emptyScalar (mark : Mark) (tag : Option Tag) : Node :=
  .scalar mark ⟨tag, .plain, []⟩

/-- Give a node that was just read, and note its anchor if it has one. -/
def withAnchor (properties : Properties) (number : Nat) (result : Node × Reading) :
    Node × Reading :=
  match properties.anchor with
  | some name =>
      (result.1, { result.2 with anchors := ⟨number, name, result.1⟩ :: result.2.anchors })
  | none => result

mutual

/-- Read a node.  `block` admits block collections, `indentless` also a block
sequence that is not indented further than the key it belongs to. -/
def readNode (block indentless : Bool) : Nat → Reading → Option (Node × Reading)
  | 0, _ => none
  | bound + 1, r => do
      match r.kind? with
      | some (.reference name) =>
          let anchor ← r.anchor? name
          pure (.reference r.start anchor, r.next.count 1)
      | _ =>
          let (properties, r) ← readProperties r
          let (number, r) :=
            match properties.anchor with
            | some name => r.begin name
            | none => (0, r)
          let mark := properties.mark
          let tag := properties.tag
          let result ←
            match r.kind? with
            | some (.scalar style text) =>
                pure (Node.scalar mark ⟨scalarTag tag, style, text⟩, r.next.count 1)
            | some .flowSequenceStart =>
                let (elements, r) ← readFlowElements bound true (r.next.count 2)
                pure (Node.sequence mark tag elements, r)
            | some .flowMappingStart =>
                let (members, r) ← readFlowMembers bound true (r.next.count 2)
                pure (Node.mapping mark tag members, r)
            | some .blockEntry =>
                if indentless then
                  let (elements, r) ← readEntries false bound (r.count 2)
                  pure (Node.sequence mark tag elements, r)
                else if properties.anchor.isSome ∨ tag.isSome then
                  pure (emptyScalar mark tag, r.count 1)
                else none
            | some .blockSequenceStart =>
                if block then
                  let (elements, r) ← readEntries true bound (r.next.count 2)
                  pure (Node.sequence mark tag elements, r)
                else if properties.anchor.isSome ∨ tag.isSome then
                  pure (emptyScalar mark tag, r.count 1)
                else none
            | some .blockMappingStart =>
                if block then
                  let (members, r) ← readBlockMembers bound (r.next.count 2)
                  pure (Node.mapping mark tag members, r)
                else if properties.anchor.isSome ∨ tag.isSome then
                  pure (emptyScalar mark tag, r.count 1)
                else none
            | _ =>
                if properties.anchor.isSome ∨ tag.isSome then
                  pure (emptyScalar mark tag, r.count 1)
                else none
          pure (withAnchor properties number result)

/-- Read the entries of a block sequence, with the token that closes it if it is
`closed` by one. -/
def readEntries (closed : Bool) : Nat → Reading → Option (List Node × Reading)
  | 0, _ => none
  | bound + 1, r => do
      match r.kind? with
      | some .blockEntry =>
          let mark := r.stop
          let r := r.next
          let missing := if closed then [Token.Kind.blockEntry, .blockEnd]
            else [.blockEntry, .key, .value, .blockEnd]
          let (node, r) ←
            if r.isAt missing then pure (emptyScalar mark none, r.count 1)
            else readNode true false bound r
          let (nodes, r) ← readEntries closed bound r
          pure (node :: nodes, r)
      | some .blockEnd => pure ([], if closed then r.next else r)
      | _ => if closed then none else pure ([], r)

/-- Read the members of a block mapping and the token that closes it. -/
def readBlockMembers : Nat → Reading → Option (List (Node × Node) × Reading)
  | 0, _ => none
  | bound + 1, r => do
      match r.kind? with
      | some .key =>
          let mark := r.stop
          let r := r.next
          let (key, r) ←
            if r.isAt [.key, .value, .blockEnd] then pure (emptyScalar mark none, r.count 1)
            else readNode true true bound r
          let (value, r) ←
            match r.kind? with
            | some .value =>
                let mark := r.stop
                let r := r.next
                if r.isAt [.key, .value, .blockEnd] then pure (emptyScalar mark none, r.count 1)
                else readNode true true bound r
            | _ => pure (emptyScalar r.start none, r.count 1)
          let (members, r) ← readBlockMembers bound r
          pure ((key, value) :: members, r)
      | some .blockEnd => pure ([], r.next)
      | _ => none

/-- Read the elements of a flow sequence and its closing bracket.  An element may
be a single pair, announced by a key. -/
def readFlowElements : Nat → Bool → Reading → Option (List Node × Reading)
  | 0, _, _ => none
  | bound + 1, first, r => do
      if r.isAt [.flowSequenceEnd] then pure ([], r.next)
      else
        let r ← if first then pure r else if r.isAt [.flowEntry] then pure r.next else none
        if r.isAt [.flowSequenceEnd] then pure ([], r.next)
        else if r.isAt [.key] then
          let mark := r.start
          let r := (r.next).count 2
          let (key, r) ←
            if r.isAt [.value, .flowEntry, .flowSequenceEnd] then
              pure (emptyScalar r.stop none, r.next.count 1)
            else readNode false false bound r
          let (value, r) ← readFlowValue [.flowEntry, .flowSequenceEnd] bound r
          let (nodes, r) ← readFlowElements bound false r
          pure (.mapping mark none [(key, value)] :: nodes, r)
        else
          let (node, r) ← readNode false false bound r
          let (nodes, r) ← readFlowElements bound false r
          pure (node :: nodes, r)

/-- Read the members of a flow mapping and its closing brace. -/
def readFlowMembers : Nat → Bool → Reading → Option (List (Node × Node) × Reading)
  | 0, _, _ => none
  | bound + 1, first, r => do
      if r.isAt [.flowMappingEnd] then pure ([], r.next)
      else
        let r ← if first then pure r else if r.isAt [.flowEntry] then pure r.next else none
        if r.isAt [.flowMappingEnd] then pure ([], r.next)
        else if r.isAt [.key] then
          let r := r.next
          let (key, r) ←
            if r.isAt [.value, .flowEntry, .flowMappingEnd] then
              pure (emptyScalar r.start none, r.count 1)
            else readNode false false bound r
          let (value, r) ← readFlowValue [.flowEntry, .flowMappingEnd] bound r
          let (members, r) ← readFlowMembers bound false r
          pure ((key, value) :: members, r)
        else
          let (key, r) ← readNode false false bound r
          let value := emptyScalar r.start none
          let (members, r) ← readFlowMembers bound false (r.count 1)
          pure ((key, value) :: members, r)

/-- Read the value of a pair in a flow collection; before one of the tokens `ends`
it is missing. -/
def readFlowValue (ends : List Token.Kind) : Nat → Reading → Option (Node × Reading)
  | 0, _ => none
  | bound + 1, r =>
      if r.isAt [.value] then
        let r := r.next
        if r.isAt ends then some (emptyScalar r.start none, r.count 1)
        else readNode false false bound r
      else some (emptyScalar r.start none, r.count 1)

end

/-- The handles that every document knows. -/
def standardHandles : List (List Char × List Char) :=
  [(['!'], ['!']), (['!', '!'], coreExpansion)]

/-- Read the directives before a document.  There is at most one version, and a
handle is declared at most once. -/
def readDirectives : Bool → Reading → List Token → Option Reading
  | versioned, r, ⟨.versionDirective major minor, _, _⟩ :: tokens =>
      if versioned ∨ major ≠ 1 ∨ (minor ≠ 1 ∧ minor ≠ 2) then none
      else readDirectives true { r with tokens := tokens } tokens
  | versioned, r, ⟨.tagDirective handle expansion, _, _⟩ :: tokens =>
      if (r.handles.lookup handle).isSome then none
      else
        readDirectives versioned
          { r with tokens := tokens, handles := (handle, expansion) :: r.handles } tokens
  | _, r, _ =>
      some { r with handles := r.handles ++
        standardHandles.filter fun standard => (r.handles.lookup standard.1).isNone }

/-- The document that has been read. -/
def Reading.document (result : Node × Reading) : Document :=
  ⟨result.1, result.2.anchors.reverse, result.2.size⟩

/-- Read the documents of a stream.  Only the first one may begin without a
marker. -/
def readDocuments : Nat → Bool → List Token → Option (List Document)
  | 0, _, _ => none
  | bound + 1, first, tokens => do
      let tokens :=
        if first then tokens else tokens.dropWhile fun token => token.kind = .documentEnd
      let begun : Reading := { tokens := tokens }
      if begun.isAt [.streamEnd] then pure []
      else
        let r ← readDirectives false begun tokens
        let declared := r.tokens.length < tokens.length
        let explicit := r.isAt [.documentStart]
        if !explicit ∧ (declared ∨ !first) then none
        else
          let r := if explicit then r.next else r
          let (root, r) ←
            match r.kind? with
            | some (.versionDirective _ _) => pure (emptyScalar r.start none, r.count 1)
            | some (.tagDirective _ _) => pure (emptyScalar r.start none, r.count 1)
            | _ =>
                if r.isAt [.documentStart, .documentEnd, .streamEnd] ∧ explicit then
                  pure (emptyScalar r.start none, r.count 1)
                else readNode true false (3 * r.tokens.length + 3) r
          let tokens := if r.isAt [.documentEnd] then r.next.tokens else r.tokens
          let documents ← readDocuments bound false tokens
          pure (Reading.document (root, r) :: documents)

/-- The documents of a text, unless it is malformed. -/
def documents? (text : List Char) : Option (List Document) := do
  let tokens ← tokens? text
  readDocuments (tokens.size + 1) true tokens.toList

end BridgeFinder.Yaml
