import BridgeFinder.Yaml.Token.Scalar
import BridgeFinder.Yaml.Token.Tag

/-!
# From text to tokens

Outside of flow collections, indentation opens and closes blocks.  Most keys carry
no indicator of their own: only a later colon tells that what came before was a
key.  A place where such a key may stand is therefore remembered, and the tokens
that announce the key are inserted there when the colon is met.  A key must not
cross a line, nor be longer than 1024 characters.
-/

namespace BridgeFinder.Yaml

/-- A place where a key without indicator may begin. -/
structure KeyPlace where
  /-- The block requires that there is a key. -/
  required : Bool
  /-- The number of tokens before the place. -/
  tokens : Nat
  mark : Mark
  /-- The number of characters before the place. -/
  index : Nat
deriving DecidableEq, Repr

/-- What is known in the middle of a text. -/
structure Scanner where
  cursor : Cursor
  tokens : Array Token := #[]
  /-- The column of the innermost block, or `-1`. -/
  indent : Int := -1
  /-- The columns of the blocks around it, from the inside. -/
  outer : List Int := []
  /-- A key may begin here. -/
  keyAllowed : Bool := true
  /-- The place of the last possible key, for every flow collection around here
  from the inside, and for the block around all of them. -/
  places : List (Option KeyPlace) := [none]

namespace Scanner

/-- There is a flow collection around here. -/
def inFlow (s : Scanner) : Bool :=
  s.places.length > 1

/-- Add a token that ends at the given place. -/
def push (s : Scanner) (kind : Token.Kind) (stop : Cursor) : Scanner :=
  { s with cursor := stop, tokens := s.tokens.push ⟨kind, s.cursor.mark, stop.mark⟩ }

/-- Add a token without extent. -/
def pushHere (s : Scanner) (kind : Token.Kind) : Scanner :=
  s.push kind s.cursor

/-- Open a block at the given column, unless it is open already.  The token goes
in front of the tokens after the first `place`. -/
def openBlock (s : Scanner) (column : Nat) (place : Nat) (kind : Token.Kind) (mark : Mark) :
    Scanner :=
  if s.inFlow ∨ (column : Int) ≤ s.indent then s
  else
    { s with
      indent := column
      outer := s.indent :: s.outer
      tokens := s.tokens.insertIdxIfInBounds place ⟨kind, mark, mark⟩ }

/-- Close the blocks that are indented further than the given column; the bound is
on their number. -/
def closeBlocks (column : Int) : Nat → Scanner → Scanner
  | 0, s => s
  | bound + 1, s =>
      if s.inFlow ∨ s.indent ≤ column then s
      else
        closeBlocks column bound
          { s.pushHere .blockEnd with indent := s.outer.headD (-1), outer := s.outer.drop 1 }

/-- Close the blocks that are indented further than the given column. -/
def unindent (s : Scanner) (column : Int) : Scanner :=
  s.closeBlocks column (s.outer.length + 1)

/-- Forget the possible key of the innermost collection; a required one cannot be
forgotten. -/
def dropKey (s : Scanner) : Option Scanner :=
  match s.places with
  | some place :: places =>
      if place.required then none else some { s with places := none :: places }
  | _ => some s

/-- Remember that a key may begin here. -/
def saveKey (s : Scanner) : Option Scanner :=
  if s.keyAllowed then do
    let s ← s.dropKey
    let place : KeyPlace :=
      { required := !s.inFlow && s.indent == (s.cursor.column : Int)
        tokens := s.tokens.size
        mark := s.cursor.mark
        index := s.cursor.index }
    pure { s with places := some place :: s.places.drop 1 }
  else some s

/-- A key that begins at the given place cannot reach as far as the cursor. -/
def isStale (s : Scanner) (place : KeyPlace) : Bool :=
  place.mark.line < s.cursor.line || place.index + 1024 < s.cursor.index

/-- Forget the possible keys that are too far away. -/
def dropStaleKeys (s : Scanner) : Option Scanner := do
  let places ← s.places.mapM fun place =>
    match place with
    | some place =>
        if s.isStale place then if place.required then none else some none else some (some place)
    | none => some none
  pure { s with places := places }

/-- Move to the next token, over gaps, comments and line breaks.  Tabs count as
gaps only where no block can begin. -/
def skipToToken : Nat → Scanner → Scanner
  | 0, s => s
  | bound + 1, s =>
      let cursor :=
        if s.cursor.column = 0 ∧ s.cursor.head? = some byteOrderMark then s.cursor.skip 1
        else s.cursor
      let tabs := s.inFlow || !s.keyAllowed
      let cursor := cursor.skipWhile fun c => c == ' ' || (tabs && c == '\t')
      let cursor := if cursor.head? = some '#' then cursor.skipLine else cursor
      if cursor.head?.any isBreak then
        skipToToken bound
          { s with cursor := cursor.takeBreak.2, keyAllowed := s.keyAllowed || !s.inFlow }
      else { s with cursor := cursor }

/-- Take the end of the text. -/
def takeEnd (s : Scanner) : Option Scanner := do
  let cursor :=
    if s.cursor.column = 0 then s.cursor
    else { s.cursor with line := s.cursor.line + 1, column := 0 }
  let s ← ({ s with cursor := cursor }.unindent (-1)).dropKey
  pure (s.pushHere .streamEnd)

/-- Take a token at the left margin, which closes all blocks. -/
def takeMarginal (s : Scanner) (kind : Token.Kind) (stop : Cursor) : Option Scanner := do
  let s ← (s.unindent (-1)).dropKey
  pure ({ s with keyAllowed := false }.push kind stop)

/-- Take the bracket that opens a flow collection. -/
def takeFlowStart (s : Scanner) (kind : Token.Kind) : Option Scanner := do
  let s ← s.saveKey
  pure ({ s with places := none :: s.places, keyAllowed := true }.push kind (s.cursor.skip 1))

/-- Take the bracket that closes a flow collection. -/
def takeFlowEnd (s : Scanner) (kind : Token.Kind) : Option Scanner := do
  let s ← s.dropKey
  let places := if s.inFlow then s.places.drop 1 else s.places
  pure ({ s with places := places, keyAllowed := false }.push kind (s.cursor.skip 1))

/-- Take the comma between the parts of a flow collection. -/
def takeFlowEntry (s : Scanner) : Option Scanner := do
  let s ← s.dropKey
  pure ({ s with keyAllowed := true }.push .flowEntry (s.cursor.skip 1))

/-- Open a block for an indicator at the cursor, which must be at a place where a
key may begin. -/
def openHere (s : Scanner) (kind : Token.Kind) : Option Scanner :=
  if s.inFlow then some s
  else if s.keyAllowed then
    some (s.openBlock s.cursor.column s.tokens.size kind s.cursor.mark)
  else none

/-- Take the hyphen before an entry of a block sequence. -/
def takeBlockEntry (s : Scanner) : Option Scanner := do
  let s ← s.openHere .blockSequenceStart
  let s ← s.dropKey
  pure ({ s with keyAllowed := true }.push .blockEntry (s.cursor.skip 1))

/-- Take the question mark before a key. -/
def takeKey (s : Scanner) : Option Scanner := do
  let s ← s.openHere .blockMappingStart
  let s ← s.dropKey
  pure ({ s with keyAllowed := !s.inFlow }.push .key (s.cursor.skip 1))

/-- Take the colon before a value, and announce the key before it if it had no
indicator. -/
def takeValue (s : Scanner) : Option Scanner :=
  match s.places with
  | some place :: places =>
      let key : Token := ⟨.key, place.mark, place.mark⟩
      let s := { s with places := none :: places, keyAllowed := false }
      let s := { s with tokens := s.tokens.insertIdxIfInBounds place.tokens key }
      let s := s.openBlock place.mark.column place.tokens .blockMappingStart place.mark
      some (s.push .value (s.cursor.skip 1))
  | _ => do
      let s ← s.openHere .blockMappingStart
      pure ({ s with keyAllowed := !s.inFlow }.push .value (s.cursor.skip 1))

/-- Take an anchor or an alias. -/
def takeAnchor (s : Scanner) (kind : List Char → Token.Kind) : Option Scanner := do
  let s ← s.saveKey
  let (name, stop) ← readAnchorName (s.cursor.skip 1)
  pure ({ s with keyAllowed := false }.push (kind name) stop)

/-- Take a tag. -/
def takeTag (s : Scanner) : Option Scanner := do
  let s ← s.saveKey
  let (kind, stop) ← readTag s.inFlow s.cursor
  pure ({ s with keyAllowed := false }.push kind stop)

/-- Take a block scalar. -/
def takeBlock (s : Scanner) (style : Style) : Option Scanner := do
  let s ← s.dropKey
  let (text, stop) ← readBlock (style == .literal) s.indent (s.cursor.skip 1)
  pure ({ s with keyAllowed := true }.push (.scalar style text) stop)

/-- Take a quoted scalar. -/
def takeQuoted (s : Scanner) (style : Style) (quote : Char) : Option Scanner := do
  let s ← s.saveKey
  let (text, stop) ← readQuoted quote (s.cursor.rest.length + 1) [] (s.cursor.skip 1)
  pure ({ s with keyAllowed := false }.push (.scalar style text) stop)

/-- Take a plain scalar.  After a line break a key may begin again. -/
def takePlain (s : Scanner) : Option Scanner := do
  let s ← s.saveKey
  let (text, broken, stop, cursor) ←
    readPlain s.inFlow (s.indent + 1) (s.cursor.rest.length + 1) [] s.cursor.mark {} s.cursor
  pure
    { s with
      cursor := cursor
      keyAllowed := broken
      tokens := s.tokens.push ⟨.scalar .plain text, s.cursor.mark, stop⟩ }

/-- A plain scalar may begin with `c`, which `next` follows. -/
def startsPlain (s : Scanner) (c : Char) (next : Option Char) : Bool :=
  if c == '-' then !next.any isGap
  else if c == '?' || c == ':' then !s.inFlow && !endsWord next
  else !(isGap c || isBreak c || ",[]\x7b\x7d#&*!|>'\"%@\x60".toList.contains c)

/-- Take the next token.  The flag tells whether it was the last one. -/
def takeToken (s : Scanner) : Option (Bool × Scanner) := do
  let s := s.skipToToken (s.cursor.rest.length + 1)
  let s ← s.dropStaleKeys
  let s := s.unindent s.cursor.column
  match s.cursor.head? with
  | none => pure (true, ← s.takeEnd)
  | some c =>
      let next := s.cursor.peek 1
      let s ←
        if s.cursor.column = 0 ∧ c = '%' then do
          let s ← (s.unindent (-1)).dropKey
          let (kind, stop) ← readDirective (s.cursor.skip 1)
          pure ({ s with keyAllowed := false }.push kind stop)
        else if s.cursor.atMarker ['-', '-', '-'] then
          s.takeMarginal .documentStart (s.cursor.skip 3)
        else if s.cursor.atMarker ['.', '.', '.'] then
          s.takeMarginal .documentEnd (s.cursor.skip 3)
        else if c = '[' then s.takeFlowStart .flowSequenceStart
        else if c = '\x7b' then s.takeFlowStart .flowMappingStart
        else if c = ']' then s.takeFlowEnd .flowSequenceEnd
        else if c = '\x7d' then s.takeFlowEnd .flowMappingEnd
        else if c = ',' then s.takeFlowEntry
        else if c = '-' ∧ endsWord next then s.takeBlockEntry
        else if c = '?' ∧ (s.inFlow ∨ endsWord next) then s.takeKey
        else if c = ':' ∧ (s.inFlow ∨ endsWord next) then s.takeValue
        else if c = '*' then s.takeAnchor .reference
        else if c = '&' then s.takeAnchor .anchor
        else if c = '!' then s.takeTag
        else if c = '|' ∧ !s.inFlow then s.takeBlock .literal
        else if c = '>' ∧ !s.inFlow then s.takeBlock .folded
        else if c = '\'' then s.takeQuoted .singleQuoted c
        else if c = '"' then s.takeQuoted .doubleQuoted c
        else if s.startsPlain c next then s.takePlain
        else none
      pure (false, s)

/-- Take tokens up to the last one, at most `bound` of them. -/
def takeTokens : Nat → Scanner → Option (Array Token)
  | 0, _ => none
  | bound + 1, s => do
      let (last, s) ← s.takeToken
      if last then pure s.tokens else takeTokens bound s

end Scanner

/-- A character that a text may contain at all. -/
def isAllowed (c : Char) : Bool :=
  let n := c.toNat
  n == 9 || n == 10 || n == 13 || (0x20 ≤ n && n ≤ 0x7E) || n == 0x85 ||
    (0xA0 ≤ n && n ≤ 0xFFFD) || 0x10000 ≤ n

/-- The tokens of a text, unless it is malformed. -/
def tokens? (text : List Char) : Option (Array Token) :=
  let text := if text.head? = some byteOrderMark then text.drop 1 else text
  if text.all isAllowed then
    Scanner.takeTokens (text.length + 2) { cursor := { rest := text } }
  else none

end BridgeFinder.Yaml
