import BridgeFinder.Text.Ascii
import BridgeFinder.Yaml.Token

/-!
# Scalars

A scalar may run over several lines.  In plain and quoted scalars a single line
break between two lines counts as a space, and of several breaks the first one is
dropped.  A literal block keeps its lines; a folded one joins lines of text and
leaves alone those that are indented further.

Each function takes a bound on the number of its steps; the length of the text is
enough for all of them.
-/

namespace BridgeFinder.Yaml

/-! ## Gaps between words -/

/-- What stands between two words of a scalar. -/
structure Gap where
  /-- The spaces before the first line break. -/
  spaces : List Char := []
  /-- A line break has been met. -/
  broken : Bool := false
  /-- The first line break. -/
  first : List Char := []
  /-- The line breaks after the first one. -/
  further : List Char := []
deriving DecidableEq, Repr

/-- Two parts of a scalar joined over a line break and further ones. -/
def foldBreaks (first further : List Char) : List Char :=
  if first = ['\n'] then
    if further.isEmpty then [' '] else further
  else first ++ further

/-- What a gap contributes to the text. -/
def Gap.text (gap : Gap) : List Char :=
  if gap.broken then foldBreaks gap.first gap.further else gap.spaces

/-- Read the gap at a cursor on top of `gap`.  Before the column `indent` of a
further line there must be no tab. -/
def readGap (indent : Int) : Nat → Gap → Cursor → Option (Gap × Cursor)
  | 0, gap, cursor => some (gap, cursor)
  | bound + 1, gap, cursor =>
      match cursor.head? with
      | none => some (gap, cursor)
      | some c =>
          if isGap c then
            if gap.broken ∧ (cursor.column : Int) < indent ∧ c = '\t' then none
            else
              let gap := if gap.broken then gap else { gap with spaces := gap.spaces ++ [c] }
              readGap indent bound gap (cursor.skip 1)
          else if isBreak c then
            let (line, cursor) := cursor.takeBreak
            let gap :=
              if gap.broken then { gap with further := gap.further ++ line }
              else { gap with spaces := [], broken := true, first := line }
            readGap indent bound gap cursor
          else some (gap, cursor)

/-! ## Plain scalars -/

/-- The characters that enclose and separate the parts of flow collections. -/
def isFlowIndicator (c : Char) : Bool :=
  c == ',' || c == '[' || c == ']' || c == '\x7b' || c == '\x7d'

/-- Read the characters of a plain scalar up to the next gap or the indicator that
ends it.  In a flow collection a colon must not touch the next indicator. -/
def readPlainWord (flow : Bool) : Nat → Cursor → Option (List Char × Cursor)
  | 0, cursor => some ([], cursor)
  | bound + 1, cursor =>
      match cursor.head? with
      | none => some ([], cursor)
      | some c =>
          if isGap c || isBreak c then some ([], cursor)
          else
            let next := cursor.peek 1
            if flow ∧ c = ':' ∧ next.any (fun d => isFlowIndicator d || d == '?') then none
            else if (c = ':' ∧ endsWord next) ∨ (flow ∧ isFlowIndicator c) then some ([], cursor)
            else do
              let (chars, cursor) ← readPlainWord flow bound (cursor.skip 1)
              pure (c :: chars, cursor)

/-- Read a plain scalar whose further lines are indented to at least `indent`,
after `text` and `gap`.  The result also says whether a line break stands before
the place where reading stopped, and where the text itself ends. -/
def readPlain (flow : Bool) (indent : Int) :
    Nat → List Char → Mark → Gap → Cursor → Option (List Char × Bool × Mark × Cursor)
  | 0, text, stop, gap, cursor => some (text, gap.broken, stop, cursor)
  | bound + 1, text, stop, gap, cursor => do
      if cursor.atDocumentMarker ∨ cursor.head? = some '#' then
        pure (text, gap.broken, stop, cursor)
      else
        let (word, cursor) ← readPlainWord flow (cursor.rest.length + 1) cursor
        let (text, stop, gap) :=
          if word.isEmpty then (text, stop, gap) else (text ++ gap.text ++ word, cursor.mark, {})
        match cursor.head? with
        | none => pure (text, gap.broken, stop, cursor)
        | some c =>
            if !(isGap c || isBreak c) then pure (text, gap.broken, stop, cursor)
            else
              let (gap, cursor) ← readGap indent (cursor.rest.length + 1) gap cursor
              if !flow ∧ (cursor.column : Int) < indent then
                pure (text, gap.broken, stop, cursor)
              else readPlain flow indent bound text stop gap cursor

/-! ## Quoted scalars -/

/-- What a backslash and `c` stand for between double quotes: a character, or the
number of hexadecimal digits that give one. -/
def escape? (c : Char) : Option (Char ⊕ Nat) :=
  match c with
  | '0' => some (.inl (Char.ofNat 0))
  | 'a' => some (.inl (Char.ofNat 7))
  | 'b' => some (.inl (Char.ofNat 8))
  | 't' => some (.inl '\t')
  | '\t' => some (.inl '\t')
  | 'n' => some (.inl '\n')
  | 'v' => some (.inl (Char.ofNat 11))
  | 'f' => some (.inl (Char.ofNat 12))
  | 'r' => some (.inl '\r')
  | 'e' => some (.inl (Char.ofNat 27))
  | ' ' => some (.inl ' ')
  | '"' => some (.inl '"')
  | '/' => some (.inl '/')
  | '\\' => some (.inl '\\')
  | 'N' => some (.inl (Char.ofNat 0x85))
  | '_' => some (.inl (Char.ofNat 0xA0))
  | 'L' => some (.inl (Char.ofNat 0x2028))
  | 'P' => some (.inl (Char.ofNat 0x2029))
  | 'x' => some (.inr 2)
  | 'u' => some (.inr 4)
  | 'U' => some (.inr 8)
  | _ => none

/-- Read the character that the given number of hexadecimal digits stands for. -/
def readCodePoint (length : Nat) (cursor : Cursor) : Option (Char × Cursor) := do
  let digits := cursor.rest.take length
  let char ← Text.codePoint? digits
  if digits.length = length then pure (char, cursor.skip length) else none

/-- Read the characters of a quoted scalar up to the next gap or its closing quote.
The flag says that an escaped line break ended the word. -/
def readQuotedWord (quote : Char) : Nat → Cursor → Option (List Char × Bool × Cursor)
  | 0, cursor => some ([], false, cursor)
  | bound + 1, cursor =>
      match cursor.head? with
      | none => some ([], false, cursor)
      | some c =>
          let next := cursor.peek 1
          if isGap c || isBreak c then some ([], false, cursor)
          else if c = quote then
            if quote = '\'' ∧ next = some '\'' then do
              let (chars, broken, cursor) ← readQuotedWord quote bound (cursor.skip 2)
              pure ('\'' :: chars, broken, cursor)
            else some ([], false, cursor)
          else if quote = '"' ∧ c = '\\' then
            if next.any isBreak then some ([], true, (cursor.skip 1).takeBreak.2)
            else do
              let (char, cursor) ←
                match ← escape? (← next) with
                | .inl char => pure (char, cursor.skip 2)
                | .inr length => readCodePoint length (cursor.skip 2)
              let (chars, broken, cursor) ← readQuotedWord quote bound cursor
              pure (char :: chars, broken, cursor)
          else do
            let (chars, broken, cursor) ← readQuotedWord quote bound (cursor.skip 1)
            pure (c :: chars, broken, cursor)

/-- Read a quoted scalar after its opening quote, on top of `text`. -/
def readQuoted (quote : Char) : Nat → List Char → Cursor → Option (List Char × Cursor)
  | 0, _, _ => none
  | bound + 1, text, cursor => do
      if cursor.atDocumentMarker ∨ cursor.rest.isEmpty then none
      else
        let (word, broken, cursor) ← readQuotedWord quote (cursor.rest.length + 1) cursor
        let text := text ++ word
        if cursor.head? = some quote then pure (text, cursor.skip 1)
        else
          let (gap, cursor) ← readGap 0 (cursor.rest.length + 1) { broken := broken } cursor
          readQuoted quote bound (text ++ gap.text) cursor

/-! ## Block scalars -/

/-- What the header of a block scalar asks for. -/
structure Header where
  /-- Keep all line breaks at the end (`some true`), or none of them. -/
  chomping : Option Bool := none
  /-- The indentation of the block relative to its parent. -/
  increment : Nat := 0
deriving DecidableEq, Repr

/-- Read a chomping indicator. -/
def chomping? (cursor : Cursor) : Option Bool × Cursor :=
  match cursor.head? with
  | some '+' => (some true, cursor.skip 1)
  | some '-' => (some false, cursor.skip 1)
  | _ => (none, cursor)

/-- Read an indentation indicator, which must not be zero. -/
def increment? (cursor : Cursor) : Option (Nat × Cursor) :=
  match cursor.head?.bind Text.digitValue? with
  | some 0 => none
  | some n => some (n, cursor.skip 1)
  | none => some (0, cursor)

/-- Read the header of a block scalar after its indicator, with its line break. -/
def readHeader (cursor : Cursor) : Option (Header × Cursor) := do
  let (before, cursor) := chomping? cursor
  let (increment, cursor) ← increment? cursor
  let (chomping, cursor) := if before.isSome then (before, cursor) else chomping? cursor
  let cursor := cursor.skipWhile isGap
  let cursor := if cursor.head? = some '#' then cursor.skipLine else cursor
  if endsLine cursor.head? then pure (⟨chomping, increment⟩, cursor.takeBreak.2) else none

/-- Read the empty lines at a cursor.  The indentation is `indent`, or unknown if
that is zero; `deepest` is the deepest column that has been reached so far. -/
def readEmptyLines (indent : Nat) :
    Nat → Nat → List Char → Cursor → Option (Nat × List Char × Cursor)
  | 0, deepest, breaks, cursor => some (deepest, breaks, cursor)
  | bound + 1, deepest, breaks, cursor =>
      let spaces := (cursor.rest.takeWhile (· = ' ')).length
      let cursor := cursor.skip (if indent = 0 then spaces else min spaces (indent - cursor.column))
      let deepest := max deepest cursor.column
      if (indent = 0 ∨ cursor.column < indent) ∧ cursor.head? = some '\t' then none
      else if cursor.head?.any isBreak then
        let (line, cursor) := cursor.takeBreak
        readEmptyLines indent bound deepest (breaks ++ line) cursor
      else some (deepest, breaks, cursor)

/-- Read the lines of a block scalar, on top of `text`.  `leading` is the break of
the line before and `further` are the empty lines after it; `indented` says that
the line before began with a gap.  What remains of the breaks at the end is given
separately. -/
def readLines (literal : Bool) (indent : Nat) :
    Nat → List Char → List Char → List Char → Bool → Cursor →
      Option (List Char × List Char × List Char × Cursor)
  | 0, text, leading, further, _, cursor => some (text, leading, further, cursor)
  | bound + 1, text, leading, further, indented, cursor => do
      if cursor.column = indent ∧ !cursor.rest.isEmpty then
        let indentedNow := cursor.head?.any isGap
        let join :=
          if !literal ∧ leading = ['\n'] ∧ !indented ∧ !indentedNow then
            if further.isEmpty then [' '] else []
          else leading
        let (line, cursor) := cursor.takeWhile fun c => !isBreak c
        let (leading, cursor) := cursor.takeBreak
        let text := text ++ join ++ further ++ line
        let (_, further, cursor) ← readEmptyLines indent (cursor.rest.length + 1) 0 [] cursor
        readLines literal indent bound text leading further indentedNow cursor
      else pure (text, leading, further, cursor)

/-- Read a block scalar after its indicator.  `parent` is the indentation of the
block around it, `-1` outside of any. -/
def readBlock (literal : Bool) (parent : Int) (cursor : Cursor) :
    Option (List Char × Cursor) := do
  let (header, cursor) ← readHeader cursor
  let known := if header.increment = 0 then 0 else (max parent 0).toNat + header.increment
  let (deepest, further, cursor) ← readEmptyLines known (cursor.rest.length + 1) 0 [] cursor
  let indent := if known = 0 then max (max deepest (parent + 1).toNat) 1 else known
  let (text, leading, further, cursor) ←
    readLines literal indent (cursor.rest.length + 1) [] [] further false cursor
  let tail :=
    match header.chomping with
    | none => leading
    | some true => leading ++ further
    | some false => []
  pure (text ++ tail, cursor)

end BridgeFinder.Yaml
