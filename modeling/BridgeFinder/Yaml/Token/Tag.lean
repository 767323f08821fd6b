import BridgeFinder.Text.Ascii
import BridgeFinder.Text.Utf8
import BridgeFinder.Yaml.Token

/-!
# Tags, anchors and directives

A tag is a handle and a suffix; the handle is expanded later, when the directives
of the document are known.  Octets of a tag may be escaped, and must then be
well-formed text.
-/

namespace BridgeFinder.Yaml

/-- A character of a tag besides letters, digits, hyphens and low lines.
`brackets` admits those that flow collections use. -/
def isTagChar (brackets : Bool) (c : Char) : Bool :=
  isWordChar c || ";/?:@&=+$.%!~*'()".toList.contains c ||
    (brackets && (c == ',' || c == '[' || c == ']'))

/-- Decode the escaped octets of a tag. -/
def unescapeTag : List Char → Option (List UInt8)
  | [] => some []
  | '%' :: a :: b :: rest => do
      let high ← Text.hexValue? a
      let low ← Text.hexValue? b
      let octets ← unescapeTag rest
      pure (UInt8.ofNat (high * 16 + low) :: octets)
  | c :: rest => do
      if c = '%' then none
      else
        let octets ← unescapeTag rest
        pure (String.utf8EncodeChar c ++ octets)

/-- Read the characters of a tag after `before`; there must be some in all. -/
def readTagChars (brackets : Bool) (before : List Char) (cursor : Cursor) :
    Option (List Char × Cursor) := do
  let (written, cursor) := cursor.takeWhile (isTagChar brackets)
  let text ← Text.decode? (← unescapeTag written)
  if before.isEmpty ∧ written.isEmpty then none else pure (before.drop 1 ++ text, cursor)

/-- Read what may be a handle: an exclamation mark, word characters, and perhaps a
second mark. -/
def readHandle (cursor : Cursor) : Option (List Char × Cursor) :=
  match cursor.head? with
  | some '!' =>
      let (word, cursor) := (cursor.skip 1).takeWhile isWordChar
      if cursor.head? = some '!' then some ('!' :: word ++ ['!'], cursor.skip 1)
      else some ('!' :: word, cursor)
  | _ => none

/-- Read a tag.  The tag that is a mere exclamation mark has no handle and the
mark as its suffix. -/
def readTag (flow : Bool) (cursor : Cursor) : Option (Token.Kind × Cursor) := do
  let (kind, cursor) ←
    if cursor.peek 1 = some '<' then do
      let (suffix, cursor) ← readTagChars true [] (cursor.skip 2)
      if cursor.head? = some '>' then pure (Token.Kind.tag [] suffix, cursor.skip 1) else none
    else do
      let (handle, cursor) ← readHandle cursor
      if handle.length ≥ 2 ∧ handle.getLast? = some '!' then
        let (suffix, cursor) ← readTagChars false [] cursor
        pure (Token.Kind.tag handle suffix, cursor)
      else
        let (suffix, cursor) ← readTagChars false handle cursor
        pure (if suffix.isEmpty then .tag [] ['!'] else .tag ['!'] suffix, cursor)
  if endsWord cursor.head? ∨ (flow ∧ cursor.head? = some ',') then pure (kind, cursor) else none

/-- Read the name of an anchor or of an alias after its indicator. -/
def readAnchorName (cursor : Cursor) : Option (List Char × Cursor) :=
  let (name, cursor) := cursor.takeWhile isWordChar
  let ended := endsWord cursor.head? || cursor.head?.any fun c => "?:,]\x7d%@\x60".toList.contains c
  if name.isEmpty || !ended then none else some (name, cursor)

/-- Read a number of at most nine digits. -/
def readVersionNumber (cursor : Cursor) : Option (Nat × Cursor) := do
  let (digits, cursor) := cursor.takeWhile Char.isDigit
  if digits.length > 9 then none
  else
    let n ← Text.natural? digits
    pure (n, cursor)

/-- Read a directive after its percent sign, with its line break. -/
def readDirective (cursor : Cursor) : Option (Token.Kind × Cursor) := do
  let (name, cursor) := cursor.takeWhile isWordChar
  let afterName := endsWord cursor.head?
  let cursor := cursor.skipWhile isGap
  let (kind, cursor) ←
    if afterName ∧ name = "YAML".toList then do
      let (major, cursor) ← readVersionNumber cursor
      if cursor.head? = some '.' then
        let (minor, cursor) ← readVersionNumber (cursor.skip 1)
        pure (Token.Kind.versionDirective major minor, cursor)
      else none
    else if afterName ∧ name = "TAG".toList then do
      let (handle, cursor) ← readHandle cursor
      let whole := handle = ['!'] ∨ (handle.length ≥ 2 ∧ handle.getLast? = some '!')
      if whole ∧ cursor.head?.any isGap then
        let (expansion, cursor) ← readTagChars true [] (cursor.skipWhile isGap)
        if endsWord cursor.head? then pure (Token.Kind.tagDirective handle expansion, cursor)
        else none
      else none
    else none
  let cursor := cursor.skipWhile isGap
  let cursor := if cursor.head? = some '#' then cursor.skipLine else cursor
  if endsLine cursor.head? then pure (kind, cursor.takeBreak.2) else none

end BridgeFinder.Yaml
