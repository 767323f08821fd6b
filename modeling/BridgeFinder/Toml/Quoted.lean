import BridgeFinder.Text.Reader

/-!
# Strings of TOML

Quotation marks enclose a string with escapes, and apostrophes one without.  Three
marks in a row enclose a string that may go over several lines: in it one or two of
the marks may stand together, and so they may right before the three that close it.
-/

namespace BridgeFinder.Toml

open Text (Reader)

/-- A character that comments and strings may contain: a tab, or whatever is no
control character of ASCII. -/
def isText (c : Char) : Bool :=
  c == '\t' || (0x20 ≤ c.toNat && c.toNat != 0x7F)

/-- A space or a tab. -/
def isGap (c : Char) : Bool :=
  c == ' ' || c == '\t'

/-- The rest after the spaces and tabs at the front. -/
def skipGap (text : List Char) : List Char :=
  text.dropWhile isGap

/-- The rest after a line break: a line feed, with a carriage return perhaps. -/
def lineBreak? : List Char → Option (List Char)
  | '\n' :: rest => some rest
  | '\r' :: '\n' :: rest => some rest
  | _ => none

/-- The rest after the spaces, tabs and line breaks at the front. -/
def skipBlank : List Char → List Char
  | '\r' :: '\n' :: rest => skipBlank rest
  | c :: rest => if isGap c || c == '\n' then skipBlank rest else c :: rest
  | [] => []

/-- Read what follows the backslash of an escape. -/
def readEscape : Reader Char
  | 'b' :: rest => some ('\x08', rest)
  | 't' :: rest => some ('\t', rest)
  | 'n' :: rest => some ('\n', rest)
  | 'f' :: rest => some ('\x0c', rest)
  | 'r' :: rest => some ('\r', rest)
  | '"' :: rest => some ('"', rest)
  | '\\' :: rest => some ('\\', rest)
  | 'u' :: rest => Text.readCodePoint 4 rest
  | 'U' :: rest => Text.readCodePoint 8 rest
  | _ => none

/-- Read one character of a string that is not its mark.  A backslash at the end of
a line of a long string stands for nothing, together with the blank after it. -/
def readPiece (mark : Char) (long : Bool) : Reader (List Char)
  | [] => none
  | c :: rest =>
      if c = '\\' ∧ mark = '"' then
        match if long then lineBreak? (skipGap rest) else none with
        | some rest => some ([], skipBlank rest)
        | none => (readEscape rest).map fun (char, rest) => ([char], rest)
      else
        match if long then lineBreak? (c :: rest) else none with
        | some rest => some (['\n'], rest)
        | none => if isText c then some ([c], rest) else none

/-- Read the characters of a string and the marks that close it.  The number bounds
that of the characters. -/
def readCharsUpTo (mark : Char) (long : Bool) : Nat → Reader (List Char)
  | 0, _ => none
  | bound + 1, text => do
      let run := (text.takeWhile (· == mark)).length
      if run = 0 then
        let (piece, rest) ← readPiece mark long text
        let (chars, rest) ← readCharsUpTo mark long bound rest
        pure (piece ++ chars, rest)
      else if !long then pure ([], text.drop 1)
      else if run < 3 then
        let (chars, rest) ← readCharsUpTo mark long bound (text.drop run)
        pure (List.replicate run mark ++ chars, rest)
      else
        let kept := min 2 (run - 3)
        pure (List.replicate kept mark, text.drop (kept + 3))

/-- Read a string of one line after its opening mark. -/
def readShort (mark : Char) : Reader String := fun text =>
  (readCharsUpTo mark false (text.length + 1) text).map fun (chars, rest) =>
    (String.ofList chars, rest)

/-- Read a string after its first mark.  A line break right after three opening
marks does not count. -/
def readQuoted (mark : Char) : Reader String := fun text =>
  match [mark, mark].isPrefixOf? text with
  | some rest =>
      let rest := (lineBreak? rest).getD rest
      (readCharsUpTo mark true (rest.length + 1) rest).map fun (chars, rest) =>
        (String.ofList chars, rest)
  | none => readShort mark text

end BridgeFinder.Toml
