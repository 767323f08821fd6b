import BridgeFinder.Found
import BridgeFinder.Text.Utf8

/-!
# Why a JSON document is refused

A fault is a cause together with the place at which it is reported.  A place is
held as the number of bytes of the document that follow it, so a reader needs no
more than the rest of the document to report one; line and column are found
afterwards, from the whole document.
-/

namespace BridgeFinder.Json

/-- The causes for which a document, or its decoding, is refused. -/
inductive Cause where
  | endOfValue
  | endOfList
  | endOfObject
  | endOfString
  | expectedColon
  | expectedListCommaOrEnd
  | expectedObjectCommaOrEnd
  | expectedValue
  | expectedIdent
  | trailingComma
  | trailingCharacters
  | keyNotString
  | controlCharacter
  | invalidEscape
  | loneSurrogate
  | endOfEscape
  | invalidNumber
  | numberOutOfRange
  | wrongType (found : Found) (expected : String)
  | wrongValue (found : Found) (expected : String)
  | wrongLength (length : Nat) (expected : String)
  | unknownVariant (variant : String) (known : List String)
  | missingField (field : String)
  | duplicateField (field : String)
  | notAnAddress
deriving DecidableEq, Repr

/-- The absent value is `null`, and numbers are spelled as in JSON. -/
def foundStyle : Found.Style :=
  ⟨"null", Number.Binary64.jsonText⟩

/-- List names between backquotes, separated by commas. -/
def backquoted (names : List String) : String :=
  ", ".intercalate (names.map fun name => "`" ++ name ++ "`")

/-- The text of a cause. -/
def Cause.message : Cause → String
  | endOfValue => "EOF while parsing a value"
  | endOfList => "EOF while parsing a list"
  | endOfObject => "EOF while parsing an object"
  | endOfString => "EOF while parsing a string"
  | expectedColon => "expected `:`"
  | expectedListCommaOrEnd => "expected `,` or `]`"
  | expectedObjectCommaOrEnd => "expected `,` or `\x7d`"
  | expectedValue => "expected value"
  | expectedIdent => "expected ident"
  | trailingComma => "trailing comma"
  | trailingCharacters => "trailing characters"
  | keyNotString => "key must be a string"
  | controlCharacter => "control character (\\u0000-\\u001F) found while parsing a string"
  | invalidEscape => "invalid escape"
  | loneSurrogate => "lone leading surrogate in hex escape"
  | endOfEscape => "unexpected end of hex escape"
  | invalidNumber => "invalid number"
  | numberOutOfRange => "number out of range"
  | wrongType found expected =>
      "invalid type: " ++ found.describe foundStyle ++ ", expected " ++ expected
  | wrongValue found expected =>
      "invalid value: " ++ found.describe foundStyle ++ ", expected " ++ expected
  | wrongLength length expected =>
      "invalid length " ++ toString length ++ ", expected " ++ expected
  | unknownVariant variant known =>
      "unknown variant `" ++ variant ++ "`, expected one of " ++ backquoted known
  | missingField field => "missing field `" ++ field ++ "`"
  | duplicateField field => "duplicate field `" ++ field ++ "`"
  | notAnAddress => "invalid IPv4 address syntax"

/-- A cause and the number of bytes that follow the place it is reported at. -/
structure Fault where
  cause : Cause
  unread : Nat
deriving DecidableEq, Repr

/-- Report at the place before `rest`. -/
def Fault.before (cause : Cause) (rest : List Char) : Fault :=
  ⟨cause, Text.byteLength rest⟩

/-- Report one byte into `rest`, or at its end when it is empty. -/
def Fault.within (cause : Cause) (rest : List Char) : Fault :=
  ⟨cause, Text.byteLength rest - 1⟩

/-- A place in a document: the line, from one, and the number of bytes of that
line before the place. -/
structure Place where
  line : Nat
  column : Nat
deriving DecidableEq, Repr

/-- The place after the first `bytes` bytes of `text`, which begins at `start`. -/
def placeFrom (start : Place) : Nat → List Char → Place
  | _, [] => start
  | bytes, c :: rest =>
      if c.utf8Size ≤ bytes then
        placeFrom
          (if c = '\n' then ⟨start.line + 1, 0⟩ else ⟨start.line, start.column + c.utf8Size⟩)
          (bytes - c.utf8Size) rest
      else ⟨start.line, start.column + bytes⟩

/-- The place of a fault in the document it was found in. -/
def Fault.place (document : String) (fault : Fault) : Place :=
  placeFrom ⟨1, 0⟩ (document.utf8ByteSize - fault.unread) document.toList

/-- A fault with its place worked out: the complete error of a document. -/
structure Error where
  cause : Cause
  place : Place
deriving DecidableEq, Repr

/-- Locate a fault in its document. -/
def Fault.locate (document : String) (fault : Fault) : Error :=
  ⟨fault.cause, fault.place document⟩

/-- The text of an error: its cause, then line and column. -/
def Error.message (error : Error) : String :=
  error.cause.message ++ " at line " ++ toString error.place.line ++
    " column " ++ toString error.place.column

end BridgeFinder.Json
