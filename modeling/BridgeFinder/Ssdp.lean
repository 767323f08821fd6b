import BridgeFinder.Bridge
import BridgeFinder.Settings
import BridgeFinder.Text.Character

/-!
# Multicast search

One datagram asks every device of the network to announce itself, and a response is a
message of header lines.  A bridge says where its description is, what software it
runs, and who it is: newer bridges in a header of their own, older ones in the last
twelve digits of their unique service name.  Headers are matched up to case and in this
order, with anything between them.

The functions that read a response look at the beginning of the text they are given; a
*suffix* of a text is what is left of it from some place on.  Responses arrive as pieces of
text, cut anywhere.  A message ends with the first empty line after its start; what has no
such end yet is kept until more arrives, and is taken for a message when nothing more does.
-/

namespace BridgeFinder.Ssdp

/-! ## The request -/

/-- The request that the settings call for. -/
def request (settings : Settings.Multicast) : String :=
  "M-SEARCH * HTTP/1.1\r\nHOST: " ++ settings.address.text ++ ":" ++
    toString settings.port.toNat ++ "\r\nMAN: \"ssdp:discover\"\r\nMX: " ++
    toString settings.answerDelay.toNat ++ "\r\nST: ssdp:all\r\n\r\n"

/-! ## Responses -/

/-- The first result of `look` at a suffix of a text, the empty one included. -/
def firstSuffix? {α : Type} (look : List Char → Option α) : List Char → Option α
  | [] => look []
  | c :: rest => (look (c :: rest)).orElse fun _ => firstSuffix? look rest

/-- The suffixes of a text that begin on its first line, the last one first. -/
def lineSuffixes (text : List Char) (later : List (List Char)) : List (List Char) :=
  match text with
  | [] => [] :: later
  | c :: rest =>
      if c = '\r' ∨ c = '\n' then (c :: rest) :: later
      else lineSuffixes rest ((c :: rest) :: later)

/-- Take the digits, of any script, at the front of a text. -/
def takeDigits (text : List Char) : List Char × List Char :=
  text.span Text.isDecimalDigit

/-- Read a group of one to three digits. -/
def digitGroup? (text : List Char) : Option (List Char × List Char) :=
  let (digits, rest) := takeDigits text
  if 1 ≤ digits.length ∧ digits.length ≤ 3 then some (digits, rest) else none

/-- Read a point and a group of one to three digits. -/
def furtherGroup? : List Char → Option (List Char × List Char)
  | '.' :: rest => (digitGroup? rest).map fun (digits, rest) => ('.' :: digits, rest)
  | _ => none

/-- Read four groups of digits. -/
def groups? (text : List Char) : Option (List Char × List Char) := do
  let (a, rest) ← digitGroup? text
  let (b, rest) ← furtherGroup? rest
  let (c, rest) ← furtherGroup? rest
  let (d, rest) ← furtherGroup? rest
  pure (a ++ b ++ c ++ d, rest)

/-- The rest of a text after a port, if there is one. -/
def skipPort (text : List Char) : List Char :=
  match text with
  | ':' :: rest =>
      match takeDigits rest with
      | ([], _) => text
      | (_, rest) => rest
  | _ => text

/-- Read the header that says where the description is: the address, and what
follows the header's value. -/
def location? (text : List Char) : Option (List Char × List Char) := do
  let rest ← Text.dropFolded? "location:".toList text
  let rest ← Text.dropFolded? "http://".toList (Text.trimStart rest)
  let (ip, rest) ← groups? rest
  let rest ← Text.dropFolded? "/description.xml".toList (skipPort rest)
  pure (ip, rest)

/-- Read a version of two or three numbers. -/
def version? (text : List Char) : Option (List Char × List Char) :=
  match takeDigits text with
  | ([], _) => none
  | (major, '.' :: rest) =>
      match takeDigits rest with
      | ([], _) => none
      | (minor, '.' :: rest) =>
          match takeDigits rest with
          | ([], _) => some (major ++ '.' :: minor, '.' :: rest)
          | (patch, rest) => some (major ++ '.' :: minor ++ '.' :: patch, rest)
      | (minor, rest) => some (major ++ '.' :: minor, rest)
  | _ => none

/-- Read the name of a bridge's software with its version. -/
def software? (text : List Char) : Option (List Char × List Char) := do
  let rest ← Text.dropFolded? "ipbridge/".toList text
  version? rest

/-- Read the header of the software and, from what follows it, who the bridge is.
Of several mentions on the line the last one counts that leaves an identity to be
found. -/
def server? (identity? : List Char → Option String) (text : List Char) :
    Option (String × String) := do
  let rest ← Text.dropFolded? "server:".toList text
  (lineSuffixes rest []).findSome? fun place => do
    let (version, rest) ← software? place
    let uniqueId ← firstSuffix? identity? rest
    pure (String.ofList version, uniqueId)

/-- Read a candidate whose location stands at the front of a text. -/
def located? (identity? : List Char → Option String) (text : List Char) : Option Bridge := do
  let (ip, rest) ← location? text
  let (version, uniqueId) ← firstSuffix? (server? identity?) rest
  pure (.hinted (String.ofList ip) uniqueId version)

/-- Read the header of the id, which newer bridges have. -/
def bridgeId? (text : List Char) : Option String := do
  let rest ← Text.dropFolded? "hue-bridgeid:".toList text
  let digits := (Text.trimStart rest).take 16
  if digits.length = 16 ∧ digits.all Text.isHexDigit then
    some (Text.upper (String.ofList digits))
  else none

/-- A character of a service name. -/
def isNameChar (c : Char) : Bool :=
  Text.isHexDigit c || c == '-'

/-- Read the unique service name, which ends in the hardware address. -/
def serviceName? (text : List Char) : Option String := do
  let rest ← Text.dropFolded? "usn:".toList text
  let rest ← Text.dropFolded? "uuid:".toList (Text.trimStart rest)
  let (name, rest) := rest.span isNameChar
  let digits := name.drop (name.length - 12)
  if digits.length = 12 ∧ digits.all Text.isHexDigit ∧ [':', ':'].isPrefixOf rest then
    MacAddress.uniqueId? (String.ofList digits)
  else none

/-- The candidate that a message announces, if it announces one.  The header of
the id is preferred to the service name. -/
def candidate? (message : List Char) : Option Bridge :=
  match firstSuffix? (located? bridgeId?) message with
  | some bridge => some bridge
  | none => firstSuffix? (located? serviceName?) message

/-! ## Responses in pieces -/

/-- Cut a text into the messages that are complete and the rest after them.
`current` is what has been read of a message, backwards. -/
def cut (current : List Char) : List Char → List (List Char) × List Char
  | [] => ([], current.reverse)
  | '\r' :: '\n' :: '\r' :: '\n' :: rest =>
      let (messages, remainder) := cut [] rest
      ((current.reverse ++ ['\r', '\n', '\r', '\n']) :: messages, remainder)
  | c :: rest => cut (c :: current) rest

/-- What has been received: the text of an incomplete message and the candidates
so far. -/
structure Stream where
  buffer : List Char := []
  candidates : List Bridge := []
deriving DecidableEq, Repr

namespace Stream

/-- Receive a piece of text. -/
def feed (stream : Stream) (text : List Char) : Stream :=
  let (messages, remainder) := cut [] (stream.buffer ++ text)
  ⟨remainder, stream.candidates ++ messages.filterMap candidate?⟩

/-- The candidates when nothing more arrives. -/
def finish (stream : Stream) : List Bridge :=
  if Text.isAllBlank stream.buffer then stream.candidates
  else stream.candidates ++ (candidate? stream.buffer).toList

end Stream

/-- The candidates in a text that arrives in the given pieces. -/
def candidatesOf (pieces : List (List Char)) : List Bridge :=
  (pieces.foldl Stream.feed {}).finish

end BridgeFinder.Ssdp
