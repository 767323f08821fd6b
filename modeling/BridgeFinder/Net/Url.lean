import BridgeFinder.Net.HostName
import BridgeFinder.Text.Ascii

/-!
# URLs

A URL is read leniently, as browsers read it.  Control characters and spaces around
it and line breaks within it are dropped.  Schemes of the web may be followed by
any number of slashes of either kind, and always have a host; other schemes have
one only after two slashes.
-/

namespace BridgeFinder.Net

/-- What stands between the slashes and the path of a URL. -/
inductive Host where
  /-- A name in ASCII, in lower case where case does not matter. -/
  | name (text : List Char)
  /-- Anything else: an address, a name in another script, or what is none at
  all.  It is kept as it is written. -/
  | other (text : List Char)
deriving DecidableEq, Repr

/-- A URL in its parts, the path and what follows it as they are written. -/
structure Url where
  scheme : List Char
  host : Option Host
  port : Option Nat
  path : List Char
  query : Option (List Char)
  fragment : Option (List Char)
deriving DecidableEq, Repr

namespace Url

/-- A scheme of the web, with the port it uses unless told otherwise. -/
def webPort? (scheme : List Char) : Option Nat :=
  match String.ofList scheme with
  | "http" => some 80
  | "ws" => some 80
  | "https" => some 443
  | "wss" => some 443
  | "ftp" => some 21
  | _ => none

/-- The scheme of local files. -/
def fileScheme : List Char := ['f', 'i', 'l', 'e']

/-- In a URL of this scheme a backslash is a slash. -/
def hasBackslashes (scheme : List Char) : Bool :=
  (webPort? scheme).isSome || scheme == fileScheme

/-- A control character or a space. -/
def isMargin (c : Char) : Bool :=
  c.toNat ≤ 0x20

/-- The characters of a text that take part in its reading. -/
def significant (text : List Char) : List Char :=
  (((text.dropWhile isMargin).reverse.dropWhile isMargin).reverse).filter fun c =>
    c ≠ '\t' ∧ c ≠ '\n' ∧ c ≠ '\r'

/-- A character of a scheme after its first letter. -/
def isSchemeChar (c : Char) : Bool :=
  c.isAlphanum || c == '+' || c == '-' || c == '.'

/-- Read a scheme and its colon. -/
def scheme? (text : List Char) : Option (List Char × List Char) :=
  match text with
  | [] => none
  | c :: _ =>
      if c.isAlpha then
        match text.span isSchemeChar with
        | (scheme, ':' :: rest) => some (scheme.map Char.toLower, rest)
        | _ => none
      else none

/-- A slash of either kind. -/
def isSlash (c : Char) : Bool :=
  c == '/' || c == '\\'

/-- The character ends the part of a URL that names the host. -/
def endsAuthority (backslashes : Bool) (c : Char) : Bool :=
  c == '/' || c == '?' || c == '#' || (backslashes && c == '\\')

/-- What follows the last at-sign of a text, if there is one. -/
def afterLastAt (text : List Char) : Option (List Char) :=
  match text with
  | [] => none
  | c :: rest => (afterLastAt rest).orElse fun _ => if c = '@' then some rest else none

/-- Cut a host off the front of a text: it ends at a colon that is not in
brackets. -/
def cutHost : Bool → List Char → List Char × List Char
  | _, [] => ([], [])
  | bracketed, c :: rest =>
      if c = ':' ∧ !bracketed then ([], c :: rest)
      else
        let bracketed := if c = '[' then true else if c = ']' then false else bracketed
        let (host, rest) := cutHost bracketed rest
        (c :: host, rest)

/-- Decode the octets that are written as a percent sign and two digits. -/
def percentDecode : List Char → List UInt8
  | [] => []
  | '%' :: a :: b :: rest =>
      match Text.hexValue? a, Text.hexValue? b with
      | some high, some low => UInt8.ofNat (high * 16 + low) :: percentDecode rest
      | _, _ => UInt8.ofNat '%'.toNat :: percentDecode (a :: b :: rest)
  | c :: rest => String.utf8EncodeChar c ++ percentDecode rest

/-- A character that the host of a scheme outside the web may not contain. -/
def isForbiddenElsewhere (c : Char) : Bool :=
  c.toNat == 0 || " #/:<>?@[\\]^|".toList.contains c

/-- Read a host that stands alone. -/
def host? (scheme text : List Char) : Option Host :=
  if hasBackslashes scheme then
    if text.head? = some '[' then
      if text.getLast? = some ']' then some (.other text) else none
    else
      let decoded := Text.decodeLossy (percentDecode text)
      match HostName.ascii? decoded with
      | some name => some (.name name)
      | none =>
          if decoded.isEmpty || decoded.any HostName.isForbidden then none
          else some (.other text)
  else if text.head? = some '[' then
    if text.getLast? = some ']' then some (.other text) else none
  else if text.any isForbiddenElsewhere then none
  else some (.name text)

/-- Read a port, which may be left out after its colon. -/
def port? (scheme text : List Char) : Option (Option Nat) :=
  match text with
  | [] => some none
  | _ :: [] => some none
  | _ :: digits => do
      let port ← Text.natural? digits
      if port ≤ 65535 then
        some (if webPort? scheme = some port then none else some port)
      else none

/-- Read the path and what follows it. -/
def ofPath (scheme : List Char) (host : Option Host) (port : Option Nat) (text : List Char) :
    Url :=
  let (beforeFragment, fragment) := text.span (· ≠ '#')
  let (path, query) := beforeFragment.span (· ≠ '?')
  let rest? (part : List Char) : Option (List Char) :=
    match part with
    | [] => none
    | _ :: rest => some rest
  { scheme := scheme
    host := host
    port := port
    path := if hasBackslashes scheme then path.map fun c => if c = '\\' then '/' else c else path
    query := rest? query
    fragment := rest? fragment }

/-- Read what follows the slashes before a host. -/
def ofAuthority? (scheme text : List Char) : Option Url := do
  let web := (webPort? scheme).isSome
  let (authority, rest) := text.span fun c => !endsAuthority web c
  let place := (afterLastAt authority).getD authority
  if (afterLastAt authority).isSome ∧ place.isEmpty then none
  else
    let (written, port) := cutHost false place
    if written.isEmpty ∧ (web ∨ !port.isEmpty) then none
    else
      let host ← host? scheme written
      let port ← port? scheme port
      pure (ofPath scheme (some host) port rest)

/-- A letter and a colon or a bar name a disk, not a host. -/
def isDisk : List Char → Bool
  | [letter, mark] => letter.isAlpha && (mark == ':' || mark == '|')
  | _ => false

/-- Read what follows the two slashes of a file's URL. -/
def ofFile? (text : List Char) : Option Url := do
  let (written, rest) := text.span fun c => !endsAuthority true c
  if written.isEmpty then pure (ofPath fileScheme none none rest)
  else if isDisk written then pure (ofPath fileScheme none none text)
  else
    let host ← host? fileScheme written
    let host := if host = .name "localhost".toList then none else some host
    pure (ofPath fileScheme host none rest)

/-- Read a URL from a text. -/
def parse? (text : List Char) : Option Url := do
  let (scheme, rest) ← scheme? (significant text)
  if (webPort? scheme).isSome then ofAuthority? scheme (rest.dropWhile isSlash)
  else if scheme = fileScheme then
    match rest with
    | a :: b :: rest =>
        if isSlash a && isSlash b then ofFile? rest
        else pure (ofPath scheme none none (a :: b :: rest))
    | rest => pure (ofPath scheme none none rest)
  else
    match rest with
    | '/' :: '/' :: rest => ofAuthority? scheme rest
    | rest => pure (ofPath scheme none none rest)

end Url

end BridgeFinder.Net
