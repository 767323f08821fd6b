import BridgeFinder.Bridge
import BridgeFinder.Json.Value
import BridgeFinder.Net.Url
import BridgeFinder.Text.Ascii

/-!
# The list of bridges that the cloud keeps

The settings name the cloud's address.  Its former hosts keep the list of bridges
under a path of its own, which is added to such an address; any other address is
used as it is.

The cloud answers with an array of entries.  Every entry with an address is a
candidate; an entry that cannot be decoded spoils the whole list.
-/

namespace BridgeFinder.Cloud

/-! ## Where the cloud is asked -/

/-- The former hosts. -/
def formerHosts : List Net.Host :=
  [.name "www.meethue.com".toList, .name "meethue.com".toList]

/-- The path of the list on the former hosts. -/
def formerPath : List Char := "/api/nupnp".toList

/-- The text is a URL of one of the former hosts. -/
def isFormer (text : List Char) : Bool :=
  match Net.Url.parse? text with
  | some url => formerHosts.any fun host => url.host == some host
  | none => false

/-- A text without the slashes at its end. -/
def trimSlashes (text : List Char) : List Char :=
  (text.reverse.dropWhile (· == '/')).reverse

/-- The URL to request when the given address is configured. -/
def requestUrl (configured : String) : String :=
  if isFormer configured.toList then
    String.ofList (trimSlashes configured.toList ++ formerPath)
  else configured

/-! ## The list -/

open Json (Record RecordField)

/-- An entry of the list.  `none` stands for a member that is missing or
`null`. -/
structure Entry where
  id : Option String := none
  address : Option String := none
deriving DecidableEq, Repr

/-- An entry that is being read, and the members that have been given. -/
structure Draft where
  given : List String := []
  entry : Entry := {}

/-- The field of a draft that holds an optional text. -/
def draftField (name : String) (store : Option String → Entry → Entry) : RecordField Draft where
  name := name
  isSet draft := draft.given.contains name
  read draft text := do
    let (value, rest) ← Json.optional Json.string text
    pure ({ given := name :: draft.given, entry := store value draft.entry }, rest)

/-- How an entry is decoded. -/
def Entry.record : Record Draft Entry where
  name := "NupnpEntry"
  fields :=
    [draftField "id" fun value entry => { entry with id := value },
     draftField "internalipaddress" fun value entry => { entry with address := value }]
  empty := {}
  ofObject draft := .ok draft.entry
  ofArray _ draft := .ok draft.entry

/-- The candidate that an entry names, if it has an address. -/
def Entry.candidate? (entry : Entry) : Option Bridge :=
  match entry.address with
  | some ip => if ip = "" then none else some (.hinted ip (Text.upper (entry.id.getD "")) "")
  | none => none

/-- Read the candidates from the body of an answer. -/
def candidates (body : String) : Except Json.Error (List Bridge) :=
  (Json.decode (Json.list Entry.record.read) body).map fun entries =>
    entries.filterMap Entry.candidate?

end BridgeFinder.Cloud
