import BridgeFinder.Kind
import BridgeFinder.Text.Character

/-!
# Options of a search

The kinds of methods that a search may use are given as a word of bits, one bit
for each kind.  Bits that belong to no kind are kept, so that a caller can see
that they were set, but they select nothing.
-/

namespace BridgeFinder

/-- A set of kinds, as a word of bits. -/
structure Options where
  bits : UInt32
deriving DecidableEq, Repr, Inhabited

/-- The bit of a kind. -/
def Kind.option : Kind → Options
  | upnp => ⟨1⟩
  | ipscan => ⟨2⟩
  | nupnp => ⟨4⟩
  | mdns => ⟨8⟩

namespace Options

/-- No kind at all. -/
def empty : Options := ⟨0⟩

/-- The kinds of either set. -/
def union (a b : Options) : Options :=
  ⟨a.bits ||| b.bits⟩

instance : Union Options := ⟨union⟩

/-- Every bit of `b` is also set in `a`. -/
def contains (a b : Options) : Bool :=
  a.bits &&& b.bits == b.bits

/-- The options of a search that asks for nothing special. -/
def default : Options :=
  Kind.mdns.option ∪ Kind.nupnp.option

/-- Every bit that belongs to a kind. -/
def all : Options := ⟨15⟩

/-- Only bits that belong to a kind are set. -/
def isKnown (options : Options) : Bool :=
  all.contains options

/-- The selected kinds in processing order. -/
def kinds (options : Options) : List Kind :=
  Kind.processingOrder.filter fun kind => options.contains kind.option

/-- Split a text at every comma. -/
def parts (text : List Char) : List (List Char) :=
  match text with
  | [] => [[]]
  | c :: rest =>
      let parts := parts rest
      if c = ',' then [] :: parts
      else (c :: parts.headD []) :: parts.drop 1

/-- Add the kinds named by the parts of a list, up to the first part that names
none.  Blank parts are passed over. -/
def addParts (options : Options) : List (List Char) → Except Kind.Unknown Options
  | [] => .ok options
  | part :: parts =>
      match Text.trim part with
      | [] => addParts options parts
      | name =>
          match Kind.parse (String.ofList name) with
          | .ok kind => addParts (options ∪ kind.option) parts
          | .error unknown => .error unknown

/-- Read a list of names, separated by commas. -/
def parse (text : String) : Except Kind.Unknown Options :=
  addParts empty (parts text.toList)

end Options

end BridgeFinder
