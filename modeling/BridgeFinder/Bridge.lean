import BridgeFinder.Text.Ascii

/-!
# Bridges

A bridge is known by six texts.  A confirmed bridge has them from its own
configuration document; a candidate is a mere address, perhaps with what a
protocol hinted about the device behind it.

A bridge without an id of its own is known by its hardware address: the twelve
hexadecimal digits of the address, with `FFFE` between the two halves.
-/

namespace BridgeFinder

/-- A bridge, or a candidate for one. -/
structure Bridge where
  uniqueId : String
  ip : String
  apiVersion : String
  modelId : String
  name : String
  swVersion : String
deriving DecidableEq, Repr, Inhabited

namespace Bridge

/-- A candidate of which only the address is known. -/
def candidate (ip : String) : Bridge :=
  ⟨"", ip, "", "", "", ""⟩

/-- A candidate with the hints that a protocol gave. -/
def hinted (ip uniqueId apiVersion : String) : Bridge :=
  ⟨uniqueId, ip, apiVersion, "", "", ""⟩

/-- The short text of a bridge: its id, and its address in brackets. -/
def text (bridge : Bridge) : String :=
  bridge.uniqueId ++ " (" ++ bridge.ip ++ ")"

end Bridge

/-! ## Hardware addresses -/

namespace MacAddress

/-- The hexadecimal digits of a text; whatever else it contains separates them. -/
def digits (text : String) : List Char :=
  text.toList.filter Text.isHexDigit

/-- The id of the device with the given hardware address. -/
def uniqueId? (text : String) : Option String :=
  let digits := digits text
  if digits.length = 12 then
    some (String.ofList ((digits.take 6 ++ ['F', 'F', 'F', 'E'] ++ digits.drop 6).map Char.toUpper))
  else none

end MacAddress

end BridgeFinder
