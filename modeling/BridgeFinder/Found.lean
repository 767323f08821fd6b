import BridgeFinder.Number.Shortest
import BridgeFinder.Text.Quoted

/-!
# What stood where something else was expected

A decoder that meets a value of the wrong kind, or of the right kind but out of
range, says what it found and what it expected.  The three formats that are
decoded here describe found values alike, except for the absent value and for
floating-point numbers, whose spelling the format chooses.
-/

namespace BridgeFinder

/-- A value as an error message mentions it. -/
inductive Found where
  | unit
  | boolean (value : Bool)
  | integer (value : Int)
  | float (value : Number.Binary64)
  | string (value : String)
  | sequence
  | map
deriving DecidableEq, Repr

/-- How a format spells the two kinds of values on which formats differ. -/
structure Found.Style where
  unitText : String
  floatText : Number.Binary64 → String

/-- Describe a found value. -/
def Found.describe (style : Found.Style) : Found → String
  | .unit => style.unitText
  | .boolean value => "boolean `" ++ (if value then "true" else "false") ++ "`"
  | .integer value => "integer `" ++ toString value ++ "`"
  | .float value => "floating point `" ++ style.floatText value ++ "`"
  | .string value => "string " ++ Text.quoted value
  | .sequence => "sequence"
  | .map => "map"

end BridgeFinder
