import BridgeFinder.Layered.Value
import BridgeFinder.Number.Decimal

/-!
# Variables of the environment

A variable whose name begins with the prefix gives a value; in the rest of its name
two low lines separate the steps of a path.  What looks like a boolean or a number
is one.
-/

namespace BridgeFinder.Layered

/-- The environment: its variables with their values. -/
abbrev Environment := List (String × String)

/-- The prefix of the variables that count, in lower case. -/
def variablePrefix : List Char :=
  "hue_discovery__".toList

/-- What the values of the environment call their origin. -/
def environmentOrigin : String := "the environment"

/-- Write a point for every two low lines. -/
def pointSeparators : List Char → List Char
  | '_' :: '_' :: rest => '.' :: pointSeparators rest
  | c :: rest => c :: pointSeparators rest
  | [] => []

/-- The key that a variable gives a value for, if its name has the prefix. -/
def variableKey? (name : String) : Option String :=
  (variablePrefix.isPrefixOf? (lowerName name).toList).map fun rest =>
    String.ofList (pointSeparators rest)

/-- What the text of a variable stands for. -/
def variableValue (text : String) : Found :=
  match Text.lower text with
  | "true" => .boolean true
  | "false" => .boolean false
  | _ =>
      match Number.integer? text.toList with
      | some n => .integer n
      | none =>
          match Number.Binary64.ofTextOrWord? text.toList with
          | some value => .float value
          | none => .string text

/-- The values that the environment gives, under their keys. -/
def Environment.members (environment : Environment) : List (String × Value) :=
  environment.filterMap fun (name, text) =>
    (variableKey? name).map fun key =>
      (key, .scalar (some environmentOrigin) (variableValue text))

end BridgeFinder.Layered
