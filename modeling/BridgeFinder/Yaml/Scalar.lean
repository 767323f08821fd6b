import BridgeFinder.Found
import BridgeFinder.Number.Decimal
import BridgeFinder.Yaml.Node

/-!
# What a plain scalar means

A scalar without quotes stands for the absent value, a boolean, a number or a text,
depending on its spelling.  Integers may be written in four bases.  A run of digits
with a leading zero is a text.
-/

namespace BridgeFinder.Yaml

open Number (Binary64)

/-- A word for the absent value. -/
def isNullWord (text : List Char) : Bool :=
  ["null", "Null", "NULL", "~"].contains (String.ofList text)

/-- Read a word for a boolean. -/
def boolean? (text : List Char) : Option Bool :=
  match String.ofList text with
  | "true" | "True" | "TRUE" => some true
  | "false" | "False" | "FALSE" => some false
  | _ => none

/-- Read the digits of a base after its mark, at most `largest`. -/
def based? (largest : Nat) (text : List Char) : Option Nat :=
  let digits? (base : Nat) (digits : List Char) : Option Nat :=
    (Text.naturalInBase? base digits).filter (· ≤ largest)
  match text with
  | '0' :: 'x' :: rest => digits? 16 rest
  | '0' :: 'o' :: rest => digits? 8 rest
  | '0' :: 'b' :: rest => digits? 2 rest
  | _ => none

/-- The text is a run of digits, after a sign perhaps, with a leading zero that is
not its only digit. -/
def hasLeadingZero (text : List Char) : Bool :=
  let (_, digits) := Binary64.takeSign text
  digits.length > 1 && digits.head? == some '0' && digits.all Char.isDigit

/-- Read a natural number of at most `largest`, after a plus sign perhaps. -/
def natural? (largest : Nat) (text : List Char) : Option Nat :=
  let digits := if text.head? = some '+' then text.drop 1 else text
  match based? largest digits with
  | some n => some n
  | none =>
      if hasLeadingZero text then none else (Text.natural? digits).filter (· ≤ largest)

/-- Read a minus sign and a natural number of at most `largest`. -/
def negative? (largest : Nat) (text : List Char) : Option Int :=
  match text with
  | '-' :: digits =>
      match based? largest digits with
      | some n => some (-(n : Int))
      | none =>
          if hasLeadingZero text then none
          else ((Text.natural? digits).filter (· ≤ largest)).map fun n => -(n : Int)
  | _ => none

/-- Read a finite number, or one of the words for an infinity and for what is no
number. -/
def float? (text : List Char) : Option Binary64 :=
  let unsigned := if text.head? = some '+' then text.drop 1 else text
  if [".inf", ".Inf", ".INF"].contains (String.ofList unsigned) then some (.infinite false)
  else if ["-.inf", "-.Inf", "-.INF"].contains (String.ofList text) then some (.infinite true)
  else if [".nan", ".NaN", ".NAN"].contains (String.ofList text) then some .nan
  else if text.head? = some '+' ∧ unsigned.head?.any (fun c => c == '+' || c == '-') then none
  else (Binary64.ofText? unsigned).filter Binary64.isFinite

/-- An integer in the range of the machine, or one beyond it. -/
inductive Width where
  | fits (value : Int)
  | tooWide
deriving DecidableEq, Repr

/-- Read an integer.  Those of 64 bits fit; those that need up to 128 are too wide,
and larger ones are no integers at all. -/
def integer? (text : List Char) : Option Width :=
  match natural? (Number.powerOfTwo 64 - 1) text with
  | some n => some (.fits n)
  | none =>
      match negative? (Number.powerOfTwo 63) text with
      | some n => some (.fits n)
      | none =>
          if (natural? (Number.powerOfTwo 128 - 1) text).isSome ||
              (negative? (Number.powerOfTwo 127) text).isSome then
            some .tooWide
          else none

/-- What a plain scalar stands for, unless it is an integer that is too wide. -/
def resolvePlain (text : List Char) : Option Found :=
  if text.isEmpty || isNullWord text then some .unit
  else
    match boolean? text with
    | some value => some (.boolean value)
    | none =>
        match integer? text with
        | some (.fits value) => some (.integer value)
        | some .tooWide => none
        | none =>
            match if hasLeadingZero text then none else float? text with
            | some value => some (.float value)
            | none => some (.string (String.ofList text))

/-- The text of the tag of a core type. -/
def coreTag (name : String) : List Char :=
  coreExpansion ++ name.toList

/-- The core type that a tag demands. -/
inductive Demand where
  | boolean
  | integer
  | float
  | null
deriving DecidableEq, Repr

/-- The core type that a tag demands, if it is one of four. -/
def demand? (tag : Tag) : Option Demand :=
  if tag.text = coreTag "bool" then some .boolean
  else if tag.text = coreTag "int" then some .integer
  else if tag.text = coreTag "float" then some .float
  else if tag.text = coreTag "null" then some .null
  else none

/-- How a demand is called in messages. -/
def Demand.name : Demand → String
  | boolean => "a boolean"
  | integer => "an integer"
  | float => "a float"
  | null => "null"

/-- What a scalar stands for when a core type is demanded of it, unless it does not
meet the demand. -/
def Demand.meet? (demand : Demand) (text : List Char) : Option Found :=
  match demand with
  | boolean => (boolean? text).map .boolean
  | integer =>
      match integer? text with
      | some (.fits value) => some (.integer value)
      | _ => none
  | float => (float? text).map .float
  | null => if isNullWord text then some .unit else none

/-- What a scalar turns out to be. -/
inductive Resolved where
  | found (found : Found)
  /-- It does not meet the demand of its tag. -/
  | unmet (demand : Demand)
  /-- It is an integer that is too wide. -/
  | tooWide
deriving DecidableEq, Repr

/-- What a plain scalar turns out to be. -/
def Resolved.ofPlain (text : List Char) : Resolved :=
  match resolvePlain text with
  | some value => .found value
  | none => .tooWide

/-- What a scalar turns out to be.  A tag of one's own leaves a plain scalar as it
is, any other tag makes it a text. -/
def Scalar.resolve (scalar : Scalar) : Resolved :=
  let text := Resolved.found (.string (String.ofList scalar.text))
  match scalar.tag with
  | none => if scalar.style = .plain then .ofPlain scalar.text else text
  | some tag =>
      match demand? tag with
      | some demand =>
          match demand.meet? scalar.text with
          | some value => .found value
          | none => .unmet demand
      | none =>
          if tag.text.head? = some '!' ∧ scalar.style = .plain then .ofPlain scalar.text else text

end BridgeFinder.Yaml
