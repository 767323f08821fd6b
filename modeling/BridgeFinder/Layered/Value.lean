import BridgeFinder.Found

/-!
# Values from several sources

A layered configuration is one table that the sources have filled one after
another.  Every value remembers the source it came from, if it came from one as a
whole; a table that was merged from several did not.
-/

namespace BridgeFinder.Layered

/-- A value with its origin.  Scalars are never sequences or maps. -/
inductive Value where
  | scalar (origin : Option String) (value : Found)
  | array (origin : Option String) (elements : List Value)
  | table (origin : Option String) (members : List (String × Value))
deriving Inhabited

namespace Value

/-- The absent value, from nowhere. -/
def absent : Value := scalar none .unit

/-- A table that nothing has been put into. -/
def emptyTable : Value := table none []

/-- The source of a value. -/
def origin : Value → Option String
  | scalar origin _ => origin
  | array origin _ => origin
  | table origin _ => origin

/-- How a value is mentioned when something else was expected. -/
def found : Value → Found
  | scalar _ value => value
  | array _ _ => .sequence
  | table _ _ => .map

/-- The members of a table; any other value has none. -/
def members : Value → List (String × Value)
  | table _ members => members
  | _ => []

end Value

/-- Apply `change` to the value under a name, or to `missing` if there is none. -/
def changeMember (missing : Value) (change : Value → Value) (name : String) :
    List (String × Value) → List (String × Value)
  | [] => [(name, change missing)]
  | (key, value) :: members =>
      if key = name then (key, change value) :: members
      else (key, value) :: changeMember missing change name members

/-- Lower the letters of a name.  Besides the ASCII capitals this is the Kelvin
sign, the only other character whose lower case is an ASCII letter. -/
def lowerName (name : String) : String :=
  String.ofList (name.toList.map fun c => if c.toNat = 0x212A then 'k' else c.toLower)

/-- The value itself if it is a table, or else an empty table. -/
def Value.asTable : Value → Value
  | table origin members => table origin members
  | _ => emptyTable

/-- Change the member of a value under a name.  A value that is no table becomes
one. -/
def Value.change (value : Value) (name : String) (missing : Value) (change : Value → Value) :
    Value :=
  match value.asTable with
  | table origin members => table origin (changeMember missing change name members)
  | other => other

mutual

/-- Put `value` under a name, in lower case, into a table.  A table is merged into
what is there, member by member; anything else replaces it. -/
def Value.put (target : Value) (name : String) : Value → Value
  | .table _ members =>
      target.change (lowerName name) .emptyTable fun there => there.putAll members
  | .scalar origin value =>
      target.change (lowerName name) .absent fun _ => .scalar origin value
  | .array origin elements =>
      target.change (lowerName name) .absent fun _ => .array origin elements

/-- Put members into a table, one after another. -/
def Value.putAll (target : Value) : List (String × Value) → Value
  | [] => target
  | (name, value) :: members => (target.put name value).putAll members

end

end BridgeFinder.Layered
