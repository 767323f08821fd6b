import BridgeFinder.Json.Value

/-!
# Tables in the making

The lines of a TOML document add to its tables one after another.  A table remembers
how it came to be, because that decides what may still be added: a table with a
heading gets no second one and is out of reach of dotted keys, and a table that
dotted keys have made gets no heading.
-/

namespace BridgeFinder.Toml

/-- How a table came to be. -/
inductive Making where
  /-- It has a heading of its own. -/
  | headed
  /-- The heading of another table passes through it. -/
  | implied
  /-- A dotted key passes through it. -/
  | dotted
deriving DecidableEq, Repr

/-- What stands under a name of a table.  A value that is complete, also one in
braces or brackets, is never added to. -/
inductive Item where
  | value (value : Json.Value)
  | table (making : Making) (members : List (String × Item))
  /-- The tables with one heading in doubled brackets, of which the last is added
  to. -/
  | tables (elements : List (List (String × Item)))

/-- The members of a table. -/
abbrev Members := List (String × Item)

/-- Put an item under a name, in place of what is there. -/
def Members.put (name : String) (item : Item) : Members → Members
  | [] => [(name, item)]
  | (key, there) :: members =>
      if key = name then (key, item) :: members else (key, there) :: Members.put name item members

/-- Change the last of some tables. -/
def changeLast (change : Members → Option Members) : List Members → Option (List Members)
  | [] => none
  | [last] => (change last).map fun last => [last]
  | first :: rest => (changeLast change rest).map (first :: ·)

/-- Change the table that a path leads to; the tables that are missing on the way are
made.  The path of a dotted key ends at a table made by such keys, and passes through
no table with a heading. -/
def changeAt (dotted : Bool) (change : Members → Option Members) :
    List String → Members → Option Members
  | [], members => change members
  | step :: path, members => do
      let item ←
        match members.lookup step with
        | none =>
            (changeAt dotted change path []).map (.table (if dotted then .dotted else .implied))
        | some (.value _) => none
        | some (.table making inner) =>
            if dotted ∧ (making = .headed ∨ (path.isEmpty ∧ making ≠ .dotted)) then none
            else (changeAt dotted change path inner).map (.table making)
        | some (.tables elements) =>
            if dotted ∧ path.isEmpty then none
            else (changeLast (changeAt dotted change path) elements).map .tables
      pure (Members.put step item members)

/-- A value with the dotted key that it is assigned to: a path and a name. -/
structure Assignment where
  path : List String
  name : String
  value : Json.Value

/-- Add a value under a name that is still free. -/
def Members.assign (assignment : Assignment) : Members → Option Members :=
  changeAt true (fun members =>
    if (members.lookup assignment.name).isSome then none
    else some (Members.put assignment.name (.value assignment.value) members)) assignment.path

/-- Open the table of a heading. -/
def Members.openTable (path : List String) (name : String) : Members → Option Members :=
  changeAt false (fun members =>
    match members.lookup name with
    | none => some (Members.put name (.table .headed []) members)
    | some (.table .implied inner) => some (Members.put name (.table .headed inner) members)
    | some _ => none) path

/-- Open a further table of a heading in doubled brackets. -/
def Members.openElement (path : List String) (name : String) : Members → Option Members :=
  changeAt false (fun members =>
    match members.lookup name with
    | none => some (Members.put name (.tables [[]]) members)
    | some (.tables elements) => some (Members.put name (.tables (elements ++ [[]])) members)
    | some _ => none) path

mutual

/-- The value of an item. -/
def Item.toJson : Item → Json.Value
  | .value value => value
  | .table _ members => .object (membersToJson members)
  | .tables elements => .array (elementsToJson elements)

/-- The values of the members of a table. -/
def membersToJson : List (String × Item) → List (String × Json.Value)
  | [] => []
  | (name, item) :: members => (name, item.toJson) :: membersToJson members

/-- The values of several tables. -/
def elementsToJson : List (List (String × Item)) → List Json.Value
  | [] => []
  | members :: elements => .object (membersToJson members) :: elementsToJson elements

end

/-- Add values to an empty table, one after another. -/
def Members.ofAssignments (assignments : List Assignment) : Option Members :=
  assignments.foldlM (fun members assignment => members.assign assignment) []

end BridgeFinder.Toml
