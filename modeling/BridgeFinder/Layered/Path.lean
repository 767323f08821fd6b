import BridgeFinder.Layered.Value
import BridgeFinder.Text.Ascii

/-!
# Paths to values

A source may give a value under a path: a name, followed by names after points and
by indices in brackets.  What is missing on the way is created, and what is of the
wrong shape is replaced.  Negative indices count from the end.
-/

namespace BridgeFinder.Layered

/-- A path from the root of a configuration. -/
inductive Path where
  | name (text : String)
  | member (parent : Path) (text : String)
  | element (parent : Path) (index : Int)
deriving DecidableEq, Repr

namespace Path

/-- A character of a name in a path. -/
def isNameChar (c : Char) : Bool :=
  c.isAlphanum || c == ' ' || c == '_' || c == '-'

/-- Read an index and the bracket that closes it. -/
def index? (text : List Char) : Option (Int × List Char) := do
  let (negative, text) :=
    match text with
    | '-' :: rest => (true, rest)
    | text => (false, text)
  let (digits, rest) := text.span Char.isDigit
  let n ← Text.natural? digits
  match rest with
  | ']' :: rest =>
      if n < Number.powerOfTwo 63 then some (if negative then -(n : Int) else n, rest) else none
  | _ => none

/-- Read the steps of a path after `path`. -/
def steps? : Nat → Path → List Char → Option Path
  | _, path, [] => some path
  | bound + 1, path, '.' :: rest =>
      match rest.span isNameChar with
      | ([], _) => none
      | (text, rest) => steps? bound (.member path (String.ofList text)) rest
  | bound + 1, path, '[' :: rest => do
      let (index, rest) ← index? rest
      steps? bound (.element path index) rest
  | _, _, _ => none

/-- Read a path. -/
def parse? (text : String) : Option Path :=
  match text.toList.span isNameChar with
  | ([], _) => none
  | (first, rest) => steps? rest.length (.name (String.ofList first)) rest

/-- The place of an element in an array of the given length.  There is none before
the first element. -/
def place? (index : Int) (length : Nat) : Option Nat :=
  if 0 ≤ index then some index.toNat
  else if index.natAbs ≤ length then some (length - index.natAbs)
  else none

/-- Change the element of an array at a place; the array is filled up with absent
values as far as needed. -/
def changeElement (change : Value → Value) (place : Nat) (elements : List Value) :
    List Value :=
  let filled := elements ++ List.replicate (place + 1 - elements.length) Value.absent
  filled.modify place change

/-- Change the element of a value at an index.  A value that is no array becomes
one. -/
def changeIndex (change : Value → Value) (index : Int) (value : Value) : Value :=
  let (origin, elements) :=
    match value with
    | .array origin elements => (origin, elements)
    | _ => (none, [])
  match place? index elements.length with
  | some place => .array origin (changeElement change place elements)
  | none => .array origin elements

/-- Change the value at a path. -/
def change (change : Value → Value) : Path → Value → Value
  | name text, root => root.change text .absent change
  | member parent text, root => parent.change (fun value => value.change text .absent change) root
  | element parent index, root => parent.change (changeIndex change index) root

/-- Put a value at a path. -/
def put (value : Value) : Path → Value → Value
  | name text, root => root.put text value
  | member parent text, root => parent.change (fun target => target.asTable.put text value) root
  | element parent index, root => parent.change (changeIndex (fun _ => value) index) root

end Path

/-- Put a value under a key, which is taken for a path if it has the form of one. -/
def Value.putAt (root : Value) (key : String) (value : Value) : Value :=
  match Path.parse? key with
  | some path => path.put value root
  | none => root.put key value

/-- Lay the members of one source over a configuration. -/
def Value.layer (root : Value) (members : List (String × Value)) : Value :=
  members.foldl (fun root (key, value) => root.putAt key value) root

end BridgeFinder.Layered
