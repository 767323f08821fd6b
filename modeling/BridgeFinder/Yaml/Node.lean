import BridgeFinder.Yaml.Token

/-!
# Documents of YAML

A document is a tree of scalars, sequences and mappings.  A node may be anchored,
and an alias stands for the node that was anchored last under its name.  Nodes know
where they begin, with their anchor and tag.
-/

namespace BridgeFinder.Yaml

/-- A tag: what its handle stands for, and its suffix. -/
structure Tag where
  expansion : List Char
  suffix : List Char
deriving DecidableEq, Repr

/-- The text of a tag. -/
def Tag.text (tag : Tag) : List Char :=
  tag.expansion ++ tag.suffix

/-- What the handle of the core types stands for. -/
def coreExpansion : List Char :=
  "tag:yaml.org,2002:".toList

/-- A scalar as it is written. -/
structure Scalar where
  tag : Option Tag
  style : Style
  text : List Char
deriving DecidableEq, Repr

/-- A node of a document.  An alias gives the number of its anchor, counted in the
order in which the anchors of the document begin. -/
inductive Node where
  | scalar (mark : Mark) (scalar : Scalar)
  | sequence (mark : Mark) (tag : Option Tag) (elements : List Node)
  | mapping (mark : Mark) (tag : Option Tag) (members : List (Node × Node))
  | reference (mark : Mark) (anchor : Nat)
deriving Inhabited

/-- Where a node begins. -/
def Node.mark : Node → Mark
  | scalar mark _ => mark
  | sequence mark _ _ => mark
  | mapping mark _ _ => mark
  | reference mark _ => mark

/-- An anchor: its number, its name, and the node it stands before. -/
structure Anchor where
  number : Nat
  name : List Char
  node : Node

/-- A document: its root, its anchors in the order in which their nodes end, and
the number of nodes and brackets in it. -/
structure Document where
  root : Node
  anchors : List Anchor
  size : Nat

end BridgeFinder.Yaml
