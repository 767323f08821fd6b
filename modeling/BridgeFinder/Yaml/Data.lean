import BridgeFinder.Yaml.Scalar

/-!
# What a document stands for

The data of a document are its nodes without style and place, with every alias
replaced by what it stands for.  A document may lack data although it is
well-formed: a key that is repeated, an integer that is too wide, a scalar that
does not meet the demand of its tag, collections nested too deeply, or too many
aliases make it stand for nothing.
-/

namespace BridgeFinder.Yaml

/-- Data of any shape. -/
inductive Data where
  | scalar (value : Found)
  | sequence (elements : List Data)
  | mapping (members : List (Data × Data))
  | tagged (tag : List Char) (content : Data)
deriving Inhabited, BEq

/-- The anchors that an alias may mean share a number: that of the names that were
known when they began. -/
def Document.nameCount (document : Document) (number : Nat) : Nat :=
  let earlier := document.anchors.filter fun anchor => anchor.number < number
  (earlier.map Anchor.name).eraseDups.length

/-- The node that the alias of an anchor stands for: of all anchors with the same
number the last one counts. -/
def Document.target? (document : Document) (number : Nat) : Option Node :=
  let shared := document.anchors.filter fun anchor =>
    document.nameCount anchor.number == document.nameCount number
  (shared.foldl (fun last anchor =>
    match last with
    | some best => if (best : Anchor).number < anchor.number then some anchor else last
    | none => some anchor) none).map Anchor.node

/-- The deepest nesting of collections. -/
def deepestNesting : Nat := 128

/-- A number whose equality is that of its value. -/
def comparable : Found → Found
  | .float value =>
      .float (if value.isZero then .finite false 0 Number.Binary64.leastExponent else value)
  | found => found

/-- The tag of a node, if it is one of its own. -/
def ownTag? (tag : Option Tag) : Option (List Char) :=
  (tag.map Tag.text).filter fun text => text.head? == some '!'

/-- Wrap data in the tag of its node. -/
def withTag (tag : Option Tag) (data : Data) : Data :=
  match ownTag? tag with
  | some tag => .tagged tag data
  | none => data

mutual

/-- The data of a node, under the given number of further collections.  `left` is
the number of aliases that may still be followed. -/
def dataOf (document : Document) : Nat → Nat → Nat → Node → Option (Data × Nat)
  | 0, _, _, _ => none
  | bound + 1, depth, left, node =>
      match node with
      | .scalar _ scalar =>
          match scalar.resolve with
          | .found value => some (withTag scalar.tag (.scalar (comparable value)), left)
          | _ => none
      | .reference _ number =>
          match left, document.target? number with
          | left + 1, some target => dataOf document bound depth left target
          | _, _ => none
      | .sequence _ tag elements =>
          match depth with
          | 0 => none
          | depth + 1 => do
              let (elements, left) ← elementsOf document bound depth left elements
              pure (withTag tag (.sequence elements), left)
      | .mapping _ tag members =>
          match depth with
          | 0 => none
          | depth + 1 => do
              let (members, left) ← membersOf document bound depth left [] members
              pure (withTag tag (.mapping members), left)

/-- The data of the elements of a sequence. -/
def elementsOf (document : Document) :
    Nat → Nat → Nat → List Node → Option (List Data × Nat)
  | 0, _, _, _ => none
  | _ + 1, _, left, [] => some ([], left)
  | bound + 1, depth, left, node :: nodes => do
      let (element, left) ← dataOf document bound depth left node
      let (elements, left) ← elementsOf document bound depth left nodes
      pure (element :: elements, left)

/-- The data of the members of a mapping whose keys so far are `keys`. -/
def membersOf (document : Document) :
    Nat → Nat → Nat → List Data → List (Node × Node) → Option (List (Data × Data) × Nat)
  | 0, _, _, _, _ => none
  | _ + 1, _, left, _, [] => some ([], left)
  | bound + 1, depth, left, keys, (key, value) :: rest => do
      let (key, left) ← dataOf document bound depth left key
      if keys.contains key then none
      else
        let (value, left) ← dataOf document bound depth left value
        let (members, left) ← membersOf document bound depth left (key :: keys) rest
        pure ((key, value) :: members, left)

end

/-- The data of a document. -/
def Document.data? (document : Document) : Option Data :=
  let bound := (2 * document.size + 4) * (deepestNesting + 2)
  (dataOf document bound deepestNesting (100 * document.size) document.root).map Prod.fst

end BridgeFinder.Yaml
