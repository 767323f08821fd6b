/-!
# How similar two words are

The measure of Jaro: two letters match if they are equal and stand close enough to
each other, and the words are the more similar the more of their letters match in
the same order.  The measure runs from zero, for words without a match, to one, for
equal words.
-/

namespace BridgeFinder.Text

/-- Take the first letter `c` of a word that has not been taken and stands at a
place from `low` up to, but not including, `high`.  `place` is the place of the
word's first letter. -/
def takeMatch? (c : Char) (low high place : Nat) :
    List (Char × Bool) → Option (List (Char × Bool))
  | [] => none
  | (letter, isTaken) :: rest =>
      if low ≤ place ∧ place < high ∧ letter = c ∧ !isTaken then some ((letter, true) :: rest)
      else (takeMatch? c low high (place + 1) rest).map ((letter, isTaken) :: ·)

/-- Match the letters of a word with those of another one, at most `range` places
away, giving the letters that have a match and the other word. -/
def matchLetters (range place : Nat) :
    List Char → List (Char × Bool) → List Char × List (Char × Bool)
  | [], other => ([], other)
  | c :: rest, other =>
      match takeMatch? c (place - range) (place + range + 1) 0 other with
      | some taken =>
          let (matched, final) := matchLetters range (place + 1) rest taken
          (c :: matched, final)
      | none => matchLetters range (place + 1) rest other

/-- The similarity of two words. -/
def similarity (a b : List Char) : Float :=
  if a.isEmpty && b.isEmpty then 1
  else
    let range := max a.length b.length / 2 - 1
    let (matched, other) := matchLetters range 0 a (b.map (·, false))
    if matched.isEmpty then 0
    else
      let counterparts := (other.filter Prod.snd).map Prod.fst
      let transpositions := ((matched.zip counterparts).countP fun (x, y) => x ≠ y) / 2
      let count := Float.ofNat matched.length
      (count / Float.ofNat a.length + count / Float.ofNat b.length +
        Float.ofNat (matched.length - transpositions) / count) / 3

end BridgeFinder.Text
