import BridgeFinder.Net.Url
import BridgeFinder.Proofs.Text.Front
import Mathlib.Data.List.DropRight

/-!
# The margins of a URL

Blanks before a URL and behind it take no part in its reading, and neither do line breaks and tabs
anywhere in it.
-/

namespace BridgeFinder.Net.Url

open Text (Ends)

/-! ## What takes part in reading -/

/-- A line break or a tab, which counts for nothing anywhere in a text. -/
def IsBreak (c : Char) : Prop :=
  c = '\t' ∨ c = '\n' ∨ c = '\r'

instance (c : Char) : Decidable (IsBreak c) :=
  inferInstanceAs (Decidable (_ ∨ _))

section

variable {text front rest tail : List Char} {isKind : Char → Bool}

theorem ends_append (ends : Ends isKind front) (filled : front ≠ []) (rest : List Char) :
    Ends isKind (front ++ rest) := by
  rcases List.exists_cons_of_ne_nil filled with ⟨c, others, rfl⟩
  exact ends

end

end BridgeFinder.Net.Url
