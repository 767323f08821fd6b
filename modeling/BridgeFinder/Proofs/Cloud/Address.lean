import BridgeFinder.Cloud
import BridgeFinder.Proofs.Net.Url.Front
import BridgeFinder.Proofs.Net.Url.Margin

/-!
# Where the cloud is asked

The path of the list is written behind an address of a former host.  So the list of that host is
requested, if the address ends with its path; behind a query or a fragment, the path would only
lengthen these, and behind a blank it would come too late to end the host.
-/

namespace BridgeFinder

namespace Net.Url

/-! ## Paths -/

section

variable {scheme path rest : List Char} {host : Option Host} {port : Option Nat} {mark : Char}

/-- A path as it is read: where backslashes are slashes, they are taken for slashes. -/
def asRead (scheme path : List Char) : List Char :=
  if hasBackslashes scheme then path.map fun c => if c = '\\' then '/' else c else path

/-- The characters that begin a query and a fragment. -/
def IsMark (c : Char) : Prop :=
  c = '?' ∨ c = '#'

instance (c : Char) : Decidable (IsMark c) :=
  inferInstanceAs (Decidable (_ ∨ _))

/-- Without a query and a fragment, everything behind the host is the path. -/
theorem ofPath_unmarked (unmarked : ∀ c ∈ path, ¬ IsMark c) :
    ofPath scheme host port path = ⟨scheme, host, port, asRead scheme path, none, none⟩ := by
  have noFragment : path.span (· ≠ '#') = (path, []) := by
    rw [Text.span_eq_iff]
    exact ⟨by simp, fun c member => by simpa using fun same => unmarked c member (.inr same),
      Text.ends_nil _⟩
  have noQuery : path.span (· ≠ '?') = (path, []) := by
    rw [Text.span_eq_iff]
    exact ⟨by simp, fun c member => by simpa using fun same => unmarked c member (.inl same),
      Text.ends_nil _⟩
  simp only [ofPath, noFragment, noQuery]
  rfl

/-- The path ends where a query or a fragment begins. -/
theorem ofPath_marked (unmarked : ∀ c ∈ path, ¬ IsMark c) (isMark : IsMark mark) :
    ((ofPath scheme host port (path ++ mark :: rest)).query ≠ none ∨
        (ofPath scheme host port (path ++ mark :: rest)).fragment ≠ none) ∧
      (ofPath scheme host port (path ++ mark :: rest)).path = asRead scheme path := by
  have inside (other : Char) (mark : IsMark other) : ∀ c ∈ path, decide (c ≠ other) = true := by
    intro c member
    rw [decide_eq_true_eq]
    rintro rfl
    exact unmarked c member mark
  rcases isMark with rfl | rfl
  · have noQuery (rest : List Char) :
        (path ++ '?' :: rest).span (· ≠ '?') = (path, '?' :: rest) :=
      Text.span_eq_iff.mpr ⟨rfl, inside '?' (.inl rfl), Text.ends_cons (by simp) rest⟩
    have cut : (path ++ '?' :: rest).span (· ≠ '#') =
        (path ++ '?' :: rest.takeWhile (· ≠ '#'), rest.dropWhile (· ≠ '#')) := by
      rw [Text.span_eq_iff]
      refine ⟨by simp, ?_, Text.ends_dropWhile _ rest⟩
      intro c member
      rcases List.mem_append.mp member with there | there
      · exact inside '#' (.inr rfl) c there
      · rcases List.mem_cons.mp there with rfl | later
        · rfl
        · exact List.mem_takeWhile_imp (p := (· ≠ '#')) later
    simp only [ofPath, cut, noQuery]
    exact ⟨.inl (Option.some_ne_none _), rfl⟩
  · have cut : (path ++ '#' :: rest).span (· ≠ '#') = (path, '#' :: rest) :=
      Text.span_eq_iff.mpr ⟨rfl, inside '#' (.inr rfl), Text.ends_cons (by simp) rest⟩
    have noQuery : path.span (· ≠ '?') = (path, []) :=
      Text.span_eq_iff.mpr ⟨by simp, inside '?' (.inl rfl), Text.ends_nil _⟩
    simp only [ofPath, cut, noQuery]
    exact ⟨.inr (Option.some_ne_none _), rfl⟩

/-- A text has a first mark, unless it has none. -/
theorem exists_mark (text : List Char) : (∀ c ∈ text, ¬ IsMark c) ∨
    ∃ path mark rest, text = path ++ mark :: rest ∧ (∀ c ∈ path, ¬ IsMark c) ∧ IsMark mark := by
  induction text with
  | nil => exact .inl nofun
  | cons c text ih =>
      by_cases mark : IsMark c
      · exact .inr ⟨[], c, text, rfl, nofun, mark⟩
      · rcases ih with none | ⟨path, found, rest, rfl, unmarked, isMark⟩
        · exact .inl (List.forall_mem_cons.mpr ⟨mark, none⟩)
        · exact .inr
            ⟨c :: path, found, rest, rfl, List.forall_mem_cons.mpr ⟨mark, unmarked⟩, isMark⟩

end

end Net.Url

namespace Cloud

open Net Net.Url
open Text (Ends)

/-- The margin at the end of the text holds more than line breaks and tabs. -/
def EndsInBlank (text : List Char) : Prop :=
  ∃ c ∈ text.rtakeWhile isMargin, ¬ IsBreak c

section

variable {text : List Char}

end

/-- Slashes at the end of a text are behind its front, if that does not end with a slash. -/
theorem exists_between {front rest kept slashes : List Char}
    (same : front ++ rest = kept ++ slashes) (areSlashes : ∀ c ∈ slashes, c = '/') (ends : Ends (· == '/') front.reverse) :
    ∃ between, kept = front ++ between ∧ rest = between ++ slashes := by
  rcases List.append_eq_append_iff.mp same with
    ⟨between, isKept, isRest⟩ | ⟨more, isFront, isSlashes⟩
  · exact ⟨between, isKept, isRest⟩
  · have none : more = [] := by
      by_contra some
      have last := ends (more.getLast some) (by
        rw [isFront, List.head?_reverse, List.getLast?_append_of_ne_nil _ some,
          List.getLast?_eq_some_getLast some]
        rfl)
      have slash := areSlashes (more.getLast some) (by
        rw [isSlashes]
        exact List.mem_append_left _ (List.getLast_mem some))
      rw [slash] at last
      cases last
    subst none
    exact ⟨[], by simpa using isFront.symm, by simpa using isSlashes.symm⟩

/-! ## Addresses of the former hosts -/

section

variable {text : List Char} {url : Url} {host : Host}

/-- How an address of a former host is read, and what is read when the path of the list has been
added to it.  They have a front in common; then comes what remains of the path, the query and the
fragment without the slashes at the end; and behind that come the blanks that were a margin. -/
structure Extends (text : List Char) (url : Url) (host : Host)
    (front between slashes blanks : List Char) : Prop where
  read : url = ofPath url.scheme url.host url.port (between ++ slashes)
  closes : Closes url.scheme (between ++ slashes)
  areSlashes : ∀ c ∈ slashes, c = '/'
  alone : blanks ≠ [] → slashes = []
  inBlank : blanks = [] ↔ ¬ EndsInBlank text
  areBlanks : ∀ c ∈ blanks, isMargin c
  extended : parse? (trimSlashes text ++ formerPath) =
    read? (front ++ (between ++ (blanks ++ formerPath)))
  onward : ∀ other, Closes url.scheme other →
    read? (front ++ other) = some (ofPath url.scheme url.host url.port other)
  apart : ∀ blanks other changed, (∀ c ∈ blanks, isMargin c) → blanks ≠ [] →
    Closes url.scheme other → read? (front ++ (blanks ++ other)) = some changed →
      changed.host ≠ some host

variable {front between slashes blanks : List Char}

/-- Without a query and a fragment, the address ends with its path. -/
theorem Extends.unmarked (given : Extends text url host front between slashes blanks)
    (noQuery : url.query = none) (noFragment : url.fragment = none) :
    (∀ c ∈ between ++ slashes, ¬ IsMark c) ∧ url.path = asRead url.scheme (between ++ slashes) := by
  rcases exists_mark (between ++ slashes) with none | ⟨path, mark, rest, split, unmarked, isMark⟩
  · have path := congrArg Url.path given.read
    rw [ofPath_unmarked none] at path
    exact ⟨none, path⟩
  · have read := given.read
    rw [split] at read
    have marked : url.query ≠ none ∨ url.fragment ≠ none := by
      rw [read]
      exact (ofPath_marked unmarked isMark).1
    exact absurd marked (by simp [noQuery, noFragment])

end

end Cloud

end BridgeFinder
