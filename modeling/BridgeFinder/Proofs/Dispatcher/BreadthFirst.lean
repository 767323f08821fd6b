import BridgeFinder.Dispatcher

/-!
# The order of work that posts work

Work that posts more work while it runs is a tree.  A queue of such work runs level by level: first
what was there, from the first to the last, then what that has posted, and so on.
-/

namespace BridgeFinder

namespace Work

variable {α : Type}

/-- The labels of the given number of levels.  The pieces of the next level are those that the
pieces of this one post. -/
def levels (count : Nat) (works : List (Work α)) : List α :=
  match count with
  | 0 => []
  | count + 1 => works.map label ++ levels count (works.flatMap posts)

/-- The labels of all pieces of work in breadth-first order.  There are no more levels than pieces
of work. -/
def breadthFirst (works : List (Work α)) : List α :=
  levels (sizes works) works

@[simp]
theorem item_label_posts (work : Work α) : item work.label work.posts = work := by
  cases work
  rfl

@[simp]
theorem size_eq (work : Work α) : work.size = sizes work.posts + 1 := by
  cases work
  rfl

@[simp]
theorem sizes_nil : sizes ([] : List (Work α)) = 0 :=
  rfl

@[simp]
theorem sizes_cons (work : Work α) (rest : List (Work α)) :
    sizes (work :: rest) = sizes work.posts + 1 + sizes rest := by
  rw [sizes, size_eq]

@[simp]
theorem sizes_append (works others : List (Work α)) :
    sizes (works ++ others) = sizes works + sizes others := by
  induction works with
  | nil => simp
  | cons work rest ih =>
      rw [List.cons_append, sizes_cons, sizes_cons, ih]
      omega

/-- Every level takes its own pieces away. -/
theorem sizes_flatMap_posts (works : List (Work α)) :
    sizes (works.flatMap posts) + works.length = sizes works := by
  induction works with
  | nil => rfl
  | cons work rest ih =>
      rw [List.flatMap_cons, sizes_append, sizes_cons, List.length_cons]
      omega

@[simp]
theorem levels_nil (count : Nat) : levels count ([] : List (Work α)) = [] := by
  induction count with
  | zero => rfl
  | succ count ih => exact ih

/-- When all pieces have been taken, the next level is empty. -/
theorem levels_succ {count : Nat} {works : List (Work α)} (enough : sizes works ≤ count) :
    levels (count + 1) works = levels count works := by
  induction count generalizing works with
  | zero =>
      cases works with
      | nil => rfl
      | cons work rest => simp at enough
  | succ count ih =>
      cases works with
      | nil => simp
      | cons work rest =>
          have fewer := sizes_flatMap_posts (work :: rest)
          rw [List.length_cons] at fewer
          rw [levels, ih (by omega), levels]

/-- It does not matter how many levels are read, if there are enough. -/
theorem levels_eq_breadthFirst {count : Nat} {works : List (Work α)}
    (enough : sizes works ≤ count) : levels count works = breadthFirst works := by
  induction enough with
  | refl => rfl
  | step enough ih => rw [levels_succ enough, ih]

@[simp]
theorem breadthFirst_nil : breadthFirst ([] : List (Work α)) = [] :=
  rfl

/-- The first level comes first. -/
theorem breadthFirst_eq (works : List (Work α)) :
    breadthFirst works = works.map label ++ breadthFirst (works.flatMap posts) := by
  have fewer := sizes_flatMap_posts works
  rw [← levels_eq_breadthFirst (Nat.le_succ (sizes works)), levels,
    levels_eq_breadthFirst (by omega)]

/-- A level may be cut: what is left of it comes before what the part before the cut has posted, and
that before what the rest will post. -/
theorem breadthFirst_append (first second : List (Work α)) :
    breadthFirst (first ++ second) =
      first.map label ++ breadthFirst (second ++ first.flatMap posts) := by
  -- the queue without the first part, with what that has posted, is smaller
  generalize sized : sizes (first ++ second) = size
  induction size using Nat.strongRecOn generalizing first second with
  | ind size ih =>
  cases first with
  | nil => simp
  | cons work rest =>
      have fewer := sizes_flatMap_posts (work :: rest)
      rw [List.length_cons] at fewer
      rw [sizes_append] at sized
      calc breadthFirst (work :: rest ++ second)
          = (work :: rest).map label ++ (second.map label ++
              breadthFirst ((work :: rest).flatMap posts ++ second.flatMap posts)) := by
            rw [breadthFirst_eq, List.map_append, List.flatMap_append, List.append_assoc]
        _ = (work :: rest).map label ++ breadthFirst (second ++ (work :: rest).flatMap posts) := by
            rw [ih _ _ second _ rfl]
            rw [sizes_append]
            omega

/-- A queue runs breadth-first: what the first piece of work posts comes after all that waits. -/
theorem breadthFirst_cons (work : Work α) (rest : List (Work α)) :
    breadthFirst (work :: rest) = work.label :: breadthFirst (rest ++ work.posts) := by
  simpa using breadthFirst_append [work] rest

end Work

namespace Dispatcher

open Work (sizes breadthFirst breadthFirst_cons)

variable {α : Type}

/-- What is posted to an open dispatcher waits after all else. -/
theorem foldl_post (works : List (Work α)) (dispatcher : Dispatcher (Work α))
    (isOpen : dispatcher.isOpen = true) :
    works.foldl (fun rest posted => (rest.post posted).1) dispatcher =
      { dispatcher with waiting := dispatcher.waiting ++ works } := by
  induction works generalizing dispatcher with
  | nil => simp
  | cons work rest ih =>
      have taken : (dispatcher.post work).1 =
          { dispatcher with waiting := dispatcher.waiting ++ [work] } := by
        rw [post, if_pos isOpen]
      rw [List.foldl_cons, taken,
        ih { dispatcher with waiting := dispatcher.waiting ++ [work] } isOpen]
      simp

/-- An open dispatcher runs the oldest piece of work, and what that posts waits after all else. -/
theorem step?_cons (work : Work α) (rest : List (Work α)) :
    step? { waiting := work :: rest } =
      some (⟨work.label, .worker⟩, { waiting := rest ++ work.posts }) := by
  rw [step?, next?, Option.map_some]
  exact congrArg (fun next => some (_, next)) (foldl_post work.posts { waiting := rest } rfl)

/-- An open dispatcher runs all work, breadth-first and on its own thread. -/
theorem drain_eq (works : List (Work α)) :
    drain { waiting := works } = ((breadthFirst works).map (⟨·, .worker⟩), {}) := by
  rw [drain]
  generalize sized : sizes works = size
  induction size generalizing works with
  | zero =>
      cases works with
      | nil => rfl
      | cons work rest => simp at sized
  | succ size ih =>
      cases works with
      | nil => simp at sized
      | cons work rest =>
          rw [Work.sizes_cons] at sized
          have fewer : sizes (rest ++ work.posts) = size := by
            rw [Work.sizes_append]
            omega
          rw [run, step?_cons]
          simp only [ih _ fewer, breadthFirst_cons, List.map_cons]

end Dispatcher

end BridgeFinder
