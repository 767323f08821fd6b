import BridgeFinder.Schedule

/-!
# What schedules preserve

A schedule is made of turns, so what every turn preserves, every schedule does.
The history of a state is the list of marks that were made on the way to it.
-/

namespace BridgeFinder

variable {ι μ ρ : Type} {turn : ι → ρ → List μ × ρ}

@[simp]
theorem play_nil (state : ρ) : play turn [] state = ([], state) :=
  rfl

theorem play_cons (first : ι) (rest : List ι) (state : ρ) :
    play turn (first :: rest) state =
      ((turn first state).1 ++ (play turn rest (turn first state).2).1,
        (play turn rest (turn first state).2).2) :=
  rfl

/-- A schedule may be cut anywhere. -/
theorem play_append (first second : List ι) (state : ρ) :
    play turn (first ++ second) state =
      ((play turn first state).1 ++ (play turn second (play turn first state).2).1,
        (play turn second (play turn first state).2).2) := by
  induction first generalizing state with
  | nil => simp
  | cons next rest ih => simp [play_cons, ih]

/-- A property of history and state that every turn preserves holds after every
schedule. -/
theorem play_preserves {Holds : List μ → ρ → Prop}
    (keeps : ∀ history state next, Holds history state →
      Holds (history ++ (turn next state).1) (turn next state).2)
    (turns : List ι) {history : List μ} {state : ρ} (start : Holds history state) :
    Holds (history ++ (play turn turns state).1) (play turn turns state).2 := by
  induction turns generalizing history state with
  | nil => simpa using start
  | cons first rest ih =>
      rw [play_cons, ← List.append_assoc]
      exact ih (keeps history state first start)

/-- Where no turn makes more than one mark, what was seen before a mark had been seen before the
turn that made it. -/
theorem exists_turn_of_mark (single : ∀ next state, (turn next state).1.length ≤ 1)
    {turns : List ι} {state : ρ} {before after : List μ} {mark : μ}
    (seen : (play turn turns state).1 = before ++ mark :: after) :
    ∃ first next, first ++ [next] <+: turns ∧ (play turn first state).1 = before ∧
      (turn next (play turn first state).2).1 = [mark] := by
  induction turns generalizing state before with
  | nil => simp at seen
  | cons taken rest ih =>
      rw [play_cons] at seen
      match made : (turn taken state).1, single taken state with
      | [], _ =>
          rw [made] at seen
          rcases ih seen with ⟨first, next, partly, earlier, marked⟩
          refine ⟨taken :: first, next, ?_, ?_, marked⟩
          · simpa using partly
          · rw [play_cons, made, earlier, List.nil_append]
      | [one], _ =>
          rw [made] at seen
          cases before with
          | nil =>
              have same : one = mark := (List.cons.inj seen).1
              exact ⟨[], taken, by simp, rfl, by rw [play_nil, made, same]⟩
          | cons past before =>
              rcases List.cons.inj seen with ⟨rfl, later⟩
              rcases ih later with ⟨first, next, partly, earlier, marked⟩
              refine ⟨taken :: first, next, ?_, ?_, marked⟩
              · simpa using partly
              · rw [play_cons, made, earlier, List.singleton_append]
      | _ :: _ :: _, short => simp at short

/-- Where every turn of some kind changes nothing or leads down, turns of this kind lead to
where none of them changes anything. -/
theorem exists_play_rests {below : ρ → ρ → Prop} (wellFounded : WellFounded below)
    {own : ι → Prop}
    (down : ∀ next, own next → ∀ state,
      turn next state = ([], state) ∨ below (turn next state).2 state)
    (state : ρ) :
    ∃ turns, (∀ next ∈ turns, own next) ∧
      ∀ next, own next → turn next (play turn turns state).2 = ([], (play turn turns state).2) := by
  induction state using wellFounded.induction with
  | _ state ih =>
  by_cases rests : ∀ next, own next → turn next state = ([], state)
  · exact ⟨[], nofun, rests⟩
  · simp only [Classical.not_forall] at rests
    rcases rests with ⟨next, isOwn, moves⟩
    have less := (down next isOwn state).resolve_left moves
    rcases ih _ less with ⟨turns, all, rests⟩
    apply Exists.intro (next :: turns)
    constructor
    · intro other member
      rcases List.mem_cons.mp member with rfl | later
      · exact isOwn
      · exact all other later
    · exact rests

/-- What one party does by itself, it does among others. -/
theorem play_lift {ι' μ' ρ' : Type} {turn' : ι' → ρ' → List μ' × ρ'} (next : ι → ι')
    (mark : μ → μ') (among : ρ → ρ')
    (same : ∀ one state, turn' (next one) (among state) =
      ((turn one state).1.map mark, among (turn one state).2))
    (turns : List ι) (state : ρ) :
    play turn' (turns.map next) (among state) =
      ((play turn turns state).1.map mark, among (play turn turns state).2) := by
  induction turns generalizing state with
  | nil => rfl
  | cons first turns ih =>
      rw [List.map_cons, play_cons, play_cons, same, ih, List.map_append]

/-- A schedule leads from one state to another, with the marks that are made on the way. -/
def Reaches (turn : ι → ρ → List μ × ρ) (state : ρ) (marks : List μ) (last : ρ) : Prop :=
  ∃ turns, play turn turns state = (marks, last)

namespace Reaches

theorem rest (state : ρ) : Reaches turn state [] state :=
  ⟨[], rfl⟩

theorem one {state last : ρ} {marks : List μ} (next : ι) (taken : turn next state = (marks, last)) :
    Reaches turn state marks last :=
  ⟨[next], by simp [play_cons, taken]⟩

theorem cons {state last : ρ} {more : List μ} (next : ι)
    (there : Reaches turn (turn next state).2 more last) :
    Reaches turn state ((turn next state).1 ++ more) last := by
  rcases there with ⟨turns, played⟩
  exact ⟨next :: turns, by rw [play_cons, played]⟩

theorem trans {first second third : ρ} {marks more : List μ}
    (here : Reaches turn first marks second) (there : Reaches turn second more third) :
    Reaches turn first (marks ++ more) third := by
  rcases here with ⟨turns, played⟩
  rcases there with ⟨others, continued⟩
  apply Exists.intro (turns ++ others)
  rw [play_append, played, continued]

theorem lift {ι' μ' ρ' : Type} {turn' : ι' → ρ' → List μ' × ρ'} (next : ι → ι') (mark : μ → μ')
    (among : ρ → ρ')
    (same : ∀ one state, turn' (next one) (among state) =
      ((turn one state).1.map mark, among (turn one state).2))
    {state last : ρ} {marks : List μ} (reaches : Reaches turn state marks last) :
    Reaches turn' (among state) (marks.map mark) (among last) := by
  rcases reaches with ⟨turns, played⟩
  exact ⟨turns.map next, by rw [play_lift next mark among same, played]⟩

end Reaches

end BridgeFinder
