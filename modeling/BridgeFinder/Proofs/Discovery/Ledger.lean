import BridgeFinder.Discovery.Live
import BridgeFinder.Proofs.Task.Course

/-!
# The ledger of a discovery

Every search that was asked for is entered once, with the call by which it is answered.
The calls that are entered are those that have been made and those that are due, and only
the search whose callback is parked is still to be entered.
-/

namespace BridgeFinder.Discovery

/-- The searches that are asked for. -/
def asks (marks : List Mark) : List Ask :=
  marks.filterMap Mark.ask?

/-- The calls that are made. -/
def calls (marks : List Mark) : List Call :=
  marks.filterMap Mark.call?

/-- The number of a search that was accepted. -/
def Ask.number? (ask : Ask) : Option Nat :=
  match ask.verdict with
  | .accepted number _ => some number
  | .busy | .missing => none

/-- A run of methods ends with results. -/
def Delivers (methods : List Method) (results : List Bridge) : Prop :=
  ∃ seen token left,
    Task.Course ⟨false, (Runner.ofMethods methods).execute⟩ seen ⟨token, .done (results, left)⟩

/-- The call by which a search is answered, by how it was received.  A search that was
accepted counts as stopped if a request to stop it was accepted, and as a success
otherwise. -/
inductive Answers (marks : List Mark) : Ask → Call → Prop where
  | busy (callback : Callback) : Answers marks ⟨callback, .busy⟩ ⟨callback, [], .busy⟩
  | missing (callback : Callback) :
      Answers marks ⟨callback, .missing⟩ ⟨callback, [], .missingMethods⟩
  | stopped {number : Nat} {methods : List Method} {results : List Bridge} (callback : Callback)
      (cancelled : .cancelled number ∈ marks) (delivers : Delivers methods results) :
      Answers marks ⟨callback, .accepted number methods⟩ ⟨callback, results, .stopped⟩
  | success {number : Nat} {methods : List Method} {results : List Bridge} (callback : Callback)
      (cancelled : .cancelled number ∉ marks) (delivers : Delivers methods results) :
      Answers marks ⟨callback, .accepted number methods⟩ ⟨callback, results, .success⟩

/-- The ledger of what can be seen of a discovery: the searches that are settled, each with
its answer, and the one that is still standing.  Settled searches that were accepted are
among the first `taken` ones. -/
structure Ledger (marks : List Mark) (due : List Call) (taken : Nat)
    (settled : List (Ask × Call)) (standing : Option Ask) : Prop where
  asked : (asks marks).Perm (settled.map Prod.fst ++ standing.toList)
  called : (settled.map Prod.snd).Perm (calls marks ++ due)
  answered : ∀ entry ∈ settled, Answers marks entry.1 entry.2
  taken : ∀ entry ∈ settled, ∀ number, entry.1.number? = some number → number ≤ taken

theorem asks_append (first second : List Mark) :
    asks (first ++ second) = asks first ++ asks second :=
  List.filterMap_append

theorem calls_append (first second : List Mark) :
    calls (first ++ second) = calls first ++ calls second :=
  List.filterMap_append

@[simp]
theorem asks_asked (ask : Ask) : asks [.asked ask] = [ask] :=
  rfl

@[simp]
theorem calls_asked (ask : Ask) : calls [.asked ask] = [] :=
  rfl

@[simp]
theorem asks_called (call : Call) : asks [.called call] = [] :=
  rfl

@[simp]
theorem calls_called (call : Call) : calls [.called call] = [call] :=
  rfl

/-- Later requests to stop do not concern a search that has been answered. -/
theorem Answers.append {marks : List Mark} {ask : Ask} {call : Call} (answers : Answers marks ask call)
    {more : List Mark} (silent : ∀ number, ask.number? = some number → .cancelled number ∉ more) :
    Answers (marks ++ more) ask call := by
  cases answers with
  | busy => exact .busy _
  | missing => exact .missing _
  | stopped callback cancelled delivers =>
      exact .stopped callback (List.mem_append_left more cancelled) delivers
  | success callback cancelled delivers =>
      apply Answers.success callback _ delivers
      rw [List.mem_append, not_or]
      exact ⟨cancelled, silent _ rfl⟩

namespace Ledger

variable {marks more : List Mark} {due : List Call} {taken : Nat}
  {settled : List (Ask × Call)} {standing : Option Ask} {ask : Ask} {answer : Call}

/-- The ledger of a discovery that has just been made is empty. -/
theorem empty : Ledger [] [] 0 [] none := by
  constructor
  · exact .refl _
  · exact .refl _
  · nofun
  · nofun

/-- The order of the calls that are due does not matter. -/
theorem perm (ledger : Ledger marks due taken settled standing) {other : List Call}
    (same : due.Perm other) : Ledger marks other taken settled standing where
  asked := ledger.asked
  called := ledger.called.trans (same.append_left _)
  answered := ledger.answered
  taken := ledger.taken

/-- What else happens changes nothing in the ledger, as far as no search that is settled is
stopped. -/
theorem quiet (ledger : Ledger marks due taken settled standing) (noAsks : asks more = [])
    (noCalls : calls more = []) (late : ∀ number, .cancelled number ∈ more → taken < number) :
    Ledger (marks ++ more) due taken settled standing := by
  constructor
  · rw [asks_append, noAsks, List.append_nil]
    exact ledger.asked
  · rw [calls_append, noCalls, List.append_nil]
    exact ledger.called
  · intro entry member
    apply (ledger.answered entry member).append
    intro number accepted cancelled
    have := ledger.taken entry member number accepted
    have := late number cancelled
    omega
  · exact ledger.taken

/-- A search that is answered at once is entered with its answer, which is due. -/
theorem decline (ledger : Ledger marks due taken settled standing)
    (answers : Answers marks ask answer) (declined : ask.number? = none) :
    Ledger (marks ++ [.asked ask]) (answer :: due) taken (settled ++ [(ask, answer)]) standing := by
  constructor
  · rw [asks_append, List.map_append, List.append_assoc]
    exact (ledger.asked.append_right _).trans
      (by simpa using (List.perm_append_singleton ask standing.toList).append_left _)
  · rw [calls_append, List.map_append]
    exact (ledger.called.append_right _).trans
      (by simpa using (List.perm_append_singleton answer due).append_left _)
  · intro entry member
    rcases List.mem_append.mp member with old | new
    · exact (ledger.answered entry old).append (by simp)
    · obtain rfl := List.mem_singleton.mp new
      exact answers.append (by simp)
  · intro entry member number accepted
    rcases List.mem_append.mp member with old | new
    · exact ledger.taken entry old number accepted
    · obtain rfl := List.mem_singleton.mp new
      rw [declined] at accepted
      cases accepted

/-- A search that is accepted stands. -/
theorem accept (ledger : Ledger marks due taken settled none) (ask : Ask) :
    Ledger (marks ++ [.asked ask]) due taken settled (some ask) := by
  constructor
  · rw [asks_append]
    simpa using ledger.asked.append_right [ask]
  · rw [calls_append]
    simpa using ledger.called
  · intro entry member
    exact (ledger.answered entry member).append (by simp)
  · exact ledger.taken

/-- The search that stands is settled by its answer, which is due. -/
theorem settle (ledger : Ledger marks due taken settled (some ask)) {now : Nat}
    (answers : Answers marks ask answer) (later : taken ≤ now)
    (last : ∀ number, ask.number? = some number → number ≤ now) :
    Ledger marks (answer :: due) now (settled ++ [(ask, answer)]) none := by
  constructor
  · simpa using ledger.asked
  · rw [List.map_append]
    exact (ledger.called.append_right _).trans
      (by simpa using (List.perm_append_singleton answer due).append_left _)
  · intro entry member
    rcases List.mem_append.mp member with old | new
    · exact ledger.answered entry old
    · obtain rfl := List.mem_singleton.mp new
      exact answers
  · intro entry member number accepted
    rcases List.mem_append.mp member with old | new
    · exact Nat.le_trans (ledger.taken entry old number accepted) later
    · obtain rfl := List.mem_singleton.mp new
      exact last number accepted

/-- A call that is due is made. -/
theorem make (ledger : Ledger marks (answer :: due) taken settled standing) :
    Ledger (marks ++ [.called answer]) due taken settled standing := by
  constructor
  · rw [asks_append]
    simpa using ledger.asked
  · rw [calls_append]
    simpa using ledger.called
  · intro entry member
    exact (ledger.answered entry member).append (by simp)
  · exact ledger.taken

end Ledger

end BridgeFinder.Discovery
