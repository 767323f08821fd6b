import BridgeFinder.Proofs.Options
import BridgeFinder.Proofs.Runner.Queue
import BridgeFinder.Search

/-!
# Histories of a registry

A registry is changed by registering makers and by forgetting them.  For each kind it knows what was
done last, and nothing else of its history.  The makers that it calls are those of the selected
kinds for which a maker was registered last.
-/

namespace BridgeFinder.Registry

/-! ## Operations -/

/-- What is done to change a registry. -/
inductive Operation where
  | register (kind : Kind) (maker : Maker)
  | unregister (kind : Kind)

namespace Operation

/-- The kind that is concerned. -/
def kind : Operation → Kind
  | register kind _ => kind
  | unregister kind => kind

/-- The maker that there is for the kind afterwards. -/
def maker? : Operation → Option Maker
  | register _ maker => some maker
  | unregister _ => none

end Operation

/-- The registry after an operation. -/
def apply (registry : Registry) : Operation → Registry
  | .register kind maker => registry.register kind maker
  | .unregister kind => (registry.unregister kind).1

/-- What an operation reports: forgetting says whether there was a maker. -/
def report? (registry : Registry) : Operation → Option Bool
  | .register _ _ => none
  | .unregister kind => some (registry.unregister kind).2

/-- The registry after all operations of a history. -/
def after (registry : Registry) (history : List Operation) : Registry :=
  history.foldl apply registry

/-- An operation is the last of a history that concerns its kind. -/
def IsLast (history : List Operation) (operation : Operation) : Prop :=
  ∃ earlier later, history = earlier ++ operation :: later ∧
    ∀ other ∈ later, other.kind ≠ operation.kind

variable {registry : Registry} {operation one other : Operation} {history : List Operation}
  {kind : Kind} {maker : Maker} {options : Options} {session : Session}

theorem ext_maker? {first second : Registry}
    (same : ∀ kind, first.maker? kind = second.maker? kind) : first = second :=
  congrArg Registry.mk (funext same)

theorem maker?_apply : (registry.apply operation).maker? kind =
    if kind = operation.kind then operation.maker? else registry.maker? kind := by
  cases operation <;> rfl

/-- Operations on different kinds do not affect one another. -/
theorem apply_comm (different : one.kind ≠ other.kind) :
    (registry.apply one).apply other = (registry.apply other).apply one := by
  apply ext_maker?
  intro kind
  simp only [maker?_apply]
  by_cases here : kind = one.kind
  · rw [if_neg (here ▸ different), if_pos here, if_pos here]
  · simp only [if_neg here]

theorem report?_apply (different : one.kind ≠ other.kind) :
    (registry.apply one).report? other = registry.report? other := by
  cases other with
  | register kind maker => rfl
  | unregister kind =>
      have kept : (registry.apply one).maker? kind = registry.maker? kind :=
        maker?_apply.trans (if_neg different.symm)
      simp only [report?, unregister, take, kept]

theorem contains_iff :
    registry.contains kind = true ↔ ∃ maker, registry.maker? kind = some maker := by
  rw [contains, Option.isSome_iff_exists]

/-! ## Histories -/

theorem after_concat : registry.after (history ++ [operation]) =
    (registry.after history).apply operation := by
  simp [after]

theorem not_isLast_nil : ¬ IsLast [] operation := by
  rintro ⟨earlier, later, split, -⟩
  simp at split

theorem isLast_concat : IsLast (history ++ [other]) operation ↔
    other = operation ∨ other.kind ≠ operation.kind ∧ IsLast history operation := by
  constructor
  · rintro ⟨earlier, later, split, unlike⟩
    rcases List.eq_nil_or_concat' later with rfl | ⟨middle, last, rfl⟩
    · exact .inl (List.head_eq_of_cons_eq (List.append_inj_right' split rfl))
    · rw [← List.cons_append, ← List.append_assoc] at split
      obtain rfl := List.append_inj_left' split rfl
      obtain rfl := List.head_eq_of_cons_eq (List.append_inj_right' split rfl)
      rcases List.forall_mem_append.mp unlike with ⟨between, last⟩
      exact .inr ⟨last other List.mem_cons_self, earlier, middle, rfl, between⟩
  · rintro (rfl | ⟨unlike, earlier, later, rfl, rest⟩)
    · exact ⟨history, [], rfl, nofun⟩
    · refine ⟨earlier, later ++ [other], by simp, ?_⟩
      exact List.forall_mem_append.mpr ⟨rest, List.forall_mem_singleton.mpr unlike⟩

/-- A registry has the maker of a kind that was registered last, unless it was forgotten since. -/
theorem maker?_after : (empty.after history).maker? kind = some maker ↔
    IsLast history (.register kind maker) := by
  -- From the end of the history, where the operation is that overrides the others on its kind.
  induction history using List.reverseRecOn with
  | nil => exact iff_of_false nofun not_isLast_nil
  | append_singleton history last ih =>
      rw [after_concat, maker?_apply, isLast_concat, ← ih]
      by_cases here : kind = last.kind
      · subst here
        cases last <;> simp [Operation.kind, Operation.maker?]
      · have unlike : last ≠ .register kind maker := by
          rintro rfl
          exact here rfl
        have elsewhere : last.kind ≠ (Operation.register kind maker).kind := Ne.symm here
        simp [here, unlike, elsewhere]

/-! ## Calls -/

/-- The makers to be called, with the kinds for which they are. -/
def calls (options : Options) (registry : Registry) : List (Kind × Maker) :=
  options.kinds.filterMap fun kind => (registry.maker? kind).map fun make => (kind, make)

theorem mem_calls : (kind, maker) ∈ registry.calls options ↔
    options.Has kind.bit ∧ registry.maker? kind = some maker := by
  have listed : kind ∈ Kind.processingOrder := by cases kind <;> decide
  simp [calls, Options.kinds, listed, Options.contains_option_iff]

theorem calls_sublist : ((registry.calls options).map Prod.fst).Sublist Kind.processingOrder := by
  have known : (registry.calls options).map Prod.fst =
      options.kinds.filter fun kind => (registry.maker? kind).isSome := by
    rw [calls, List.map_filterMap, ← List.filterMap_eq_filter]
    congr 1
    funext kind
    cases registered : registry.maker? kind <;> simp [Option.guard, registered]
  rw [known]
  exact List.filter_sublist.trans List.filter_sublist

/-- Make the methods that the options select, where it may have an effect to call a maker. -/
def resolveWith {μ : Type → Type} [Monad μ] (call : Kind → Maker → μ (Option Method))
    (options : Options) (registry : Registry) : μ (List Method) :=
  options.kinds.filterMapM fun kind =>
    match registry.maker? kind with
    | some make => call kind make
    | none => return none

/-- Whatever the effects are, they are those of the calls, one after another. -/
theorem resolveWith_eq {μ : Type → Type} [Monad μ] [LawfulMonad μ]
    (call : Kind → Maker → μ (Option Method)) (options : Options) (registry : Registry) :
    registry.resolveWith call options =
      (registry.calls options).filterMapM fun entry => call entry.1 entry.2 := by
  rw [resolveWith, calls]
  induction options.kinds with
  | nil => rfl
  | cons kind rest ih =>
      cases registered : registry.maker? kind with
      | none => simpa [registered] using ih
      | some make => simp [registered, ih]

/-- The methods are those that the calls yield. -/
theorem resolve_eq_filterMap : registry.resolve options session =
    (registry.calls options).filterMap fun entry => entry.2 session := by
  rw [resolve, calls, List.filterMap_filterMap]
  congr 1
  funext kind
  cases registry.maker? kind <;> rfl

/-- Without effects, the methods are the same. -/
theorem resolve_eq_resolveWith : registry.resolve options session =
    Id.run (registry.resolveWith (fun _ make => pure (make session)) options) := by
  rw [resolveWith_eq, resolve_eq_filterMap]
  induction registry.calls options with
  | nil => rfl
  | cons entry rest ih => cases made : entry.2 session <;> simp [made, ih]

/-- Call a maker for a session, and note the call. -/
def noted (session : Session) (kind : Kind) (make : Maker) :
    StateM (List (Kind × Maker)) (Option Method) := do
  modify (· ++ [(kind, make)])
  return make session

theorem run_noted (session : Session) (kind : Kind) (make : Maker)
    (notes : List (Kind × Maker)) :
    (noted session kind make).run notes = pure (make session, notes ++ [(kind, make)]) :=
  rfl

/-- The notes are the calls, in order. -/
theorem run_filterMapM_noted (entries notes : List (Kind × Maker)) :
    ((entries.filterMapM fun entry => noted session entry.1 entry.2).run notes).run =
      (entries.filterMap fun entry => entry.2 session, notes ++ entries) := by
  induction entries generalizing notes with
  | nil => simp
  | cons entry rest ih => cases made : entry.2 session <;> simp [run_noted, made, ih]

/-! ## The account -/

/-- What makes the standard registry of an empty one. -/
def openings {π : Type} (network : Network π) (settings : Settings) : List Operation :=
  [Kind.upnp, .nupnp, .mdns, .ipscan].map fun kind =>
    .register kind (Search.maker network settings kind)

theorem after_standard {π : Type} (network : Network π) (settings : Settings)
    (history : List Operation) : (standard network settings).after history =
      empty.after (openings network settings ++ history) := by
  rw [after, after, List.foldl_append]
  rfl

theorem after_congr {history' : List Operation} (same : ∀ kind maker,
      IsLast history' (.register kind maker) ↔ IsLast history (.register kind maker)) :
    empty.after history' = empty.after history := by
  apply ext_maker?
  intro kind
  apply Option.ext
  intro maker
  rw [maker?_after, maker?_after, same]

theorem kinds_congr {options' : Options} (same : ∀ i < 4, options'.Has i ↔ options.Has i) :
    options'.kinds = options.kinds := by
  apply List.filter_congr
  intro kind _
  rw [Bool.eq_iff_iff, Options.contains_option_iff, Options.contains_option_iff]
  exact same _ (by cases kind <;> decide)

/-- What a registry does after any history, whether it starts empty or as the standard one, which
is an empty one with four makers registered.

Operations on different kinds commute, and do not change what the other one reports.  Forgetting
reports whether there was a maker, which is to say that one was registered last.  Resolving calls
just the makers that were registered last for the kinds with their bit set, each once and in
processing order, and gives the methods that they yield.  So it depends on the lowest four bits and
on what was done last for each kind.  A runner queues the methods again, by the kinds of their
own. -/
theorem history_account {π : Type} (network : Network π) (settings : Settings) :
    (∀ history, (standard network settings).after history =
      empty.after (openings network settings ++ history)) ∧
    (∀ (registry : Registry) (one other : Operation), one.kind ≠ other.kind →
      (registry.apply one).apply other = (registry.apply other).apply one ∧
      (registry.apply one).report? other = registry.report? other) ∧
    (∀ (registry : Registry) kind, (registry.unregister kind).2 = registry.contains kind) ∧
    ∀ history : List Operation,
      let registry := empty.after history
      (∀ kind, registry.contains kind = true ↔
        ∃ maker, IsLast history (.register kind maker)) ∧
      ∀ (options : Options) (session : Session),
        let methods := registry.resolve options session
        (∃ calls : List (Kind × Maker),
          (calls.map Prod.fst).Sublist [.mdns, .ipscan, .upnp, .nupnp] ∧
          (∀ kind maker, (kind, maker) ∈ calls ↔
            options.Has kind.bit ∧ IsLast history (.register kind maker)) ∧
          ((registry.resolveWith (noted session) options).run []).run = (methods, calls) ∧
          methods = calls.filterMap fun entry => entry.2 session) ∧
        (∀ (history' : List Operation) (options' : Options),
          (∀ kind maker, IsLast history' (.register kind maker) ↔
            IsLast history (.register kind maker)) →
          (∀ i < 4, options'.Has i ↔ options.Has i) →
          (empty.after history').resolve options' session = methods) ∧
        Runner.Sorts methods (Runner.ofMethods methods).queue := by
  refine ⟨after_standard network settings, ?_, fun _ _ => rfl, ?_⟩
  · exact fun registry one other different => ⟨apply_comm different, report?_apply different⟩
  · intro history registry
    refine ⟨fun kind => by simp only [registry, contains_iff, maker?_after], ?_⟩
    intro options session methods
    refine ⟨⟨registry.calls options, calls_sublist, ?_, ?_, resolve_eq_filterMap⟩, ?_,
      Runner.sorts_queue methods⟩
    · intro kind maker
      rw [mem_calls, maker?_after]
    · rw [resolveWith_eq, run_filterMapM_noted, ← resolve_eq_filterMap]
      rfl
    · intro history' options' sameLast sameBits
      simp only [methods, registry, resolve, after_congr sameLast, kinds_congr sameBits]

end BridgeFinder.Registry
