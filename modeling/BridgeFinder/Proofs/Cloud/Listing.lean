import BridgeFinder.Proofs.Cloud.Entry
import BridgeFinder.Proofs.Search.Source
import BridgeFinder.Proofs.Task.Ending

/-!
# The list that the cloud answers with

The body of an answer is read as a whole or not at all: it is an array, and each of its elements is
decoded.  The candidates are then those that the entries name, in their order.  A body that cannot
be read ends the search through the cloud: nothing is validated, and nothing is found.
-/

namespace BridgeFinder

open Json (IsArray)

/-! ## Candidates -/

namespace Cloud

/-- An element, taken by itself, is decoded as the entry. -/
def Entry.IsRead (item : List Char) (entry : Entry) : Prop :=
  Json.decode Entry.record.read (String.ofList item) = .ok entry

variable {items others : List (List Char)} {item : List Char} {body first second : String}
  {bridges more : List Bridge}

/-- An array gives the candidates of its entries, if all of its elements are decoded. -/
theorem candidates_eq_ok_iff (isArray : IsArray items body) :
    candidates body = .ok bridges ↔ ∃ entries, List.Forall₂ Entry.IsRead items entries ∧
      entries.filterMap Entry.candidate? = bridges := by
  simp only [candidates_eq_ok, Entry.Label.labelling.isReader.decode_list_iff_each isArray]
  rfl

/-- What gives candidates is an array. -/
theorem exists_isArray_of_candidates (listed : candidates body = .ok bridges) :
    ∃ items, IsArray items body := by
  rcases candidates_eq_ok.mp listed with ⟨entries, decoded, -⟩
  exact Entry.Label.labelling.isReader.exists_isArray decoded

/-- Two arrays can be put together, and what they come to then is what the first one comes to with
what the second one comes to behind it. -/
theorem candidates_append (isArray : IsArray items first) (isArrayToo : IsArray others second)
    (listed : candidates first = .ok bridges) (listedToo : candidates second = .ok more) :
    (∃ both, IsArray (items ++ others) both) ∧
      ∀ both, IsArray (items ++ others) both → candidates both = .ok (bridges ++ more) := by
  rcases (candidates_eq_ok_iff isArray).mp listed with ⟨entries, each, rfl⟩
  rcases (candidates_eq_ok_iff isArrayToo).mp listedToo with ⟨last, eachToo, rfl⟩
  constructor
  · exact Json.exists_isArray (List.forall_mem_append.mpr ⟨isArray.isValue, isArrayToo.isValue⟩)
  · exact fun both isBoth => (candidates_eq_ok_iff isBoth).mpr
      ⟨entries ++ last, List.rel_append each eachToo, List.filterMap_append⟩

/-- Where there is no list of candidates, there is an error. -/
theorem exists_error (none : ∀ bridges, candidates body ≠ .ok bridges) :
    ∃ error, candidates body = .error error := by
  cases listed : candidates body with
  | error error => exact ⟨error, rfl⟩
  | ok bridges => exact absurd listed (none bridges)

/-- One element that is not decoded spoils the list. -/
theorem exists_error_of_element (isArray : IsArray items body) (member : item ∈ items)
    (unread : ∀ entry, ¬Entry.IsRead item entry) : ∃ error, candidates body = .error error := by
  apply exists_error
  intro bridges listed
  rcases (candidates_eq_ok_iff isArray).mp listed with ⟨entries, each, -⟩
  rcases Json.exists_of_forall₂ each member with ⟨entry, isRead⟩
  exact unread entry isRead

end Cloud

/-! ## The search -/

namespace Search

open BridgeFinder.Task (Course Always NeverHangs)

variable {validation : Validation} {configured : String}

/-- A validation of nothing does nothing and finds nothing. -/
theorem always_validate_nil :
    Always (fun _ => False) (fun bridges => bridges = []) (validation.validate []) :=
  .check fun _ => .done rfl

/-- A body that cannot be read lists nothing. -/
theorem listed_of_error {response : Http.Response} {error : Json.Error}
    (failed : Cloud.candidates response.body = .error error) :
    listed (.response response) = [] := by
  rw [listed, Http.Answer.body?]
  split
  · rfl
  · rename_i body read
    split at read
    · obtain rfl := Option.some.inj read
      rw [failed]
    · cases read

theorem heed_of_unlisted {answer : Http.Answer} (speaks : answer ≠ .silence)
    (unlisted : listed answer = []) : heed validation answer = validation.validate [] := by
  cases answer with
  | silence => exact absurd rfl speaks
  | response | failure => exact congrArg validation.validate unlisted

/-- If the cloud answers, but lists nothing, its list is the only page that is requested; nothing
else can be observed, and nothing is found. -/
theorem cloud_of_unlisted (speaks : validation.web (Cloud.requestUrl configured) ≠ .silence)
    (unlisted : listed (validation.web (Cloud.requestUrl configured)) = []) {token : Bool}
    {marks : List (Task.Mark Activity)} {last : Task.Run Activity (List Bridge)}
    (course : Course ⟨token, cloud configured validation⟩ marks last) :
    Task.signals marks <+: [.request (Cloud.requestUrl configured)] ∧
      ∀ output, last.task = .done output → output = [] := by
  rcases course.orLeave_cases with
    ⟨silent, going⟩ | ⟨before, after, more, silent, rfl, left | asked⟩
  · constructor
    · simp [silent]
    · intro output ended
      simp [ended] at going
  · rcases left.done_cases with ⟨after, firing, rfl⟩
    constructor
    · simp [silent, firing.signals_eq]
    · rintro output ⟨⟩
      rfl
  · rcases asked.emit_cases with
      ⟨after, firing, rfl⟩ | ⟨before', after, more, firing, rfl, requested⟩
    · exact ⟨by simp [silent, firing.signals_eq], nofun⟩
    · rw [heed_of_unlisted speaks unlisted] at requested
      rcases always_validate_nil after more last requested with ⟨none, found⟩
      have quiet : Task.signals more = [] := List.eq_nil_iff_forall_not_mem.mpr none
      exact ⟨by simp [silent, firing.signals_eq, quiet], found⟩

/-- If the cloud answers, but lists nothing, the search does not hang. -/
theorem neverHangs_cloud (speaks : validation.web (Cloud.requestUrl configured) ≠ .silence)
    (unlisted : listed (validation.web (Cloud.requestUrl configured)) = []) :
    NeverHangs (cloud configured validation) := by
  have going : NeverHangs (.emit (.request (Cloud.requestUrl configured))
      (heed validation (validation.web (Cloud.requestUrl configured)))) := by
    rw [heed_of_unlisted speaks unlisted]
    exact .emit (.check fun _ => .done [])
  apply NeverHangs.check
  intro cancelled
  split
  · apply NeverHangs.pick
    intro way
    split
    · exact .done []
    · exact going
  · exact going

end Search

/-- The account of the list that the cloud answers with.  A body gives candidates exactly if it is
an array each of whose elements, taken by itself, is decoded; they are then those of the entries
that have an address, each with this address, its id in capitals, and no version.  The candidates of
two lists are those of the first one and then those of the second one.  If an element is not
decoded, or the body is no array, there is an error; and if that is what the cloud has answered, the
search requests nothing but the list, and comes to an end with nothing found, whether or not it is
cancelled. -/
theorem Cloud.listing_account :
    (∀ items body entries, IsArray items body → List.Forall₂ Entry.IsRead items entries →
        candidates body = .ok (entries.filterMap Entry.candidate?)) ∧
      (∀ entry bridge, Entry.candidate? entry = some bridge ↔
        ∃ ip, entry.address = some ip ∧ ip ≠ "" ∧
          bridge = ⟨Text.upper (entry.id.getD ""), ip, "", "", "", ""⟩) ∧
      (∀ items others first second bridges more, IsArray items first → IsArray others second →
        candidates first = .ok bridges → candidates second = .ok more →
          (∃ both, IsArray (items ++ others) both) ∧
            ∀ both, IsArray (items ++ others) both → candidates both = .ok (bridges ++ more)) ∧
      (∀ items item body, IsArray items body → item ∈ items →
        (∀ entry, ¬Entry.IsRead item entry) → ∃ error, candidates body = .error error) ∧
      (∀ body, (∀ items, ¬IsArray items body) → ∃ error, candidates body = .error error) ∧
      ∀ {π : Type} (network : Network π) (settings : Settings) (session : Session) response error,
        network.web (requestUrl settings.cloud.url) = .response response →
          candidates response.body = .error error → ∀ turns token,
            let search := Search.ofKind network settings session .nupnp
            let run := search.runBy turns token
            Task.signals run.1 <+: [.request (requestUrl settings.cloud.url)] ∧
              (∀ output, run.2.task = .done output → output = []) ∧
              ∃ more, .fire ∉ more ∧ (search.runBy (turns ++ more) token).2.task = .done [] := by
  refine ⟨?_, ?_, ?_, ?_, ?_, ?_⟩
  · exact fun items body entries isArray each =>
      (candidates_eq_ok_iff isArray).mpr ⟨entries, each, rfl⟩
  · exact fun entry bridge => Entry.candidate?_eq_some
  · exact fun items others first second bridges more => candidates_append
  · exact fun items item body => exists_error_of_element
  · intro body none
    apply exists_error
    intro bridges listed
    rcases exists_isArray_of_candidates listed with ⟨items, isArray⟩
    exact none items isArray
  · intro π network settings session response error answered failed turns token search run
    let validation := Search.validation network settings session .nupnp
    have same : validation.web (requestUrl settings.cloud.url) = .response response := answered
    have speaks : validation.web (requestUrl settings.cloud.url) ≠ .silence := by
      rw [same]
      nofun
    have unlisted : Search.listed (validation.web (requestUrl settings.cloud.url)) = [] := by
      rw [same]
      exact Search.listed_of_error failed
    have account (turns : List Task.Turn) :=
      Search.cloud_of_unlisted speaks unlisted (Task.course_runBy turns token search)
    have never : Task.NeverHangs search := Search.neverHangs_cloud speaks unlisted
    rcases never.exists_ended turns token with ⟨more, unfired, output, ended⟩
    obtain rfl := (account (turns ++ more)).2 output ended
    exact ⟨(account turns).1, (account turns).2, more, unfired, ended⟩

end BridgeFinder
