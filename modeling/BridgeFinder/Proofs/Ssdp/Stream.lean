import BridgeFinder.Ssdp
import Mathlib.Data.List.Infix

/-!
# Responses in pieces

A text is a row of messages and a rest: each message ends where a terminator ends for the first
time since the message began, and the rest has no terminator in it.  There is one such division of
every text.  A stream keeps the rest of what it has received and the candidates of the messages
before it, so it does not matter how the text was cut into pieces.
-/

namespace BridgeFinder.Ssdp

/-- What ends a message: the end of a line, and an empty line. -/
def terminator : List Char :=
  ['\r', '\n', '\r', '\n']

/-- A message: it ends with a terminator, and no terminator ends in it before that. -/
structure IsMessage (message : List Char) : Prop where
  ends : terminator <:+ message
  once : ¬ terminator <:+: message.dropLast

/-- A text is divided into messages and a rest in which no message ends. -/
structure Divides (text : List Char) (messages : List (List Char)) (rest : List Char) : Prop where
  whole : messages.flatten ++ rest = text
  messages : ∀ message ∈ messages, IsMessage message
  rest : ¬ terminator <:+: rest

/-- The texts that are read as messages when nothing more arrives: a rest is one of them unless
it is blank. -/
def readings (messages : List (List Char)) (rest : List Char) : List (List Char) :=
  if Text.isAllBlank rest then messages else messages ++ [rest]

variable {text first second rest : List Char} {messages : List (List Char)}

/-! ## The division of a text -/

/-- Of two messages with which a text begins, neither goes on behind the other. -/
theorem IsMessage.eq_of_prefix (one : IsMessage first) (other : IsMessage second)
    (before : first <+: second) : first = second := by
  rcases List.eq_nil_or_concat second with rfl | ⟨body, last, rfl⟩
  · exact List.prefix_nil.mp before
  · rw [List.concat_eq_append] at *
    rw [List.prefix_concat_iff] at before
    apply before.resolve_right
    intro within
    apply other.once
    rw [List.dropLast_concat]
    exact one.ends.isInfix.trans within.isInfix

/-- There is no more than one division of a text. -/
theorem Divides.unique (divides : Divides text messages rest) {messages' : List (List Char)}
    {rest' : List Char} (divides' : Divides text messages' rest') :
    messages' = messages ∧ rest' = rest := by
  induction messages generalizing text messages' with
  | nil =>
      cases messages' with
      | nil => exact ⟨rfl, divides'.whole.trans divides.whole.symm⟩
      | cons message later =>
          have within : message <:+: rest := by
            rw [show rest = text from divides.whole, ← divides'.whole, List.flatten_cons,
              List.append_assoc]
            exact (List.prefix_append _ _).isInfix
          have ends := (divides'.messages message List.mem_cons_self).ends
          exact absurd (ends.isInfix.trans within) divides.rest
  | cons message later ih =>
      cases messages' with
      | nil =>
          have within : message <:+: rest' := by
            rw [show rest' = text from divides'.whole, ← divides.whole, List.flatten_cons,
              List.append_assoc]
            exact (List.prefix_append _ _).isInfix
          have ends := (divides.messages message List.mem_cons_self).ends
          exact absurd (ends.isInfix.trans within) divides'.rest
      | cons message' later' =>
          have isMessage := divides.messages message List.mem_cons_self
          have isMessage' := divides'.messages message' List.mem_cons_self
          have same : message' = message := by
            have both := divides'.whole.trans divides.whole.symm
            simp only [List.flatten_cons, List.append_assoc] at both
            rcases List.prefix_or_prefix_of_prefix ⟨_, both⟩ (List.prefix_append message _) with
              before | before
            · exact isMessage'.eq_of_prefix isMessage before
            · exact (isMessage.eq_of_prefix isMessage' before).symm
          subst same
          have behind : Divides (later.flatten ++ rest) later rest :=
            ⟨rfl, fun other member => divides.messages other (List.mem_cons_of_mem _ member),
              divides.rest⟩
          have behind' : Divides (later.flatten ++ rest) later' rest' := by
            refine ⟨?_, fun other member => divides'.messages other (List.mem_cons_of_mem _ member),
              divides'.rest⟩
            have both := divides'.whole.trans divides.whole.symm
            simpa only [List.flatten_cons, List.append_assoc, List.append_cancel_left_eq] using both
          rcases ih behind behind' with ⟨rfl, rfl⟩
          exact ⟨rfl, rfl⟩

/-- What follows the rest of a text belongs to it. -/
theorem Divides.append (divides : Divides first messages rest) {more : List (List Char)}
    {last : List Char} (divides' : Divides (rest ++ second) more last) :
    Divides (first ++ second) (messages ++ more) last where
  whole := by
    rw [List.flatten_append, List.append_assoc, divides'.whole, ← List.append_assoc, divides.whole]
  messages := by
    intro message member
    rcases List.mem_append.mp member with before | after
    · exact divides.messages message before
    · exact divides'.messages message after
  rest := divides'.rest

/-! ## Cutting a text -/

/-- No terminator begins in the first text when the second one follows it. -/
def Clear (first second : List Char) : Prop :=
  ∀ front back, front ++ back = first → back ≠ [] → ¬ terminator <+: back ++ second

theorem clear_nil (second : List Char) : Clear [] second := by
  intro front back whole some
  exact absurd (List.append_eq_nil_iff.mp whole).2 some

/-- Where no terminator begins at the next character either, it may be passed. -/
theorem Clear.pass {c : Char} (clear : Clear first (c :: rest))
    (here : ¬ terminator <+: c :: rest) : Clear (first ++ [c]) rest := by
  intro front back whole some
  rcases List.eq_nil_or_concat back with rfl | ⟨before, last, rfl⟩
  · exact absurd rfl some
  · rw [List.concat_eq_append] at *
    rw [← List.append_assoc] at whole
    rcases List.append_inj' whole rfl with ⟨shorter, same⟩
    obtain rfl : last = c := List.singleton_inj.mp same
    rw [List.append_assoc, List.singleton_append]
    by_cases none : before = []
    · rwa [none]
    · exact clear front before shorter none

/-- A terminator that does not begin in the first text and not in the second is in neither. -/
theorem Clear.not_isInfix (clear : Clear first []) : ¬ terminator <:+: first := by
  rintro ⟨front, behind, whole⟩
  apply clear front (terminator ++ behind)
  · rw [← List.append_assoc, whole]
  · simp [terminator]
  · exact ⟨behind, (List.append_nil _).symm⟩

/-- A message goes up to the first terminator. -/
theorem Clear.isMessage (clear : Clear first (terminator ++ rest)) :
    IsMessage (first ++ terminator) where
  ends := List.suffix_append _ _
  once := by
    rintro ⟨front, behind, whole⟩
    have begins : front.length < first.length := by
      have length := congrArg List.length whole
      simp [terminator] at length
      omega
    have starts : front <+: first ++ terminator := by
      refine List.IsPrefix.trans ?_ (List.dropLast_prefix _)
      exact ⟨terminator ++ behind, by rw [← whole, List.append_assoc]⟩
    have cut : front <+: first :=
      List.prefix_of_prefix_length_le starts (List.prefix_append _ _) (Nat.le_of_lt begins)
    rcases cut with ⟨back, rfl⟩
    apply clear front back rfl
    · rintro rfl
      simp at begins
    · have full : (front ++ back ++ terminator).dropLast <+: front ++ back ++ terminator :=
        List.dropLast_prefix _
      rw [← whole, List.append_assoc, List.append_assoc, List.prefix_append_right_inj] at full
      rw [← List.append_assoc]
      exact ((List.prefix_append _ _).trans full).trans (List.prefix_append _ _)

/-- Cutting divides a text, where no message ends in what has been read of it. -/
theorem divides_cut (current text : List Char) (clear : Clear current.reverse text) :
    Divides (current.reverse ++ text) (cut current text).1 (cut current text).2 := by
  fun_induction cut current text with
  | case1 current =>
      exact ⟨by simp, nofun, clear.not_isInfix⟩
  | case2 current rest messages remainder later ih =>
      rw [later] at ih
      have behind := ih (clear_nil rest)
      have isMessage : IsMessage (current.reverse ++ terminator) := clear.isMessage
      refine ⟨?_, ?_, behind.rest⟩
      · have whole := behind.whole
        simp only [List.reverse_nil, List.nil_append] at whole
        simp [whole]
      · intro message member
        rcases List.mem_cons.mp member with rfl | member
        · exact isMessage
        · exact behind.messages message member
  | case3 current c rest other ih =>
      have here : ¬ terminator <+: c :: rest := by
        rintro ⟨behind, whole⟩
        exact other behind (List.cons.inj whole.symm).1 (List.cons.inj whole.symm).2
      have next := ih (by simpa using clear.pass here)
      simpa using next

/-- Terminators do not overlap. -/
example : cut [] (terminator ++ ['\r', '\n']) = ([terminator], ['\r', '\n']) := by
  decide

/-! ## Receiving -/

/-- What a stream has received: it keeps the rest, and the candidates of the messages. -/
def Stream.Received (stream : Stream) (text : List Char) : Prop :=
  ∃ messages, Divides text messages stream.buffer ∧
    stream.candidates = messages.filterMap candidate?

theorem received_nil : Stream.Received {} [] :=
  ⟨[], ⟨rfl, nofun, by simp [terminator]⟩, rfl⟩

/-- A piece of text is received behind the text before it. -/
theorem Stream.Received.feed {stream : Stream} (received : stream.Received first)
    (piece : List Char) : (stream.feed piece).Received (first ++ piece) := by
  rcases received with ⟨messages, divides, candidates⟩
  have cuts := divides_cut [] (stream.buffer ++ piece) (clear_nil _)
  apply Exists.intro (messages ++ (cut [] (stream.buffer ++ piece)).1)
  constructor
  · exact divides.append cuts
  · simp [Stream.feed, candidates]

/-- However it is cut into pieces, the whole text is received. -/
theorem Stream.Received.feedAll {stream : Stream} (received : stream.Received first)
    (pieces : List (List Char)) :
    (pieces.foldl Stream.feed stream).Received (first ++ pieces.flatten) := by
  induction pieces generalizing stream first with
  | nil => simpa using received
  | cons piece rest ih =>
      rw [List.foldl_cons, List.flatten_cons, ← List.append_assoc]
      exact ih (received.feed piece)

/-- When nothing more arrives, the candidates are those of the messages and the rest. -/
theorem Stream.Received.finish {stream : Stream} (received : stream.Received text)
    (divides : Divides text messages rest) :
    stream.finish = (readings messages rest).filterMap candidate? := by
  rcases received with ⟨messages', divides', candidates⟩
  rcases divides.unique divides' with ⟨rfl, rfl⟩
  unfold Stream.finish readings
  split
  · exact candidates
  · cases found : candidate? stream.buffer <;> simp [candidates, found]

/-- The account of a text that arrives in pieces. -/
structure Receives (text : List Char) (messages : List (List Char)) (rest : List Char)
    (pieces : List (List Char)) : Prop where
  /-- The candidates are those of the messages, each read by itself, and of the rest unless it is
  blank. -/
  candidates : candidatesOf pieces = (readings messages rest).filterMap candidate?
  /-- They are the same as if the text had arrived in one piece. -/
  together : candidatesOf pieces = candidatesOf [text]
  /-- After each piece, no terminator is left in what is kept, and the candidates are those of the
  messages that have arrived. -/
  meanwhile : ∀ early later, early ++ later = pieces →
    ∃ arrived, Divides early.flatten arrived (early.foldl Stream.feed {}).buffer ∧
      (early.foldl Stream.feed {}).candidates = arrived.filterMap candidate? ∧
      arrived <+: messages

/-- Every text is divided into messages and a rest in one way, and however it is cut into pieces,
it comes to its account. -/
theorem pieces_account (text : List Char) :
    ∃ messages rest, (∀ messages' rest', Divides text messages' rest' ↔
        messages' = messages ∧ rest' = rest) ∧
      ∀ pieces, pieces.flatten = text → Receives text messages rest pieces := by
  have divides : Divides text (cut [] text).1 (cut [] text).2 := divides_cut [] text (clear_nil _)
  refine ⟨(cut [] text).1, (cut [] text).2, ?_, ?_⟩
  · intro messages' rest'
    constructor
    · exact divides.unique
    · rintro ⟨rfl, rfl⟩
      exact divides
  · rintro pieces rfl
    have all := (received_nil.feedAll pieces).finish divides
    have once := (received_nil.feedAll [pieces.flatten]).finish (by simpa using divides)
    constructor
    · exact all
    · exact all.trans once.symm
    · rintro early later rfl
      rcases received_nil.feedAll early with ⟨arrived, before, candidates⟩
      have after := before.append (divides_cut [] (_ ++ later.flatten) (clear_nil _))
      rw [List.flatten_append] at divides
      rcases divides.unique after with ⟨whole, -⟩
      refine ⟨arrived, before, candidates, ?_⟩
      rw [List.flatten_append, ← whole]
      exact List.prefix_append _ _

end BridgeFinder.Ssdp
