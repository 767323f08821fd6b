import BridgeFinder.Proofs.Net.Ipv4
import BridgeFinder.Proofs.Number.Decimal
import BridgeFinder.Proofs.Ssdp.Candidate
import BridgeFinder.Proofs.Ssdp.Stream

/-!
# The request

The request is one message: a line that asks to search, four headers, and an empty line.  The group
and the port to which it is sent and the longest delay of an answer can be read back from it, and
nothing else in the settings makes a difference to it.  It announces no candidate, so nothing is
found in it when it comes back to the one who has sent it.
-/

namespace BridgeFinder.Ssdp

/-! ## Lines -/

/-- The end of a line. -/
def endOfLine : List Char :=
  ['\r', '\n']

/-- The lines of a text, without their ends. -/
def linesOf (text : List Char) : List (List Char) :=
  match text with
  | [] => [[]]
  | '\r' :: '\n' :: rest => [] :: linesOf rest
  | c :: rest =>
      let lines := linesOf rest
      (c :: lines.headD []) :: lines.drop 1

section

variable {line first second rest : List Char} {lines : List (List Char)}

/-- A line ends where its end is. -/
theorem linesOf_append (isLine : IsLine line) (rest : List Char) :
    linesOf (line ++ (endOfLine ++ rest)) = line :: linesOf rest := by
  induction line with
  | nil => rfl
  | cons c line ih =>
      rcases isLine_cons.mp isLine with ⟨notEnd, isLine⟩
      have other : ∀ later, c = '\r' → line ++ (endOfLine ++ rest) = '\n' :: later → False :=
        fun _ same _ => notEnd (.inl same)
      rw [List.cons_append, linesOf.eq_3 _ _ other, ih isLine]
      rfl

instance : DecidablePred IsLine := fun text =>
  List.decidableBAll (fun c => c ≠ '\r' ∧ c ≠ '\n') text

theorem isLine_append : IsLine (first ++ second) ↔ IsLine first ∧ IsLine second :=
  List.forall_mem_append

/-- What consists of lines with an empty line behind them has these lines. -/
theorem linesOf_intercalate (isLines : ∀ line ∈ first :: lines, IsLine line) :
    linesOf (endOfLine.intercalate (first :: lines) ++ terminator) = first :: lines ++ [[], []] := by
  induction lines generalizing first with
  | nil =>
      rw [List.intercalate_singleton]
      exact linesOf_append (isLines first List.mem_cons_self) endOfLine
  | cons second lines ih =>
      rcases List.forall_mem_cons.mp isLines with ⟨isLine, isLines⟩
      rw [List.intercalate_cons_cons, List.append_assoc, List.append_assoc, linesOf_append isLine,
        ih isLines]
      rfl

/-! ## One message -/

/-- Where no terminator begins in either of two texts, none begins in both together. -/
theorem Clear.append (clear : Clear first (second ++ rest)) (clearToo : Clear second rest) :
    Clear (first ++ second) rest := by
  intro front back whole some
  rcases List.append_eq_append_iff.mp whole with ⟨middle, rfl, rfl⟩ | ⟨middle, rfl, rfl⟩
  · by_cases none : middle = []
    · subst none
      exact clearToo [] second rfl some
    · rw [List.append_assoc]
      exact clear front middle rfl none
  · exact clearToo middle back rfl some

/-- No terminator begins in a line. -/
theorem clear_of_isLine (isLine : IsLine line) (rest : List Char) : Clear line rest := by
  rintro front (_ | ⟨c, back⟩) rfl some ⟨later, begins⟩
  · exact some rfl
  · exact (isLine c (by simp)).1 (List.cons.inj begins).1.symm

/-- No terminator begins at the end of a line, if the next one is not empty. -/
theorem clear_endOfLine {c : Char} (other : c ≠ '\r') (rest : List Char) :
    Clear endOfLine (c :: rest) := by
  have atReturn : ¬ terminator <+: '\r' :: '\n' :: c :: rest := by
    simp [terminator, other.symm]
  have atFeed : ¬ terminator <+: '\n' :: c :: rest := by
    simp [terminator]
  exact ((clear_nil _).pass atReturn).pass atFeed

/-- No terminator begins in lines that are not empty. -/
theorem clear_intercalate (isLines : ∀ line ∈ first :: lines, IsLine line)
    (filled : ∀ line ∈ first :: lines, line ≠ []) :
    Clear (endOfLine.intercalate (first :: lines)) terminator := by
  induction lines generalizing first with
  | nil =>
      rw [List.intercalate_singleton]
      exact clear_of_isLine (isLines first List.mem_cons_self) _
  | cons second lines ih =>
      rcases List.forall_mem_cons.mp isLines with ⟨isLine, isLines⟩
      rcases List.forall_mem_cons.mp filled with ⟨-, filled⟩
      have front : second <+: endOfLine.intercalate (second :: lines) := by
        cases lines with
        | nil => rw [List.intercalate_singleton]
        | cons => rw [List.intercalate_cons_cons, List.append_assoc]; exact List.prefix_append _ _
      rcases front with ⟨later, whole⟩
      rcases List.exists_cons_of_ne_nil (filled second List.mem_cons_self) with ⟨c, others, rfl⟩
      have notReturn : c ≠ '\r' := (isLines _ List.mem_cons_self c List.mem_cons_self).1
      rw [List.intercalate_cons_cons, List.append_assoc]
      apply Clear.append (clear_of_isLine isLine _)
      apply Clear.append _ (ih isLines filled)
      rw [← whole]
      exact clear_endOfLine notReturn _

/-- Lines that are not empty, with an empty line behind them, are one message. -/
theorem isMessage_intercalate (isLines : ∀ line ∈ first :: lines, IsLine line)
    (filled : ∀ line ∈ first :: lines, line ≠ []) :
    IsMessage (endOfLine.intercalate (first :: lines) ++ terminator) := by
  have clear := clear_intercalate isLines filled
  rw [← List.append_nil terminator] at clear
  exact clear.isMessage

end

/-! ## What is requested -/

section

variable (settings : Settings.Multicast)

/-- The headers of a request, each with its name and its value. -/
def headersOf : List (String × String) :=
  [("HOST", settings.address.text ++ ":" ++ toString settings.port.toNat),
   ("MAN", "\"ssdp:discover\""),
   ("MX", toString settings.answerDelay.toNat),
   ("ST", "ssdp:all")]

/-- A header as it is written. -/
def written (header : String × String) : List Char :=
  (header.1 ++ ": ").toList ++ header.2.toList

theorem toList_request : (request settings).toList =
    endOfLine.intercalate ("M-SEARCH * HTTP/1.1".toList :: (headersOf settings).map written) ++
      terminator := by
  have start : "M-SEARCH * HTTP/1.1\r\nHOST: ".toList =
      "M-SEARCH * HTTP/1.1".toList ++ (endOfLine ++ ("HOST".toList ++ ": ".toList)) := by decide
  have middle : "\r\nMAN: \"ssdp:discover\"\r\nMX: ".toList =
      endOfLine ++ ("MAN".toList ++ (": ".toList ++ ("\"ssdp:discover\"".toList ++
        (endOfLine ++ ("MX".toList ++ ": ".toList))))) := by decide
  have last : "\r\nST: ssdp:all\r\n\r\n".toList =
      endOfLine ++ ("ST".toList ++ (": ".toList ++ ("ssdp:all".toList ++ terminator))) := by
    decide
  unfold request
  simp only [headersOf, written, List.map_cons, List.map_nil, String.toList_append,
    List.intercalate_cons_cons, List.intercalate_singleton, start, middle, last,
    List.append_assoc]

/-- No line ends at a digit. -/
theorem notEnd_of_isDigit {c : Char} (digit : c.isDigit) : c ≠ '\r' ∧ c ≠ '\n' :=
  ⟨Text.ne_of_isDigit digit (by decide), Text.ne_of_isDigit digit (by decide)⟩

theorem isLine_toString (n : Nat) : IsLine (toString n).toList := fun _ member =>
  notEnd_of_isDigit (Text.isDigit_of_mem_toString member)

theorem isLine_text (address : Net.Ipv4) : IsLine address.text.toList :=
  Net.Ipv4.forall_mem_text (fun _ => notEnd_of_isDigit) (by decide) address

/-- Every header is on a line. -/
theorem isLine_written : ∀ header ∈ headersOf settings, IsLine (written header) := by
  simp only [headersOf, List.forall_mem_cons, written, String.toList_append, isLine_append]
  refine ⟨?_, ?_, ?_, ?_, nofun⟩
  · exact ⟨by decide, ⟨isLine_text _, by decide⟩, isLine_toString _⟩
  · decide
  · exact ⟨by decide, isLine_toString _⟩
  · decide

/-- The lines of a request, without the empty one. -/
def requestLines : List (List Char) :=
  "M-SEARCH * HTTP/1.1".toList :: (headersOf settings).map written

theorem isLine_of_mem_requestLines : ∀ line ∈ requestLines settings, IsLine line := by
  rw [requestLines, List.forall_mem_cons, List.forall_mem_map]
  exact ⟨by decide, isLine_written settings⟩

theorem ne_nil_of_mem_requestLines : ∀ line ∈ requestLines settings, line ≠ [] := by
  have filled (header : String × String) : written header ≠ [] := by
    simp [written]
  rw [requestLines, List.forall_mem_cons, List.forall_mem_map]
  exact ⟨by decide, fun header _ => filled header⟩

theorem isMessage_request : IsMessage (request settings).toList := by
  rw [toList_request]
  exact isMessage_intercalate (isLine_of_mem_requestLines settings)
    (ne_nil_of_mem_requestLines settings)

theorem linesOf_request :
    linesOf (request settings).toList = requestLines settings ++ [[], []] := by
  rw [toList_request]
  exact linesOf_intercalate (isLine_of_mem_requestLines settings)

end

/-! ## Reading a request back -/

/-- The value of the first header of the given name. -/
def header? (name : String) (text : List Char) : Option (List Char) :=
  (linesOf text).findSome? fun line => (name ++ ": ").toList.isPrefixOf? line

/-- What a request asks for: the group and the port that answer, and the longest delay of an
answer. -/
def asked? (text : List Char) : Option (Net.Ipv4 × Nat × Nat) := do
  let host ← header? "HOST" text
  let (group, port) ← Text.splitAtFirst? [':'] host
  let address ← Net.Ipv4.parse? (String.ofList group)
  let port ← Text.natural? port
  let delay ← (header? "MX" text).bind Text.natural?
  pure (address, port, delay)

section

variable (settings : Settings.Multicast)

/-- A header is found by its name. -/
theorem isPrefixOf?_written (name value : String) :
    (name ++ ": ").toList.isPrefixOf? (written (name, value)) = some value.toList :=
  List.isPrefixOf?_eq_some_iff_append_eq.mpr rfl

theorem header?_host : header? "HOST" (request settings).toList =
    some (settings.address.text ++ ":" ++ toString settings.port.toNat).toList := by
  have start : ("HOST" ++ ": ").toList.isPrefixOf? "M-SEARCH * HTTP/1.1".toList = none := by decide
  rw [header?, linesOf_request, requestLines, headersOf, List.cons_append, List.findSome?_cons,
    start, List.map_cons, List.cons_append, List.findSome?_cons, isPrefixOf?_written]

theorem header?_delay : header? "MX" (request settings).toList =
    some (toString settings.answerDelay.toNat).toList := by
  have start : ("MX" ++ ": ").toList.isPrefixOf? "M-SEARCH * HTTP/1.1".toList = none := by decide
  have host (value : String) :
      ("MX" ++ ": ").toList.isPrefixOf? (written ("HOST", value)) = none := by
    simp [written, List.isPrefixOf?]
  have man (value : String) :
      ("MX" ++ ": ").toList.isPrefixOf? (written ("MAN", value)) = none := by
    simp [written, List.isPrefixOf?]
  rw [header?, linesOf_request, requestLines, headersOf]
  simp only [List.map_cons, List.cons_append, List.findSome?_cons, start, host, man,
    isPrefixOf?_written]

/-- A text is cut at the first colon. -/
theorem splitAtFirst?_colon {front : List Char} (apart : ':' ∉ front) (rest : List Char) :
    Text.splitAtFirst? [':'] (front ++ ':' :: rest) = some (front, rest) := by
  induction front with
  | nil => rfl
  | cons c front ih =>
      rcases List.ne_and_not_mem_of_not_mem_cons apart with ⟨other, later⟩
      have passes : [':'].isPrefixOf? (c :: (front ++ ':' :: rest)) = none := by
        simp [List.isPrefixOf?, other]
      rw [List.cons_append, Text.splitAtFirst?]
      simp only [passes, ih later, Option.map_some]

theorem asked?_request : asked? (request settings).toList =
    some (settings.address, settings.port.toNat, settings.answerDelay.toNat) := by
  have apart : ':' ∉ settings.address.text.toList := by
    have each : ∀ c ∈ settings.address.text.toList, c ≠ ':' :=
      Net.Ipv4.forall_mem_text (fun _ digit => Text.ne_of_isDigit digit (by decide)) (by decide)
        settings.address
    exact fun member => each _ member rfl
  have host : (settings.address.text ++ ":" ++ toString settings.port.toNat).toList =
      settings.address.text.toList ++ ':' :: (toString settings.port.toNat).toList := by
    simp
  rw [asked?, header?_host, header?_delay, host]
  simp only [Option.bind_eq_bind, Option.bind_some, splitAtFirst?_colon apart,
    String.ofList_toList, Net.Ipv4.parse?_text, Text.natural?_toString, Option.pure_def]

/-- A request tells the group, the port and the delay, and nothing else of the settings. -/
theorem request_eq_iff {other : Settings.Multicast} : request settings = request other ↔
    settings.address = other.address ∧ settings.port = other.port ∧
      settings.answerDelay = other.answerDelay := by
  constructor
  · intro same
    have asked := asked?_request settings
    rw [same, asked?_request, Option.some.injEq, Prod.mk.injEq, Prod.mk.injEq] at asked
    rcases asked with ⟨addresses, ports, delays⟩
    exact ⟨addresses.symm, (UInt16.toNat_inj.mp ports).symm, (UInt32.toNat_inj.mp delays).symm⟩
  · rcases settings with ⟨address, port, _, _, _, delay⟩
    rcases other with ⟨address', port', _, _, _, delay'⟩
    rintro ⟨rfl, rfl, rfl⟩
    rfl

/-! ## Nothing is found in a request -/

/-- What is found nowhere in the first part of a text is looked for in the rest. -/
theorem firstSuffix?_append {α : Type} {look : List Char → Option α} {front : List Char}
    (nowhere : ∀ c ∈ front, ∀ later, look (c :: later) = none) (rest : List Char) :
    firstSuffix? look (front ++ rest) = firstSuffix? look rest := by
  induction front with
  | nil => rfl
  | cons c front ih =>
      rcases List.forall_mem_cons.mp nowhere with ⟨here, nowhere⟩
      rw [List.cons_append, firstSuffix?_cons, here, Option.none_or, ih nowhere]

/-- A location begins with the letter `l`. -/
theorem located?_eq_none (identity? : List Char → Option String) {c : Char}
    (other : Text.foldCase c ≠ 'l') (later : List Char) : located? identity? (c :: later) = none := by
  have none : Text.dropFolded? "location:".toList (c :: later) = none := if_neg other
  rw [located?, location?, none]
  rfl

/-- Digits are not `l`, up to case. -/
theorem foldCase_ne_of_isDigit {c : Char} (digit : c.isDigit) : Text.foldCase c ≠ 'l' := by
  have caseless : Text.IsCaseless Char.isDigit := by decide
  have noCapital : c.toNat ∉ Text.capitals := by
    intro capital
    have none := caseless c.toNat capital
    rw [Char.ofNat_toNat, digit] at none
    cases none
  rw [Text.foldCase_eq_self noCapital]
  exact Text.ne_of_isDigit digit (by decide)

/-- No location begins in a request: the letter `l` stands in it only twice, before the end of the
last line. -/
theorem firstSuffix?_located?_request (identity? : List Char → Option String) :
    firstSuffix? (located? identity?) (request settings).toList = none := by
  have last : "\r\nST: ssdp:all\r\n\r\n".toList =
      "\r\nST: ssdp:a".toList ++ "ll\r\n\r\n".toList := by decide
  have words {text : List Char} (all : text.all (Text.foldCase · != 'l')) :
      ∀ c ∈ text, Text.foldCase c ≠ 'l' := by
    simpa using all
  have number (n : Nat) : ∀ c ∈ (toString n).toList, Text.foldCase c ≠ 'l' := fun _ member =>
    foldCase_ne_of_isDigit (Text.isDigit_of_mem_toString member)
  have group := Net.Ipv4.forall_mem_text (fun _ => foldCase_ne_of_isDigit) (by decide)
    settings.address
  unfold request
  simp only [String.toList_append, last]
  rw [← List.append_assoc, firstSuffix?_append]
  · rfl
  · refine fun c member => located?_eq_none identity? ?_
    revert c
    simp only [List.forall_mem_append]
    exact ⟨⟨⟨⟨⟨⟨words (by decide), group⟩, words (by decide)⟩, number _⟩, words (by decide)⟩,
      number _⟩, words (by decide)⟩

theorem candidate?_request : candidate? (request settings).toList = none := by
  rw [candidate?, firstSuffix?_located?_request, firstSuffix?_located?_request]

end

/-- A message that announces nothing makes no difference to the candidates of what follows it. -/
theorem candidatesOf_eq_of_silent {message : List Char} (isMessage : IsMessage message)
    (silent : candidate? message = none) {pieces later : List (List Char)}
    (whole : pieces.flatten = message ++ later.flatten) :
    candidatesOf pieces = candidatesOf later := by
  have alone : Divides message [message] [] := by
    constructor
    · simp
    · simpa using isMessage
    · simp [terminator]
  have divides := divides_cut [] later.flatten (clear_nil _)
  have found := (received_nil.feedAll pieces).finish (whole ▸ alone.append divides)
  have foundLater := (received_nil.feedAll later).finish divides
  rw [candidatesOf, candidatesOf, found, foundLater, List.singleton_append, readings, readings]
  split <;> simp [silent]

/-! ## The account -/

/-- The account of the request that the settings call for. -/
structure Requests (settings : Settings.Multicast) : Prop where
  /-- It is one message: the terminator is at its end, and nowhere else. -/
  message : IsMessage (request settings).toList
  /-- It has a line that asks to search, four headers, and an empty line. -/
  lines : linesOf (request settings).toList =
    "M-SEARCH * HTTP/1.1".toList :: (headersOf settings).map written ++ [[], []]
  /-- The group, the port and the delay can be read back from it. -/
  asked : asked? (request settings).toList =
    some (settings.address, settings.port.toNat, settings.answerDelay.toNat)
  /-- Settings with the same group, port and delay call for the same request, and no others do. -/
  same : ∀ other, request settings = request other ↔ settings.address = other.address ∧
    settings.port = other.port ∧ settings.answerDelay = other.answerDelay
  /-- When it comes back before a text, however the two are cut into pieces, the candidates are those
  of the text. -/
  unheard : ∀ pieces later, pieces.flatten = (request settings).toList ++ later.flatten →
    candidatesOf pieces = candidatesOf later

/-- Every request comes to its account. -/
theorem request_account (settings : Settings.Multicast) : Requests settings where
  message := isMessage_request settings
  lines := linesOf_request settings
  asked := asked?_request settings
  same _ := request_eq_iff settings
  unheard _ _ := candidatesOf_eq_of_silent (isMessage_request settings) (candidate?_request settings)

end BridgeFinder.Ssdp
