import BridgeFinder.Proofs.Ssdp.Headers

/-!
# Which candidate a message announces

A message announces a candidate exactly if it holds, in this order and with anything between them, a
location, the software with its version on one line, and a header that says who the bridge is.
There may be several ways to cut a message so; the candidate is made of the first one.  What is
looked for is found at the first place of a text where it stands; or, on the first line of a text,
at the last one.
-/

namespace BridgeFinder.Ssdp

open Text (Ends Folds)

/-! ## The first place -/

section

variable {α : Type} {look : List Char → Option α} {text : List Char} {found : α}

/-- Something is found after a part of a text, and after no shorter one. -/
structure FoundFirst (look : List Char → Option α) (text before rest : List Char) (found : α) :
    Prop where
  cut : text = before ++ rest
  here : look rest = some found
  first : ∀ other later, text = other ++ later → (look later).isSome → before.length ≤ other.length

theorem firstSuffix?_cons (look : List Char → Option α) (c : Char) (text : List Char) :
    firstSuffix? look (c :: text) = (look (c :: text)).or (firstSuffix? look text) := by
  rw [firstSuffix?]
  cases look (c :: text) <;> rfl

/-- Nothing is found exactly if it stands nowhere. -/
theorem firstSuffix?_eq_none :
    firstSuffix? look text = none ↔ ∀ before rest, text = before ++ rest → look rest = none := by
  induction text with
  | nil => simp [firstSuffix?]
  | cons c text ih =>
      rw [firstSuffix?_cons, Option.or_eq_none_iff, ih]
      constructor
      · rintro ⟨here, later⟩ before rest same
        cases before with
        | nil => exact (congrArg look same).symm.trans here
        | cons d before => exact later before rest (List.cons.inj same).2
      · intro none
        exact ⟨none [] _ rfl, fun before rest same => none (c :: before) rest (by rw [same]; rfl)⟩

theorem firstSuffix?_isSome :
    (firstSuffix? look text).isSome ↔ ∃ before rest, text = before ++ rest ∧ (look rest).isSome := by
  rw [← Option.ne_none_iff_isSome, Ne, firstSuffix?_eq_none]
  simp only [Classical.not_forall, ← Option.ne_none_iff_isSome, exists_prop, Ne]

/-- What is found stands at the first place. -/
theorem exists_foundFirst (isFound : firstSuffix? look text = some found) :
    ∃ before rest, FoundFirst look text before rest found := by
  induction text with
  | nil => exact ⟨[], [], rfl, isFound, fun _ _ _ _ => Nat.zero_le _⟩
  | cons c text ih =>
      rw [firstSuffix?_cons, Option.or_eq_some_iff] at isFound
      rcases isFound with here | ⟨here, isFound⟩
      · exact ⟨[], c :: text, rfl, here, fun _ _ _ _ => Nat.zero_le _⟩
      · rcases ih isFound with ⟨before, rest, cut, there, first⟩
        refine ⟨c :: before, rest, congrArg (c :: ·) cut, there, fun other later same isSome => ?_⟩
        cases other with
        | nil =>
            exact absurd ((congrArg look same).symm.trans here)
              (Option.isSome_iff_ne_none.mp isSome)
        | cons d other =>
            exact Nat.succ_le_succ (first other later (List.cons.inj same).2 isSome)

/-! ## The last place on a line -/

/-- Part of a line. -/
def IsLine (text : List Char) : Prop :=
  ∀ c ∈ text, c ≠ '\r' ∧ c ≠ '\n'

/-- Something is found after a part of the first line of a text, and after no longer one. -/
structure FoundLast (look : List Char → Option α) (text line rest : List Char) (found : α) :
    Prop where
  cut : text = line ++ rest
  isLine : IsLine line
  here : look rest = some found
  last : ∀ other later, text = other ++ later → IsLine other → (look later).isSome →
    other.length ≤ line.length

theorem lineSuffixes_eq (text : List Char) (later : List (List Char)) :
    lineSuffixes text later = lineSuffixes text [] ++ later := by
  induction text generalizing later with
  | nil => rfl
  | cons c text ih =>
      rw [lineSuffixes, lineSuffixes]
      split
      · rfl
      · rw [ih, ih [_], List.append_assoc, List.singleton_append]

theorem findSome?_lineSuffixes_cons (look : List Char → Option α) (c : Char) (text : List Char) :
    (lineSuffixes (c :: text) []).findSome? look =
      if c = '\r' ∨ c = '\n' then look (c :: text)
      else ((lineSuffixes text []).findSome? look).or (look (c :: text)) := by
  rw [lineSuffixes]
  split
  · simp
  · rw [lineSuffixes_eq, List.findSome?_append]
    simp

theorem isLine_cons {c : Char} {text : List Char} :
    IsLine (c :: text) ↔ ¬ (c = '\r' ∨ c = '\n') ∧ IsLine text := by
  rw [IsLine, List.forall_mem_cons, not_or]
  rfl

/-- Nothing is found on a line exactly if it stands nowhere on it. -/
theorem findSome?_lineSuffixes_eq_none :
    (lineSuffixes text []).findSome? look = none ↔
      ∀ line rest, text = line ++ rest → IsLine line → look rest = none := by
  induction text with
  | nil => simp [lineSuffixes, IsLine]
  | cons c text ih =>
      rw [findSome?_lineSuffixes_cons]
      constructor
      · intro none line rest same isLine
        cases line with
        | nil =>
            split at none
            · exact (congrArg look same).symm.trans none
            · exact (congrArg look same).symm.trans (Option.or_eq_none_iff.mp none).2
        | cons d line =>
            rcases List.cons.inj same with ⟨rfl, cut⟩
            rcases isLine_cons.mp isLine with ⟨notEnd, isLine⟩
            rw [if_neg notEnd] at none
            exact ih.mp (Option.or_eq_none_iff.mp none).1 line rest cut isLine
      · intro none
        have here := none [] _ rfl nofun
        split
        · exact here
        · next notEnd =>
          refine Option.or_eq_none_iff.mpr ⟨ih.mpr fun line rest same isLine => ?_, here⟩
          exact none (c :: line) rest (by rw [same]; rfl) (isLine_cons.mpr ⟨notEnd, isLine⟩)

theorem findSome?_lineSuffixes_isSome :
    ((lineSuffixes text []).findSome? look).isSome ↔
      ∃ line rest, text = line ++ rest ∧ IsLine line ∧ (look rest).isSome := by
  rw [← Option.ne_none_iff_isSome, Ne, findSome?_lineSuffixes_eq_none]
  simp only [Classical.not_forall, ← Option.ne_none_iff_isSome, exists_prop, Ne]

/-- What is found on a line stands at the last place. -/
theorem exists_foundLast (isFound : (lineSuffixes text []).findSome? look = some found) :
    ∃ line rest, FoundLast look text line rest found := by
  induction text with
  | nil =>
      refine ⟨[], [], rfl, nofun, by simpa [lineSuffixes] using isFound,
        fun other later same _ _ => ?_⟩
      exact Nat.le_of_eq (congrArg List.length (List.append_eq_nil_iff.mp same.symm).1)
  | cons c text ih =>
      rw [findSome?_lineSuffixes_cons] at isFound
      split at isFound
      next isEnd =>
        refine ⟨[], c :: text, rfl, nofun, isFound, fun other later same isLine _ => ?_⟩
        cases other with
        | nil => exact Nat.le_refl _
        | cons d other =>
            rcases List.cons.inj same with ⟨rfl, -⟩
            exact absurd isEnd (isLine_cons.mp isLine).1
      next notEnd =>
        rcases Option.or_eq_some_iff.mp isFound with isFound | ⟨none, here⟩
        · rcases ih isFound with ⟨line, rest, cut, isLine, there, last⟩
          refine ⟨c :: line, rest, congrArg (c :: ·) cut, isLine_cons.mpr ⟨notEnd, isLine⟩, there,
            fun other later same isLine isSome => ?_⟩
          cases other with
          | nil => exact Nat.zero_le _
          | cons d other =>
              exact Nat.succ_le_succ
                (last other later (List.cons.inj same).2 (isLine_cons.mp isLine).2 isSome)
        · refine ⟨[], c :: text, rfl, nofun, here, fun other later same isLine isSome => ?_⟩
          cases other with
          | nil => exact Nat.le_refl _
          | cons d other =>
              have nowhere := findSome?_lineSuffixes_eq_none.mp none other later
                (List.cons.inj same).2 (isLine_cons.mp isLine).2
              exact absurd nowhere (Option.isSome_iff_ne_none.mp isSome)

end

/-! ## The parts of a message -/

/-- A message cut at the headers that announce a candidate. -/
structure Parts where
  before : List Char
  location : List Char
  /-- The address in the location. -/
  ip : List Char
  gap : List Char
  server : List Char
  line : List Char
  software : List Char
  version : List Char
  between : List Char
  last : List Char
  /-- The id that the last header amounts to. -/
  uniqueId : String
  after : List Char

namespace Parts

/-- The message from the last header on. -/
def fromLast (parts : Parts) : List Char :=
  parts.last ++ parts.after

/-- The message from the name of the software on. -/
def fromSoftware (parts : Parts) : List Char :=
  parts.software ++ (parts.version ++ (parts.between ++ parts.fromLast))

/-- The message from the header of the software on. -/
def fromServer (parts : Parts) : List Char :=
  parts.server ++ (parts.line ++ parts.fromSoftware)

/-- The message from the location on. -/
def fromLocation (parts : Parts) : List Char :=
  parts.location ++ (parts.gap ++ parts.fromServer)

/-- The message that was cut. -/
def message (parts : Parts) : List Char :=
  parts.before ++ parts.fromLocation

/-- The candidate that the parts make. -/
def bridge (parts : Parts) : Bridge :=
  .hinted (String.ofList parts.ip) parts.uniqueId (String.ofList parts.version)

/-- The parts are those of a message that announces a candidate. -/
structure Announce (IsIdentity : String → List Char → Prop) (parts : Parts) : Prop where
  location : IsLocation parts.ip parts.location
  server : Folds "server:".toList parts.server
  /-- The software is on the line of its header. -/
  line : IsLine parts.line
  software : Folds "ipbridge/".toList parts.software
  version : IsVersion parts.version
  identity : IsIdentity parts.uniqueId parts.last

/-- A message is cut in one way rather than in another one: at the first location, after it at the
first header of the software, on its line at the last name, there with the longest version, and
after that at the first header of the identity. -/
structure Precedes (parts other : Parts) : Prop where
  before : parts.before.length ≤ other.before.length
  gap : parts.before.length = other.before.length → parts.gap.length ≤ other.gap.length
  line : parts.before.length = other.before.length → parts.gap.length = other.gap.length →
    other.line.length ≤ parts.line.length
  version : parts.before.length = other.before.length → parts.gap.length = other.gap.length →
    parts.line.length = other.line.length → other.version.length ≤ parts.version.length
  between : parts.before.length = other.before.length → parts.gap.length = other.gap.length →
    parts.line.length = other.line.length → parts.version.length = other.version.length →
      parts.between.length ≤ other.between.length

end Parts

/-- Read the name of the software with its version and, from what follows, who the bridge is. -/
def mention? (identity? : List Char → Option String) (place : List Char) :
    Option (String × String) := do
  let (version, rest) ← software? place
  let uniqueId ← firstSuffix? identity? rest
  pure (String.ofList version, uniqueId)

theorem server?_eq (identity? : List Char → Option String) (text : List Char) :
    server? identity? text = (Text.dropFolded? "server:".toList text).bind fun rest =>
      (lineSuffixes rest []).findSome? (mention? identity?) :=
  rfl

section

variable {identity? : List Char → Option String} {IsIdentity : String → List Char → Prop}
  {parts other : Parts} {message : List Char}

/-- The software is read with the longest version. -/
theorem software?_append {software version : List Char}
    (isSoftware : Folds "ipbridge/".toList software) (isVersion : IsVersion version)
    (rest : List Char) :
    ∃ more after, software? (software ++ (version ++ rest)) = some (version ++ more, after) ∧
      rest = more ++ after ∧ ∀ c ∈ more, isVersionChar c := by
  rcases isVersion.version? rest with ⟨more, after, read, cut, inside⟩
  refine ⟨more, after, ?_, cut, inside⟩
  rw [software?, Text.dropFolded?_eq_some.mpr ⟨software, isSoftware, rfl⟩]
  exact read

/-- What continues a version is no part of a header that comes later. -/
theorem exists_between {more after between rest : List Char}
    (inside : ∀ c ∈ more, isVersionChar c) (ends : Ends isVersionChar rest)
    (same : between ++ rest = more ++ after) : ∃ later, after = later ++ rest := by
  rcases List.append_eq_append_iff.mp same with ⟨others, rfl, rfl⟩ | ⟨later, rfl, rfl⟩
  · cases others with
    | nil => exact ⟨[], rfl⟩
    | cons c others =>
        cases (inside c (by simp)).symm.trans (ends c rfl)
  · exact ⟨later, rfl⟩

/-! ## Every announcement is read -/

namespace Parts.Announce

variable (announce : parts.Announce IsIdentity) (recognizes : Recognizes identity? IsIdentity)

include announce

theorem location?_eq :
    location? parts.fromLocation = some (parts.ip, parts.gap ++ parts.fromServer) :=
  location?_eq_some.mpr ⟨_, announce.location, rfl⟩

theorem dropServer_eq :
    Text.dropFolded? "server:".toList parts.fromServer = some (parts.line ++ parts.fromSoftware) :=
  Text.dropFolded?_eq_some.mpr ⟨_, announce.server, rfl⟩

include recognizes

theorem isSome_identity : (identity? parts.fromLast).isSome :=
  Option.isSome_of_eq_some ((recognizes.reads _ _).mpr ⟨_, _, announce.identity, rfl⟩)

theorem isSome_mention : (mention? identity? parts.fromSoftware).isSome := by
  -- the version may be read longer than it is announced, but not into the last header
  rcases software?_append announce.software announce.version (parts.between ++ parts.fromLast) with
    ⟨more, after, read, cut, inside⟩
  rcases exists_between inside (recognizes.ends _ _ _ announce.identity) cut with ⟨later, follows⟩
  have there : (firstSuffix? identity? after).isSome :=
    firstSuffix?_isSome.mpr ⟨later, _, follows, announce.isSome_identity recognizes⟩
  rcases Option.isSome_iff_exists.mp there with ⟨uniqueId, found⟩
  simp [mention?, fromSoftware, read, found]

theorem isSome_server : (server? identity? parts.fromServer).isSome := by
  rw [server?_eq, announce.dropServer_eq]
  exact findSome?_lineSuffixes_isSome.mpr
    ⟨_, _, rfl, announce.line, announce.isSome_mention recognizes⟩

theorem isSome_located : (located? identity? parts.fromLocation).isSome := by
  have there : (firstSuffix? (server? identity?) (parts.gap ++ parts.fromServer)).isSome :=
    firstSuffix?_isSome.mpr ⟨_, _, rfl, announce.isSome_server recognizes⟩
  rcases Option.isSome_iff_exists.mp there with ⟨⟨version, uniqueId⟩, found⟩
  simp [located?, announce.location?_eq, found]

end Parts.Announce

namespace Parts

/-! ## What is read is announced first -/

/-- The parts are those that are found when a message is read. -/
structure IsRead (identity? : List Char → Option String) (message : List Char) (parts : Parts) :
    Prop where
  before : FoundFirst (located? identity?) message parts.before parts.fromLocation parts.bridge
  location : location? parts.fromLocation = some (parts.ip, parts.gap ++ parts.fromServer)
  gap : FoundFirst (server? identity?) (parts.gap ++ parts.fromServer) parts.gap parts.fromServer
    (String.ofList parts.version, parts.uniqueId)
  server : Text.dropFolded? "server:".toList parts.fromServer =
    some (parts.line ++ parts.fromSoftware)
  line : FoundLast (mention? identity?) (parts.line ++ parts.fromSoftware) parts.line
    parts.fromSoftware (String.ofList parts.version, parts.uniqueId)
  software : software? parts.fromSoftware =
    some (parts.version, parts.between ++ parts.fromLast)
  between : FoundFirst identity? (parts.between ++ parts.fromLast) parts.between parts.fromLast
    parts.uniqueId

/-- What is found in a message is cut out of it. -/
theorem exists_isRead (recognizes : Recognizes identity? IsIdentity) {bridge : Bridge}
    (read : firstSuffix? (located? identity?) message = some bridge) :
    ∃ parts : Parts, parts.IsRead identity? message ∧ parts.Announce IsIdentity ∧
      bridge = parts.bridge := by
  rcases exists_foundFirst read with ⟨before, fromLocation, atLocation⟩
  have located := atLocation.here
  simp only [located?, Option.bind_eq_bind, Option.bind_eq_some_iff, Prod.exists, Option.pure_def,
    Option.some.injEq] at located
  rcases located with ⟨ip, afterLocation, isLocation, shown, uniqueId, follows, rfl⟩
  rcases location?_eq_some.mp isLocation with ⟨location, locates, rfl⟩
  rcases exists_foundFirst follows with ⟨gap, fromServer, atServer⟩
  have served := atServer.here
  rw [server?_eq, Option.bind_eq_some_iff] at served
  rcases served with ⟨afterServer, isServer, follows⟩
  rcases Text.dropFolded?_eq_some.mp isServer with ⟨server, serves, rfl⟩
  rcases exists_foundLast follows with ⟨line, fromSoftware, atSoftware⟩
  have mentioned := atSoftware.here
  simp only [mention?, Option.bind_eq_bind, Option.bind_eq_some_iff, Prod.exists, Option.pure_def,
    Option.some.injEq, Prod.mk.injEq] at mentioned
  rcases mentioned with ⟨version, afterVersion, isSoftware, _, identified, rfl, rfl⟩
  have named := isSoftware
  simp only [software?, Option.bind_eq_bind, Option.bind_eq_some_iff,
    Text.dropFolded?_eq_some] at named
  rcases named with ⟨afterName, ⟨software, isName, rfl⟩, read⟩
  rcases isVersion_of_version? read with ⟨isVersion, rfl⟩
  rcases exists_foundFirst identified with ⟨between, fromLast, atLast⟩
  rcases (recognizes.reads _ _).mp atLast.here with ⟨last, after, isIdentity, rfl⟩
  obtain rfl := atLast.cut
  obtain rfl := atSoftware.cut
  obtain rfl := atServer.cut
  exact ⟨⟨before, location, ip, gap, server, line, software, version, between, last, _, after⟩,
    ⟨atLocation, isLocation, atServer, isServer, atSoftware, isSoftware, atLast⟩,
    ⟨locates, serves, atSoftware.isLine, isName, isVersion, isIdentity⟩, rfl⟩

/-- What is read comes first of all that is announced. -/
theorem IsRead.precedes (isRead : parts.IsRead identity? message)
    (recognizes : Recognizes identity? IsIdentity) (announce : other.Announce IsIdentity)
    (same : message = other.message) : parts.Precedes other := by
  -- as long as the parts before have the same lengths, what follows them is the same text
  have before := isRead.before.first _ _ same (announce.isSome_located recognizes)
  have fromLocation (equal : parts.before.length = other.before.length) :
      parts.gap ++ parts.fromServer = other.gap ++ other.fromServer := by
    have rest := (List.append_inj (isRead.before.cut.symm.trans same) equal).2
    have read := isRead.location
    rw [rest, announce.location?_eq] at read
    exact (congrArg Prod.snd (Option.some.inj read)).symm
  have fromServer (equal : parts.before.length = other.before.length)
      (gap : parts.gap.length = other.gap.length) :
      parts.line ++ parts.fromSoftware = other.line ++ other.fromSoftware := by
    have rest := (List.append_inj (fromLocation equal) gap).2
    have read := isRead.server
    rw [rest, announce.dropServer_eq] at read
    exact (Option.some.inj read).symm
  have fromSoftware (equal : parts.before.length = other.before.length)
      (gap : parts.gap.length = other.gap.length) (line : parts.line.length = other.line.length) :
      ∃ more, parts.version = other.version ++ more ∧
        other.between ++ other.fromLast = more ++ (parts.between ++ parts.fromLast) := by
    have rest := (List.append_inj (fromServer equal gap) line).2
    have read := isRead.software
    rcases software?_append announce.software announce.version (other.between ++ other.fromLast)
      with ⟨more, after, isVersion, cut, -⟩
    rw [rest, fromSoftware, isVersion, Option.some.injEq, Prod.mk.injEq] at read
    exact ⟨more, read.1.symm, read.2 ▸ cut⟩
  refine ⟨before, fun equal => ?_, fun equal gap => ?_, fun equal gap line => ?_,
    fun equal gap line version => ?_⟩
  · exact isRead.gap.first _ _ (fromLocation equal) (announce.isSome_server recognizes)
  · exact isRead.line.last _ _ (fromServer equal gap) announce.line
      (announce.isSome_mention recognizes)
  · rcases fromSoftware equal gap line with ⟨more, longer, -⟩
    rw [longer, List.length_append]
    exact Nat.le_add_right _ _
  · rcases fromSoftware equal gap line with ⟨more, longer, cut⟩
    have none : more = [] := by
      rw [longer, List.length_append] at version
      exact List.length_eq_zero_iff.mp (by omega)
    rw [none, List.nil_append] at cut
    exact isRead.between.first _ _ cut.symm (announce.isSome_identity recognizes)

/-- The parts are the first ones at which a message can be cut. -/
structure IsFirst (IsIdentity : String → List Char → Prop) (message : List Char) (parts : Parts) :
    Prop where
  cut : message = parts.message
  announce : parts.Announce IsIdentity
  first : ∀ other : Parts, message = other.message → other.Announce IsIdentity →
    parts.Precedes other

/-- What is found in a message is made of its first parts. -/
theorem exists_isFirst (recognizes : Recognizes identity? IsIdentity) {bridge : Bridge}
    (read : firstSuffix? (located? identity?) message = some bridge) :
    ∃ parts : Parts, parts.IsFirst IsIdentity message ∧ bridge = parts.bridge := by
  rcases exists_isRead recognizes read with ⟨parts, isRead, announce, made⟩
  exact ⟨parts, ⟨isRead.before.cut, announce, fun other same announce =>
    isRead.precedes recognizes announce same⟩, made⟩

/-- Something is found in a message exactly if it can be cut. -/
theorem isSome_iff (recognizes : Recognizes identity? IsIdentity) :
    (firstSuffix? (located? identity?) message).isSome ↔
      ∃ parts : Parts, message = parts.message ∧ parts.Announce IsIdentity := by
  constructor
  · intro isSome
    rcases Option.isSome_iff_exists.mp isSome with ⟨bridge, read⟩
    rcases exists_isFirst recognizes read with ⟨parts, isFirst, -⟩
    exact ⟨parts, isFirst.cut, isFirst.announce⟩
  · rintro ⟨parts, cut, announce⟩
    exact firstSuffix?_isSome.mpr ⟨_, _, cut, announce.isSome_located recognizes⟩

end Parts

end

/-! ## The account -/

/-- The account of the candidate of a message. -/
structure Account (message : List Char) (candidate : Option Bridge) : Prop where
  /-- There is one exactly if the message can be cut in one of the two ways. -/
  announced : candidate.isSome ↔ ∃ parts : Parts, message = parts.message ∧
    (parts.Announce IsBridgeId ∨ parts.Announce IsServiceName)
  /-- It is made of the first parts; the header of the id is preferred to the service name. -/
  captured : ∀ bridge, candidate = some bridge → ∃ parts : Parts, bridge = parts.bridge ∧
    (parts.IsFirst IsBridgeId message ∨ parts.IsFirst IsServiceName message ∧
      ∀ other : Parts, message = other.message → ¬ other.Announce IsBridgeId)
  /-- Its id is whole. -/
  identified : ∀ bridge, candidate = some bridge → IsUniqueId bridge.uniqueId

/-- A candidate that was found is made of the first parts of its kind. -/
theorem exists_captured {message : List Char} {bridge : Bridge}
    (read : candidate? message = some bridge) :
    ∃ parts : Parts, bridge = parts.bridge ∧
      (parts.IsFirst IsBridgeId message ∨ parts.IsFirst IsServiceName message ∧
        ∀ other : Parts, message = other.message → ¬ other.Announce IsBridgeId) := by
  rw [candidate?] at read
  split at read
  next newer found =>
    obtain rfl := Option.some.inj read
    rcases Parts.exists_isFirst recognizes_bridgeId found with ⟨parts, isFirst, made⟩
    exact ⟨parts, made, .inl isFirst⟩
  next none =>
    rcases Parts.exists_isFirst recognizes_serviceName read with ⟨parts, isFirst, made⟩
    refine ⟨parts, made, .inr ⟨isFirst, fun other cut announce => ?_⟩⟩
    have found := (Parts.isSome_iff recognizes_bridgeId).mpr ⟨other, cut, announce⟩
    rw [none] at found
    cases found

/-- A message announces a candidate exactly if it holds the headers of one, in either of two ways;
and the candidate is captured at the first place where they are found. -/
theorem candidate?_account (message : List Char) : Account message (candidate? message) := by
  constructor
  case announced =>
    simp only [and_or_left, exists_or, ← Parts.isSome_iff recognizes_bridgeId,
      ← Parts.isSome_iff recognizes_serviceName]
    rw [candidate?]
    cases firstSuffix? (located? bridgeId?) message <;> simp
  case captured => exact fun bridge read => exists_captured read
  case identified =>
    intro bridge read
    rcases exists_captured read with ⟨parts, rfl, isFirst | ⟨isFirst, -⟩⟩
    · exact isFirst.announce.identity.isUniqueId
    · exact isFirst.announce.identity.isUniqueId

end BridgeFinder.Ssdp
