import BridgeFinder.Proofs.Number.Decimal
import BridgeFinder.Proofs.Options
import BridgeFinder.Telemetry

/-!
# What is sent with an event

Two events are sent alike exactly if they are of one kind and agree in all that they carry, but for
the part of a duration that is less than a millisecond.  So the tools that are sent events cannot
take one for another: each name has keys of its own, and every request id, name of a method, status
and number of milliseconds is written in one way that no other shares.
-/

namespace BridgeFinder.Telemetry

/-! ## Request ids -/

/-- Leading digits stand for what is left of a number without the later ones. -/
theorem hexDigits_add (count later n : Nat) :
    hexDigits (count + later) n = hexDigits count (n / 16 ^ later) ++ hexDigits later n := by
  induction later generalizing n with
  | zero => simp [hexDigits]
  | succ later ih =>
      rw [← Nat.add_assoc, hexDigits, hexDigits, ih, Nat.div_div_eq_div_mul, ← Nat.pow_succ',
        List.append_assoc]

/-- A number is known by its digits, if there are enough of them. -/
theorem hexDigits_inj {count m n : Nat} (small : m < 16 ^ count) (smallToo : n < 16 ^ count) :
    hexDigits count m = hexDigits count n ↔ m = n := by
  refine ⟨fun same => ?_, congrArg _⟩
  induction count generalizing m n with
  | zero => rw [Nat.lt_one_iff.mp small, Nat.lt_one_iff.mp smallToo]
  | succ count ih =>
      rw [hexDigits, hexDigits] at same
      rcases List.append_inj' same rfl with ⟨front, last⟩
      have sixteenths := ih (Nat.div_lt_of_lt_mul (Nat.pow_succ' ▸ small))
        (Nat.div_lt_of_lt_mul (Nat.pow_succ' ▸ smallToo)) front
      have each : ∀ i j : Fin 16, i.val.digitChar = j.val.digitChar → i = j := by decide
      have units := each ⟨m % 16, Nat.mod_lt _ (by decide)⟩ ⟨n % 16, Nat.mod_lt _ (by decide)⟩
        (List.singleton_inj.mp last)
      rw [← Nat.div_add_mod m 16, sixteenths, Fin.mk.inj units, Nat.div_add_mod]

theorem hyphen_notMem_hexDigits (count n : Nat) : '-' ∉ hexDigits count n := by
  induction count generalizing n with
  | zero => exact List.not_mem_nil
  | succ count ih =>
      have each : ∀ i : Fin 16, '-' ≠ i.val.digitChar := by decide
      rw [hexDigits, List.mem_append, List.mem_singleton, not_or]
      exact ⟨ih _, each ⟨n % 16, Nat.mod_lt _ (by decide)⟩⟩

/-- Without its hyphens, the text of a request id has all the digits of its bits. -/
theorem filter_text_ofBits (bits : BitVec 128) :
    (RequestId.ofBits bits).text.toList.filter (· != '-') = hexDigits 32 bits.toNat := by
  have kept (count n : Nat) : (hexDigits count n).filter (· != '-') = hexDigits count n := by
    rw [List.filter_eq_self]
    intro c member
    rw [bne_iff_ne]
    rintro rfl
    exact hyphen_notMem_hexDigits count n member
  calc
    _ = hexDigits 8 (bits.toNat / 16 ^ 24) ++ (hexDigits 4 (bits.toNat / 16 ^ 20) ++
        (hexDigits 4 (bits.toNat / 16 ^ 16) ++ (hexDigits 4 (bits.toNat / 16 ^ 12) ++
          hexDigits 12 bits.toNat))) := by
      simp [RequestId.ofBits, kept, Nat.shiftRight_eq_div_pow]
    _ = hexDigits 32 bits.toNat := by
      rw [← hexDigits_add 4 12, ← hexDigits_add 4 16, ← hexDigits_add 4 20, ← hexDigits_add 8 24]

/-- Different bits make different request ids. -/
theorem RequestId.ofBits_inj {bits other : BitVec 128} :
    RequestId.ofBits bits = RequestId.ofBits other ↔ bits = other := by
  refine ⟨fun same => ?_, congrArg _⟩
  have digits := filter_text_ofBits bits
  rw [same, filter_text_ofBits] at digits
  exact (BitVec.eq_of_toNat_eq ((hexDigits_inj other.isLt bits.isLt).mp digits)).symm

example : RequestId.ofBits 0xF47AC10B58CC4372A5670E02B2C3D479 =
    ⟨"f47ac10b-58cc-4372-a567-0e02b2c3d479"⟩ := by
  decide +kernel

/-! ## Durations -/

namespace Duration

/-- The number of nanoseconds in a span of time. -/
def inNanoseconds (duration : Duration) : Nat :=
  duration.seconds * 1000000000 + duration.nanoseconds

/-- The span of time that two words give. -/
def ofWords (seconds : UInt64) (nanoseconds : UInt32) : Duration :=
  ⟨seconds.toNat, nanoseconds.toNat⟩

/-- The number of whole milliseconds in a span of time, counted in words of 128 bits. -/
def millisecondsWord (seconds : UInt64) (nanoseconds : UInt32) : BitVec 128 :=
  seconds.toBitVec.setWidth 128 * 1000 + (nanoseconds / 1000000).toBitVec.setWidth 128

/-- No span of time that two words give has more milliseconds than a word of 128 bits holds. -/
theorem toNat_millisecondsWord (seconds : UInt64) (nanoseconds : UInt32) :
    (millisecondsWord seconds nanoseconds).toNat =
      (ofWords seconds nanoseconds).inNanoseconds / 1000000 := by
  have long := seconds.toNat_lt
  have short := nanoseconds.toNat_lt
  have factor : (1000 : BitVec 128).toNat = 1000 := rfl
  have rest : (nanoseconds / 1000000).toNat = nanoseconds.toNat / 1000000 := rfl
  simp only [millisecondsWord, BitVec.toNat_add, BitVec.toNat_mul, BitVec.toNat_setWidth,
    UInt64.toNat_toBitVec, UInt32.toNat_toBitVec, factor, rest, inNanoseconds, ofWords]
  omega

/-- Longer spans of time do not have fewer milliseconds. -/
theorem milliseconds_mono {shorter longer : Duration}
    (atMost : shorter.inNanoseconds ≤ longer.inNanoseconds) :
    shorter.milliseconds ≤ longer.milliseconds :=
  Nat.div_le_div_right atMost

end Duration

/-! ## Events -/

theorem Status.word_inj {status other : Status} : status.word = other.word ↔ status = other := by
  cases status <;> cases other <;> decide

namespace Event

variable {event other : Event}

/-- The method that an event is about. -/
def method? : Event → Option Kind
  | methodStarted _ method => some method
  | bridgeDiscovered _ method _ _ => some method
  | methodFinished _ method _ _ => some method
  | _ => none

/-- The time that has passed at an event. -/
def elapsed? : Event → Option Duration
  | bridgeDiscovered _ _ elapsed _ => some elapsed
  | methodFinished _ _ elapsed _ => some elapsed
  | discoveryFinished _ elapsed _ => some elapsed
  | _ => none

/-- The status with which something has ended. -/
def status? : Event → Option Status
  | methodFinished _ _ _ status => some status
  | discoveryFinished _ _ status => some status
  | _ => none

/-- The address of the bridge that an event is about. -/
def ip? : Event → Option String
  | bridgeDiscovered _ _ _ ip => some ip
  | _ => none

/-! ### The fields -/

theorem lookup_requestId (event : Event) :
    event.message.2 "request id" = some event.request.text := by
  cases event <;> rfl

theorem lookup_method (event : Event) : event.message.2 "method" = event.method?.map Kind.name := by
  cases event <;> rfl

theorem lookup_duration (event : Event) : event.message.2 "duration" =
    (event.elapsed?.map Duration.milliseconds).map toString := by
  cases event <;> rfl

theorem lookup_status (event : Event) :
    event.message.2 "status" = event.status?.map Status.word := by
  cases event <;> rfl

theorem lookup_ip (event : Event) : event.message.2 "bridge ip" = event.ip? := by
  cases event <;> rfl

/-- The keys of the fields that are sent under a name. -/
def keysOf (name : String) : List String :=
  match name with
  | "discovery started" => ["request id"]
  | "discovery method started" => ["request id", "method"]
  | "bridge discovered" => ["request id", "method", "duration", "bridge ip"]
  | "discovery method finished" => ["request id", "method", "duration", "status"]
  | "discovery finished" => ["request id", "duration", "status"]
  | _ => []

theorem keys_eq (event : Event) : event.fields.map Prod.fst = keysOf event.name := by
  cases event <;> rfl

/-- A key stands for something exactly if it is one of those of the name. -/
theorem isSome_lookup {key : String} : (event.message.2 key).isSome ↔ key ∈ keysOf event.name := by
  rw [← keys_eq, message, List.lookup_isSome_iff]
  simp

/-! ### Events that are sent alike -/

/-- The events are of one kind and agree in all that they carry, durations up to whole
milliseconds. -/
inductive SaysSame : Event → Event → Prop where
  | discoveryStarted (request : RequestId) :
      SaysSame (.discoveryStarted request) (.discoveryStarted request)
  | methodStarted (request : RequestId) (method : Kind) :
      SaysSame (.methodStarted request method) (.methodStarted request method)
  | bridgeDiscovered (request : RequestId) (method : Kind) (ip : String)
      {elapsed another : Duration} (same : elapsed.milliseconds = another.milliseconds) :
      SaysSame (.bridgeDiscovered request method elapsed ip)
        (.bridgeDiscovered request method another ip)
  | methodFinished (request : RequestId) (method : Kind) (status : Status)
      {elapsed another : Duration} (same : elapsed.milliseconds = another.milliseconds) :
      SaysSame (.methodFinished request method elapsed status)
        (.methodFinished request method another status)
  | discoveryFinished (request : RequestId) (status : Status)
      {elapsed another : Duration} (same : elapsed.milliseconds = another.milliseconds) :
      SaysSame (.discoveryFinished request elapsed status)
        (.discoveryFinished request another status)

/-- What the fields of two events that are sent alike come from. -/
structure SharesFields (event other : Event) : Prop where
  request : event.request = other.request
  method : event.method? = other.method?
  elapsed : event.elapsed?.map Duration.milliseconds = other.elapsed?.map Duration.milliseconds
  status : event.status? = other.status?
  ip : event.ip? = other.ip?

/-- Every field is written in a way of its own. -/
theorem sharesFields_of_message_eq (same : event.message = other.message) :
    event.SharesFields other := by
  have field (key : String) : event.message.2 key = other.message.2 key :=
    congrArg (fun message => message.2 key) same
  constructor
  · have texts := field "request id"
    rw [lookup_requestId, lookup_requestId] at texts
    exact congrArg RequestId.mk (Option.some.inj texts)
  · have names := field "method"
    rw [lookup_method, lookup_method] at names
    exact Option.map_injective (fun _ _ => Kind.name_inj.mp) names
  · have numerals := field "duration"
    rw [lookup_duration, lookup_duration] at numerals
    exact Option.map_injective (fun _ _ => Text.toString_inj.mp) numerals
  · have words := field "status"
    rw [lookup_status, lookup_status] at words
    exact Option.map_injective (fun _ _ => Status.word_inj.mp) words
  · have addresses := field "bridge ip"
    rwa [lookup_ip, lookup_ip] at addresses

/-- Events of one name with the same fields say the same. -/
theorem SharesFields.saysSame (shares : event.SharesFields other) (named : event.name = other.name) :
    event.SaysSame other := by
  rcases shares with ⟨requests, methods, times, statuses, addresses⟩
  cases event with
  | discoveryStarted request =>
      cases other with
      | discoveryStarted => cases requests; exact .discoveryStarted _
      | _ => exact absurd named (by simp [name])
  | methodStarted request method =>
      cases other with
      | methodStarted => cases requests; cases methods; exact .methodStarted _ _
      | _ => exact absurd named (by simp [name])
  | bridgeDiscovered request method elapsed ip =>
      cases other with
      | bridgeDiscovered =>
          cases requests; cases methods; cases addresses
          exact .bridgeDiscovered _ _ _ (Option.some.inj times)
      | _ => exact absurd named (by simp [name])
  | methodFinished request method elapsed status =>
      cases other with
      | methodFinished =>
          cases requests; cases methods; cases statuses
          exact .methodFinished _ _ _ (Option.some.inj times)
      | _ => exact absurd named (by simp [name])
  | discoveryFinished request elapsed status =>
      cases other with
      | discoveryFinished =>
          cases requests; cases statuses
          exact .discoveryFinished _ _ (Option.some.inj times)
      | _ => exact absurd named (by simp [name])

/-- Events are sent alike exactly if they say the same. -/
theorem message_eq_iff : event.message = other.message ↔ event.SaysSame other := by
  constructor
  · intro same
    exact (sharesFields_of_message_eq same).saysSame (congrArg Prod.fst same)
  · intro saysSame
    cases saysSame with
    | discoveryStarted | methodStarted => rfl
    | bridgeDiscovered _ _ _ same | methodFinished _ _ _ same | discoveryFinished _ _ same =>
        simp only [message, fields, durationField, same, name]

/-! ### The account -/

/-- The account of what is sent with two events. -/
structure Sends (event other : Event) : Prop where
  /-- They are sent alike exactly if they say the same. -/
  alike : event.message = other.message ↔ event.SaysSame other
  /-- Their keys depend on their names alone. -/
  keys : event.name = other.name → ∀ key,
    (event.message.2 key).isSome = (other.message.2 key).isSome
  /-- Different bits make request ids that are sent differently. -/
  request : ∀ bits more, event.request = .ofBits bits → other.request = .ofBits more →
    (event.message.2 "request id" = other.message.2 "request id" ↔ bits = more)
  /-- The duration is the numeral of the whole milliseconds. -/
  duration : ∀ elapsed, event.elapsed? = some elapsed → ∃ text,
    event.message.2 "duration" = some text ∧
      Text.IsNumeral (elapsed.inNanoseconds / 1000000) text
  /-- The duration of a longer span of time is not less. -/
  ordered : ∀ elapsed longer, event.elapsed? = some elapsed → other.elapsed? = some longer →
    elapsed.inNanoseconds ≤ longer.inNanoseconds → ∃ less more text another,
      event.message.2 "duration" = some text ∧ Text.IsNumeral less text ∧
        other.message.2 "duration" = some another ∧ Text.IsNumeral more another ∧ less ≤ more

theorem exists_duration {elapsed : Duration} (passed : event.elapsed? = some elapsed) :
    ∃ text, event.message.2 "duration" = some text ∧ Text.IsNumeral elapsed.milliseconds text := by
  rw [lookup_duration, passed]
  exact ⟨_, rfl, Text.isNumeral_toString _⟩

/-- Any two events come to their account, and no duration that two words give is too long to be
counted in milliseconds. -/
theorem message_account : (∀ event other : Event, event.Sends other) ∧
    ∀ seconds nanoseconds, (Duration.millisecondsWord seconds nanoseconds).toNat =
      (Duration.ofWords seconds nanoseconds).inNanoseconds / 1000000 := by
  refine ⟨fun event other => ?_, Duration.toNat_millisecondsWord⟩
  constructor
  · exact message_eq_iff
  · intro named key
    rw [Bool.eq_iff_iff, isSome_lookup, isSome_lookup, named]
  · intro bits more isOfBits isOfMore
    rw [lookup_requestId, lookup_requestId, isOfBits, isOfMore, Option.some.injEq,
      ← RequestId.ofBits_inj]
    exact ⟨congrArg RequestId.mk, congrArg RequestId.text⟩
  · intro elapsed passed
    exact exists_duration passed
  · intro elapsed longer passed passedToo atMost
    rcases exists_duration passed with ⟨text, sent, isNumeral⟩
    rcases exists_duration passedToo with ⟨another, sentToo, isNumeralToo⟩
    exact ⟨_, _, text, another, sent, isNumeral, sentToo, isNumeralToo,
      Duration.milliseconds_mono atMost⟩

end Event

end BridgeFinder.Telemetry
