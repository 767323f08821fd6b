import BridgeFinder.CommandLine.Fault
import BridgeFinder.Number.Binary64
import BridgeFinder.Options
import BridgeFinder.Text.Similarity

/-!
# Arguments of the command line

Arguments are read from left to right.  A flag that takes a value may have it
attached or as the next argument; in the second case the value is looked at only
when the next flag is reached or the arguments end, so that a fault in between is
reported first.
-/

namespace BridgeFinder.CommandLine

/-- The arguments of a search. -/
structure Arguments where
  config : Option String := none
  methods : Options := .default
  timeout : Nat := 30
  json : Bool := false
deriving DecidableEq, Repr

/-- What a command line asks for. -/
inductive Request where
  | search (arguments : Arguments)
  | help
  | version
deriving DecidableEq, Repr

/-- The reason for which the reading of the arguments ends early. -/
inductive Stop where
  | fault (fault : Fault)
  | answer (request : Request)
deriving DecidableEq, Repr

/-- Read a number of 64 bits, with a plus sign perhaps. -/
def seconds (text : String) : Except String Nat :=
  let digits :=
    match text.toList with
    | '+' :: d :: rest => d :: rest
    | digits => digits
  if text.isEmpty then .error "cannot parse integer from empty string"
  else
    match Text.natural? digits with
    | none => .error "invalid digit found in string"
    | some n =>
        if n < Number.powerOfTwo 64 then .ok n
        else .error "number too large to fit in target type"

/-- Set an argument from the value of its flag. -/
def Arguments.set (flag : Flag) (value : String) (arguments : Arguments) :
    Except Fault Arguments :=
  match flag with
  | .config =>
      if value.isEmpty then .error (.missingValue flag)
      else .ok { arguments with config := some value }
  | .methods =>
      match Options.parse value with
      | .ok methods => .ok { arguments with methods }
      | .error unknown => .error (.invalidValue value flag unknown.message)
  | .timeout =>
      match seconds value with
      | .ok timeout => .ok { arguments with timeout }
      | .error reason => .error (.invalidValue value flag reason)
  | .json => .ok { arguments with json := true }
  | .help => .ok arguments
  | .version => .ok arguments

/-- A flag whose value has not been looked at, and its value if it has been
reached. -/
structure Pending where
  flag : Flag
  value : Option String := none
deriving DecidableEq, Repr

/-- How far the reading has come: the arguments, the flags that were given in this
order, and the flag that is pending. -/
structure Progress where
  arguments : Arguments := {}
  given : List Flag := []
  pending : Option Pending := none
deriving DecidableEq, Repr

namespace Progress

/-- Take a flag with its value. -/
def take (flag : Flag) (value : String) (progress : Progress) : Except Stop Progress :=
  match flag with
  | .help => .error (.answer .help)
  | .version => .error (.answer .version)
  | flag =>
      if progress.given.contains flag then .error (.fault (.repeated flag))
      else
        match progress.arguments.set flag value with
        | .ok arguments => .ok { progress with arguments, given := progress.given ++ [flag] }
        | .error fault => .error (.fault fault)

/-- Take the flag that is pending. -/
def resolve (progress : Progress) : Except Stop Progress :=
  match progress.pending with
  | none => .ok progress
  | some ⟨flag, none⟩ => .error (.fault (.missingValue flag))
  | some ⟨flag, some value⟩ => { progress with pending := none }.take flag value

/-- Take a flag after the one that is pending. -/
def accept (flag : Flag) (value : String) (progress : Progress) : Except Stop Progress := do
  let progress ← progress.resolve
  progress.take flag value

/-- Make a flag pending until its value is reached. -/
def await (flag : Flag) (progress : Progress) : Except Stop Progress := do
  let progress ← progress.resolve
  pure { progress with pending := some ⟨flag, none⟩ }

end Progress

/-- The similarity above which a flag may have been meant. -/
def threshold : Float := 0.7

/-- The flag that may have been meant by a name: the most similar one, and of
equally similar ones the last. -/
def similar? (name : String) : Option Flag :=
  (Flag.all.foldl (fun best flag =>
    let score := Text.similarity name.toList flag.name.toList
    match best with
    | some (_, top) => if score > threshold ∧ score ≥ top then some (flag, score) else best
    | none => if score > threshold then some (flag, score) else none) none).map Prod.fst

/-- Read a flag that is given by its long name, with a value perhaps. -/
def readLong (name : String) (value : Option String) (progress : Progress) :
    Except Stop Progress :=
  match Flag.ofName? name with
  | none => .error (.fault (.unexpected ("--" ++ name) (similar? name) progress.given))
  | some flag =>
      match flag.valueName?, value with
      | some _, some value => progress.accept flag value
      | some _, none => progress.await flag
      | none, some value => .error (.fault (.excessValue value flag progress.given))
      | none, none => progress.accept flag ""

/-- The value that is attached to a letter. -/
def attached? : List Char → Option String
  | [] => none
  | '=' :: value => some (String.ofList value)
  | value => some (String.ofList value)

/-- Read flags that are given by their letters. -/
def readLetters (progress : Progress) : List Char → Except Stop Progress
  | [] => .ok progress
  | letter :: rest =>
      match Flag.ofLetter? letter with
      | none => .error (.fault (.unexpected ("-" ++ letter.toString) none []))
      | some flag =>
          match flag.valueName?, attached? rest with
          | some _, some value => progress.accept flag value
          | some _, none => progress.await flag
          | none, _ => do
              let progress ← progress.accept flag ""
              readLetters progress rest

/-- Read an argument that is no flag.  It must be the value that is waited for. -/
def readPlain (argument : String) (progress : Progress) : Except Stop Progress :=
  match progress.pending with
  | some ⟨flag, none⟩ => .ok { progress with pending := some ⟨flag, some argument⟩ }
  | _ => .error (.fault (.unexpected argument none []))

/-- Read one argument. -/
def readArgument (argument : String) (progress : Progress) : Except Stop Progress :=
  match argument.toList with
  | '-' :: '-' :: name =>
      match name.span (· ≠ '=') with
      | (name, []) => readLong (String.ofList name) none progress
      | (name, _ :: value) => readLong (String.ofList name) (some (String.ofList value)) progress
  | '-' :: letter :: rest => readLetters progress (letter :: rest)
  | _ => readPlain argument progress

/-- Read the arguments that are left.  Behind two dashes alone no argument is
understood any more. -/
def readArguments (progress : Progress) : List String → Except Stop Progress
  | [] => progress.resolve
  | "--" :: [] => progress.resolve
  | "--" :: argument :: _ => .error (.fault (.unexpected argument none []))
  | argument :: rest => do
      let progress ← readArgument argument progress
      readArguments progress rest

/-- What a command line asks for. -/
def Request.parse (arguments : List String) : Except Fault Request :=
  match readArguments {} arguments with
  | .ok progress => .ok (.search progress.arguments)
  | .error (.answer request) => .ok request
  | .error (.fault fault) => .error fault

end BridgeFinder.CommandLine
