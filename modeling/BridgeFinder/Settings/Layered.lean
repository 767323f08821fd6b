import BridgeFinder.Layered.File
import BridgeFinder.Layered.Path
import BridgeFinder.Settings.Schema

/-!
# Settings from a file and the environment

The environment is laid over the file, and both over the defaults.  A value is
converted to the type of its setting where that makes sense: numbers may be texts,
booleans or fractions, and texts may be anything but nothing.
-/

namespace BridgeFinder.Settings

open Layered (Value FileError)

/-- Why layered settings cannot be loaded. -/
inductive LayeredError where
  | file (error : FileError)
  /-- The value under a key cannot be converted. -/
  | mistyped (found : Found) (expected key : String) (origin : Option String)
  /-- The number under a key is out of range. -/
  | tooLarge (value : Nat) (bits : Nat) (key : String)
  /-- A value has the wrong shape. -/
  | misshapen (found : Found) (expected : String)
  | notAnAddress
deriving DecidableEq, Repr

/-- The text of an error, if there is anything to say. -/
def LayeredError.message? : LayeredError → Option String
  | file error => error.message?
  | mistyped found expected key origin =>
      some ("invalid type: " ++ Layered.describe found ++ ", expected " ++ expected ++
        " for key `" ++ key ++ "`" ++ (origin.elim "" fun origin => " in " ++ origin))
  | tooLarge value bits key =>
      some ("invalid type: 64-bit unsigned integer `" ++ toString value ++
        "`, expected an unsigned " ++ toString bits ++ " bit integer for key `" ++ key ++ "`")
  | misshapen found expected =>
      some ("invalid type: " ++
        found.describe ⟨"unit value", Number.Binary64.pointedText⟩ ++ ", expected " ++ expected)
  | notAnAddress => some "invalid IPv4 address syntax"

/-- Convert a text to a natural number: words for yes and no count as one and
zero. -/
def naturalOfText? (text : String) : Option Nat :=
  match Text.lower text with
  | "true" => some 1
  | "on" => some 1
  | "yes" => some 1
  | "false" => some 0
  | "off" => some 0
  | "no" => some 0
  | _ =>
      let digits := text.toList
      (Text.natural? (if digits.head? = some '+' then digits.drop 1 else digits)).filter
        (· < Number.powerOfTwo 64)

/-- Convert a value to a natural number of 64 bits.  Fractions are rounded, and
what is out of range is moved to its end. -/
def toNatural (key : String) (value : Value) : Except LayeredError Nat :=
  let refuse (expected : String) : Except LayeredError Nat :=
    .error (.mistyped value.found expected key value.origin)
  match value.found with
  | .boolean value => .ok (if value then 1 else 0)
  | .integer n => if 0 ≤ n then .ok n.toNat else refuse "an unsigned 64 bit or less integer"
  | .float x => .ok (x.toNatClamped (Number.powerOfTwo 64 - 1))
  | .string text =>
      match naturalOfText? text with
      | some n => .ok n
      | none => refuse "an integer"
  | _ => refuse "an integer"

/-- The width of a number in bits, for a range that is checked after the
conversion. -/
def Width.narrowBits? : Width → Option Nat
  | bits16 => some 16
  | bits32 => some 32
  | _ => none

/-- Convert a value to a natural number of a range. -/
def toNaturalIn (width : Width) (key : String) (value : Value) : Except LayeredError Nat := do
  let n ← toNatural key value
  match width.narrowBits? with
  | some bits => if n ≤ width.largest then pure n else throw (.tooLarge n bits key)
  | none => pure n

/-- Convert a value to a text. -/
def toText (key : String) (value : Value) : Except LayeredError String :=
  match value.found with
  | .string text => .ok text
  | .boolean value => .ok (if value then "true" else "false")
  | .integer n => .ok (toString n)
  | .float x => .ok x.plainText
  | found => .error (.mistyped found "a string" key value.origin)

/-- The key of an element. -/
def elementKey (key : String) (index : Nat) : String :=
  key ++ "[" ++ toString index ++ "]"

/-- Convert the values of an array to texts, from the given index on. -/
def toTexts (key : String) : Nat → List Value → Except LayeredError (List String)
  | _, [] => .ok []
  | index, value :: values => do
      let text ← toText (elementKey key index) value
      let texts ← toTexts key (index + 1) values
      pure (text :: texts)

/-- Convert the value under a key and store it. -/
def Leaf.readLayered (key : String) (value : Value) (settings : Settings) :
    Leaf → Except LayeredError Settings
  | .natural width store => do
      let n ← toNaturalIn width key value
      pure (store n settings)
  | .text store => do
      let text ← toText key value
      pure (store text settings)
  | .address store => do
      let text ← toText key value
      match Net.Ipv4.parse? text with
      | some parsed => pure (store parsed settings)
      | none => throw .notAnAddress
  | .texts store =>
      match value with
      | .array _ values => do
          let texts ← toTexts key 0 values
          pure (store texts settings)
      | value => .error (.misshapen value.found "a sequence")

/-- Read the members of a section one after another.  Unknown names are skipped. -/
def Section.readMembers (group : Section) (key : String) :
    List (String × Value) → Settings → Except LayeredError Settings
  | [], settings => .ok settings
  | (name, value) :: members, settings => do
      match group.leaves.lookup name with
      | some leaf =>
          let settings ← leaf.readLayered (key ++ "." ++ name) value settings
          group.readMembers key members settings
      | none => group.readMembers key members settings

/-- Read the elements of an array as the leading values of a section. -/
def readElements (key : String) :
    Nat → List (String × Leaf) → List Value → Settings → Except LayeredError Settings
  | index, (_, leaf) :: leaves, value :: values, settings => do
      let settings ← leaf.readLayered (elementKey key index) value settings
      readElements key (index + 1) leaves values settings
  | _, _, _, settings => .ok settings

/-- Read a section. -/
def Section.readLayered (group : Section) (key : String) (value : Value) (settings : Settings) :
    Except LayeredError Settings :=
  match value with
  | .table _ members => group.readMembers key members settings
  | .array _ values => readElements key 0 group.leaves values settings
  | value => .error (.misshapen value.found ("struct " ++ group.title))

/-- Read what a name at the top stands for. -/
def Entry.readLayered (key : String) (value : Value) (settings : Settings) :
    Entry → Except LayeredError Settings
  | .leaf setting => setting.readLayered key value settings
  | .group leaves => leaves.readLayered key value settings

/-- Read the members of a configuration one after another. -/
def readMembersLayered : List (String × Value) → Settings → Except LayeredError Settings
  | [], settings => .ok settings
  | (name, value) :: members, settings => do
      match schema.lookup name with
      | some entry =>
          let settings ← entry.readLayered name value settings
          readMembersLayered members settings
      | none => readMembersLayered members settings

/-- The configuration that a file, if one is named, and the environment give
together. -/
def layers (path : Option String) (files : Layered.Files) (environment : Layered.Environment) :
    Except FileError Value := do
  let members ←
    match path with
    | some path => files.members path
    | none => pure []
  pure ((Value.emptyTable.layer members).layer environment.members)

/-- Load settings from a file, if one is named, and the environment. -/
def ofLayers (path : Option String) (files : Layered.Files)
    (environment : Layered.Environment) : Except LayeredError Settings := do
  let configuration ← (layers path files environment).mapError .file
  readMembersLayered configuration.members {}

/-- Load settings from a file, if one is named, and the environment, and name the
source of a failure. -/
def load (path : Option String) (files : Layered.Files) (environment : Layered.Environment) :
    Except Failure Settings :=
  (ofLayers path files environment).mapError fun error =>
    .unloadable (path.getD "<environment>") error.message?

end BridgeFinder.Settings
