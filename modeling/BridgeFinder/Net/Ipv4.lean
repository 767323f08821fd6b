import BridgeFinder.Text.Ascii

/-!
# IPv4 addresses

An address is a number of 32 bits; its text is the four octets in decimal,
separated by points.  Only the text that printing produces is read back: an octet
has no leading zeros, no sign and at most three digits.
-/

namespace BridgeFinder.Net

/-- An IPv4 address. -/
structure Ipv4 where
  number : Nat
  bound : number < 4294967296 := by decide
deriving DecidableEq, Repr

namespace Ipv4

/-- The address with the four given octets, each taken modulo 256. -/
def ofOctets (a b c d : Nat) : Ipv4 where
  number := a % 256 * 16777216 + b % 256 * 65536 + c % 256 * 256 + d % 256
  bound := by omega

/-- The octet of an address that stands at the given place, counted from the
left. -/
def octet (address : Ipv4) (place : Nat) : Nat :=
  address.number / Nat.pow 256 (3 - place) % 256

/-- The text of an address. -/
def text (address : Ipv4) : String :=
  ".".intercalate ((List.range 4).map fun place => toString (address.octet place))

instance : ToString Ipv4 := ⟨text⟩

/-- Read an octet from its digits. -/
def octet? (digits : List Char) : Option Nat :=
  if digits.length > 3 then none
  else if digits.length > 1 ∧ digits.head? = some '0' then none
  else
    match Text.natural? digits with
    | some n => if n < 256 then some n else none
    | none => none

/-- Split a text at every point. -/
def fieldsOf (text : List Char) : List (List Char) :=
  match text with
  | [] => [[]]
  | c :: rest =>
      let fields := fieldsOf rest
      if c = '.' then [] :: fields
      else (c :: fields.headD []) :: fields.drop 1

/-- Read an address from its text. -/
def parse? (text : String) : Option Ipv4 :=
  match (fieldsOf text.toList).map octet? with
  | [some a, some b, some c, some d] => some (ofOctets a b c d)
  | _ => none

/-- The address can only be reached from within its own site: it lies in one of
the three blocks set aside for that. -/
def isPrivate (address : Ipv4) : Bool :=
  let first := address.octet 0
  let second := address.octet 1
  first == 10 || (first == 172 && 16 ≤ second && second ≤ 31) ||
    (first == 192 && second == 168)

/-- The address means the host itself. -/
def isLoopback (address : Ipv4) : Bool :=
  address.octet 0 == 127

/-- The address means a group of hosts. -/
def isMulticast (address : Ipv4) : Bool :=
  224 ≤ address.octet 0 && address.octet 0 ≤ 239

instance : LE Ipv4 := ⟨fun a b => a.number ≤ b.number⟩

instance : LT Ipv4 := ⟨fun a b => a.number < b.number⟩

instance (a b : Ipv4) : Decidable (a ≤ b) :=
  inferInstanceAs (Decidable (a.number ≤ b.number))

instance (a b : Ipv4) : Decidable (a < b) :=
  inferInstanceAs (Decidable (a.number < b.number))

end Ipv4

end BridgeFinder.Net
