import BridgeFinder.Net.Ipv4
import BridgeFinder.Number.Binary64

/-!
# Network interfaces of this host

A search starts from one interface: the first that has a private address and does
not loop back.  The order in which the host lists its interfaces decides.

A scan walks the block of addresses around an interface.  The block has at most
256 addresses, whatever the netmask says; its first address names the network and
its last one reaches all hosts, so neither is a host.
-/

namespace BridgeFinder.Net

/-! ## Interfaces -/

/-- An interface with an IPv4 address. -/
structure Interface where
  name : String
  address : Ipv4
  netmask : Ipv4
deriving DecidableEq, Repr

/-- An interface as the host lists it; only those with an IPv4 address count
here. -/
inductive Listed where
  | ipv4 (interface : Interface)
  | other (name : String)
deriving DecidableEq, Repr

namespace Interface

/-- The number of leading one bits of the netmask. -/
def maskLength (interface : Interface) : Nat :=
  ((List.range 32).takeWhile fun i => interface.netmask.number.testBit (31 - i)).length

/-- The interface can lead to a bridge: it is no loopback, and its address is
private. -/
def isUsable (interface : Interface) : Bool :=
  !interface.address.isLoopback && interface.address.isPrivate

end Interface

/-- The IPv4 interface of an entry, if it is one. -/
def Listed.interface? : Listed → Option Interface
  | ipv4 interface => some interface
  | other _ => none

/-- The interface to search from. -/
def firstPrivate? (listed : List Listed) : Option Interface :=
  (listed.filterMap Listed.interface?).find? Interface.isUsable

/-! ## Subnets -/

/-- The shortest mask whose block is walked in full. -/
def shortestMask : Nat := 24

/-- The number of leading bits that all hosts share with the interface. -/
def sharedBits (interface : Interface) : Nat :=
  max interface.maskLength shortestMask

/-- The number of addresses in the block of the interface. -/
def blockSize (interface : Interface) : Nat :=
  Number.powerOfTwo (32 - sharedBits interface)

/-- The first address of the block, as a number. -/
def blockStart (interface : Interface) : Nat :=
  interface.address.number / blockSize interface * blockSize interface

/-- The address with the given number, if there is one. -/
def Ipv4.ofNumber? (number : Nat) : Option Ipv4 :=
  if h : number < 4294967296 then some ⟨number, h⟩ else none

/-- The hosts of the block, without the interface itself.  A block of one or two
addresses belongs to a link between two points and has none. -/
def subnetHosts (interface : Interface) : List Ipv4 :=
  if sharedBits interface ≥ 31 then []
  else
    ((List.range' (blockStart interface + 1) (blockSize interface - 2)).filterMap
      Ipv4.ofNumber?).filter (· ≠ interface.address)

end BridgeFinder.Net
