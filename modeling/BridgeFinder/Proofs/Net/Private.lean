import BridgeFinder.Proofs.Net.Subnet

/-!
# Private addresses

Three blocks of addresses are set aside for use within a site.  The addresses of such a block share
at most 16 bits.  The hosts of a subnet share more bits than that with the interface, whatever its
netmask says, so they are in the same of the three blocks.
-/

namespace BridgeFinder.Net

/-! ## Blocks -/

/-- A block of addresses, all of which begin with the same bits. -/
structure Block where
  first : Ipv4
  /-- The number of bits that the addresses share. -/
  shared : Nat

/-- An address belongs to a block. -/
def Block.Holds (block : Block) (address : Ipv4) : Prop :=
  ∀ i < block.shared, address.number.testBit (31 - i) = block.first.number.testBit (31 - i)

/-- The blocks that are set aside for use within a site. -/
def privateBlocks : List Block :=
  [⟨.ofOctets 10 0 0 0, 8⟩, ⟨.ofOctets 172 16 0 0, 12⟩, ⟨.ofOctets 192 168 0 0, 16⟩]

/-- The block of the addresses that mean the host itself. -/
def loopbackBlock : Block :=
  ⟨.ofOctets 127 0 0 0, 8⟩

/-- The address is one of those that are set aside. -/
def Ipv4.IsSetAside (address : Ipv4) : Prop :=
  ∃ block ∈ privateBlocks, block.Holds address

variable {interface : Interface} {address : Ipv4} {listed : List Listed}

theorem isLoopback_iff : address.isLoopback = true ↔ loopbackBlock.Holds address := by
  have bound := address.bound
  have first : Nat.pow 256 (3 - 0) = 16777216 := rfl
  rw [Block.Holds, loopbackBlock, leading_eq_iff (by decide)]
  simp only [Ipv4.isLoopback, Ipv4.octet, Ipv4.ofOctets, first, beq_iff_eq]
  omega

/-- The test for the first octets is the one for the blocks. -/
theorem isPrivate_iff : address.isPrivate = true ↔ address.IsSetAside := by
  have bound := address.bound
  have first : Nat.pow 256 (3 - 0) = 16777216 := rfl
  have second : Nat.pow 256 (3 - 1) = 65536 := rfl
  simp only [Ipv4.IsSetAside, privateBlocks, List.mem_cons, List.not_mem_nil, or_false,
    exists_eq_or_imp, exists_eq_left, Block.Holds]
  rw [leading_eq_iff (by decide), leading_eq_iff (by decide), leading_eq_iff (by decide)]
  simp only [Ipv4.isPrivate, Ipv4.octet, Ipv4.ofOctets, first, second, Bool.or_eq_true,
    Bool.and_eq_true, beq_iff_eq, decide_eq_true_eq]
  omega

/-- A subnet lies within each block that shares no more bits and holds its interface. -/
theorem Block.holds_of_shares {block : Block} (wide : block.shared ≤ sharedBits interface)
    (own : block.Holds interface.address) (shares : interface.Shares address) :
    block.Holds address := by
  intro i inside
  rw [shares i (Nat.lt_of_lt_of_le inside wide)]
  exact own i inside

/-- A subnet shares more bits than any of the blocks that are set aside. -/
theorem shared_le_sharedBits {block : Block} (member : block ∈ privateBlocks) :
    block.shared ≤ sharedBits interface := by
  have few : block.shared ≤ 24 := by
    simp only [privateBlocks, List.mem_cons, List.not_mem_nil, or_false] at member
    rcases member with rfl | rfl | rfl <;> decide
  exact Nat.le_trans few (le_sharedBits interface)

/-- The hosts of the subnet of a private interface are private. -/
theorem isSetAside_of_mem_subnetHosts (own : interface.address.IsSetAside)
    (member : address ∈ subnetHosts interface) :
    address.IsSetAside ∧ address ≠ interface.address := by
  rw [subnetHosts_eq_filter, List.mem_filter, mem_between_iff, decide_eq_true_eq] at member
  rcases member with ⟨⟨shares, -, -⟩, other⟩
  rcases own with ⟨block, known, holds⟩
  exact ⟨⟨block, known, block.holds_of_shares (shared_le_sharedBits known) holds shares⟩, other⟩

/-! ## The interface to search from -/

/-- The interface is no loopback, and its address is private. -/
structure Interface.Qualifies (interface : Interface) : Prop where
  outward : ¬ loopbackBlock.Holds interface.address
  setAside : interface.address.IsSetAside

theorem isUsable_iff : interface.isUsable = true ↔ interface.Qualifies := by
  rw [Interface.isUsable, Bool.and_eq_true, Bool.not_eq_true', ← Bool.not_eq_true, isLoopback_iff,
    isPrivate_iff]
  exact ⟨fun both => ⟨both.1, both.2⟩, fun both => ⟨both.outward, both.setAside⟩⟩

/-- The interface is the first of a list that qualifies. -/
def IsFirst (listed : List Listed) (interface : Interface) : Prop :=
  interface.Qualifies ∧ ∃ before after, listed = before ++ .ipv4 interface :: after ∧
    ∀ other, .ipv4 other ∈ before → ¬ other.Qualifies

theorem interface?_eq_some {entry : Listed} :
    entry.interface? = some interface ↔ entry = .ipv4 interface := by
  cases entry with
  | ipv4 listed => simp [Listed.interface?]
  | other name => simp [Listed.interface?]

theorem mem_filterMap_interface? :
    interface ∈ listed.filterMap Listed.interface? ↔ .ipv4 interface ∈ listed := by
  simp [interface?_eq_some]

theorem firstPrivate?_eq_none : firstPrivate? listed = none ↔
    ∀ interface, .ipv4 interface ∈ listed → ¬ interface.Qualifies := by
  simp only [firstPrivate?, List.find?_eq_none, mem_filterMap_interface?, isUsable_iff]

theorem firstPrivate?_eq_some :
    firstPrivate? listed = some interface ↔ IsFirst listed interface := by
  rw [firstPrivate?, List.find?_eq_some_iff_append, isUsable_iff, IsFirst]
  apply and_congr_right
  intro _
  constructor
  · rintro ⟨earlier, later, split, none⟩
    rcases List.filterMap_eq_append_iff.mp split with ⟨before, rest, rfl, rfl, found⟩
    rcases List.filterMap_eq_cons_iff.mp found with ⟨skipped, entry, after, rfl, unlisted, here, -⟩
    obtain rfl := interface?_eq_some.mp here
    refine ⟨before ++ skipped, after, (List.append_assoc ..).symm, ?_⟩
    intro other member qualifies
    rcases List.mem_append.mp member with inner | inner
    · have unusable := none other (mem_filterMap_interface?.mpr inner)
      simp [isUsable_iff.mpr qualifies] at unusable
    · cases unlisted _ inner
  · rintro ⟨before, after, rfl, none⟩
    refine ⟨before.filterMap Listed.interface?, after.filterMap Listed.interface?, ?_, ?_⟩
    · rw [List.filterMap_append, List.filterMap_cons_some (interface?_eq_some.mpr rfl)]
    · intro other member
      have unfit := none other (mem_filterMap_interface?.mp member)
      rw [← isUsable_iff] at unfit
      simpa using unfit

end BridgeFinder.Net
