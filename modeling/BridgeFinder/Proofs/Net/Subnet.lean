import BridgeFinder.Net.Interface
import Mathlib.Data.List.Basic
import Mathlib.Data.Nat.Bitwise

/-!
# The hosts of a subnet

The addresses of a block are those that begin with the bits that they all share.  A scan goes
through the numbers between the first address and the last one.  Here it is said which addresses
these are, how many of them are left without the interface itself, and that words of 32 bits have
room for every number on the way.
-/

namespace BridgeFinder.Net

/-! ## Bits of an address -/

/-- A word of 32 bits begins with so many ones, and goes on with a zero unless it is over. -/
structure LeadingOnes (word count : Nat) : Prop where
  fits : count ≤ 32
  ones : ∀ i < count, word.testBit (31 - i) = true
  ends : count < 32 → word.testBit (31 - count) = false

namespace Interface

/-- The address begins with the bits that all addresses of the block share. -/
def Shares (interface : Interface) (address : Ipv4) : Prop :=
  ∀ i < sharedBits interface,
    address.number.testBit (31 - i) = interface.address.number.testBit (31 - i)

/-- The bits that tell the addresses of the block apart are all equal to the given one. -/
def HasHost (interface : Interface) (bit : Bool) (address : Ipv4) : Prop :=
  ∀ i < 32 - sharedBits interface, address.number.testBit i = bit

end Interface

section

variable {interface : Interface} {address other : Ipv4} {count : Nat}

/-- The length of the mask is the number of ones at its front. -/
theorem leadingOnes_maskLength (interface : Interface) :
    LeadingOnes interface.netmask.number interface.maskLength := by
  let isOne i := interface.netmask.number.testBit (31 - i)
  have short : (List.range 32).findIdx (fun i => !isOne i) ≤ (List.range 32).length :=
    List.findIdx_le_length
  have same : interface.maskLength = (List.range 32).findIdx fun i => !isOne i := by
    rw [Interface.maskLength, List.takeWhile_eq_take_findIdx_not, List.length_take]
    exact Nat.min_eq_left short
  rw [same]
  rw [List.length_range] at short
  constructor
  · exact short
  · intro i before
    simpa [isOne] using List.not_of_lt_findIdx before
  · intro inside
    have reached : (List.range 32).findIdx (fun i => !isOne i) < (List.range 32).length := by
      simpa using inside
    have found := List.findIdx_getElem (w := reached)
    simpa [isOne] using found

theorem sharedBits_le (interface : Interface) : sharedBits interface ≤ 32 :=
  Nat.max_le.mpr ⟨(leadingOnes_maskLength interface).fits, by decide⟩

theorem le_sharedBits (interface : Interface) : 24 ≤ sharedBits interface :=
  Nat.le_max_right _ _

theorem blockSize_eq (interface : Interface) :
    blockSize interface = 2 ^ (32 - sharedBits interface) :=
  rfl

theorem blockSize_pos (interface : Interface) : 0 < blockSize interface :=
  Nat.two_pow_pos _

theorem blockSize_le (interface : Interface) : blockSize interface ≤ 256 := by
  have few := le_sharedBits interface
  have small : 32 - sharedBits interface ≤ 8 := by omega
  exact Nat.pow_le_pow_right (by decide) small

/-- Numbers of 32 bits agree in their leading bits if they agree up to what the other bits make
out. -/
theorem leading_eq_iff (fits : count ≤ 32) :
    (∀ i < count, address.number.testBit (31 - i) = other.number.testBit (31 - i)) ↔
      address.number / 2 ^ (32 - count) = other.number / 2 ^ (32 - count) := by
  constructor
  · intro same
    apply Nat.eq_of_testBit_eq
    intro i
    rw [Nat.testBit_div_two_pow, Nat.testBit_div_two_pow]
    by_cases inside : i < count
    · have place : i + (32 - count) = 31 - (count - 1 - i) := by omega
      rw [place]
      exact same _ (by omega)
    · have beyond {n : Nat} (bound : n < 2 ^ 32) : n.testBit (i + (32 - count)) = false :=
        Nat.testBit_lt_two_pow (Nat.lt_of_lt_of_le bound
          (Nat.pow_le_pow_right (by decide) (by omega)))
      rw [beyond address.bound, beyond other.bound]
  · intro same i inside
    have bits := congrArg (fun n => Nat.testBit n (count - 1 - i)) same
    simp only [Nat.testBit_div_two_pow] at bits
    have place : count - 1 - i + (32 - count) = 31 - i := by omega
    rwa [place] at bits

theorem shares_iff :
    interface.Shares address ↔
      address.number / blockSize interface = interface.address.number / blockSize interface :=
  leading_eq_iff (sharedBits_le interface)

theorem hasHost_false_iff :
    interface.HasHost false address ↔ address.number % blockSize interface = 0 := by
  rw [blockSize_eq]
  constructor
  · intro zeros
    apply Nat.eq_of_testBit_eq
    intro i
    rw [Nat.testBit_mod_two_pow, Nat.zero_testBit]
    by_cases inside : i < 32 - sharedBits interface
    · rw [zeros i inside, Bool.and_false]
    · simp [inside]
  · intro none i inside
    have bit := congrArg (fun n => Nat.testBit n i) none
    simpa [Nat.testBit_mod_two_pow, inside] using bit

theorem hasHost_true_iff :
    interface.HasHost true address ↔
      address.number % blockSize interface = blockSize interface - 1 := by
  rw [blockSize_eq]
  constructor
  · intro ones
    apply Nat.eq_of_testBit_eq
    intro i
    rw [Nat.testBit_mod_two_pow, Nat.testBit_two_pow_sub_one]
    by_cases inside : i < 32 - sharedBits interface
    · rw [ones i inside, Bool.and_true]
    · simp [inside]
  · intro all i inside
    have bit := congrArg (fun n => Nat.testBit n i) all
    simpa [Nat.testBit_mod_two_pow, Nat.testBit_two_pow_sub_one, inside] using bit

end

/-! ## Numbers of a block -/

section

variable {interface : Interface} {address : Ipv4} {number : Nat}

theorem Ipv4.ofNumber?_eq_some :
    Ipv4.ofNumber? number = some address ↔ address.number = number := by
  rw [Ipv4.ofNumber?]
  split
  · rename_i bound
    rw [Option.some.injEq]
    exact ⟨fun same => same ▸ rfl, fun same => by cases address; cases same; rfl⟩
  · rename_i large
    constructor
    · nofun
    · rintro rfl
      exact absurd address.bound large

/-- The addresses with the numbers between the first one of the block and the last one. -/
def between (interface : Interface) : List Ipv4 :=
  (List.range' (blockStart interface + 1) (blockSize interface - 2)).filterMap Ipv4.ofNumber?

theorem mem_between :
    address ∈ between interface ↔
      blockStart interface < address.number ∧
        address.number + 1 < blockStart interface + blockSize interface := by
  simp only [between, List.mem_filterMap, Ipv4.ofNumber?_eq_some, exists_eq_right',
    List.mem_range'_1]
  omega

/-- The block ends within the numbers of 32 bits. -/
theorem blockStart_add_le (interface : Interface) :
    blockStart interface + blockSize interface ≤ 4294967296 := by
  have multiple : 4294967296 = 2 ^ sharedBits interface * blockSize interface := by
    rw [blockSize_eq, ← Nat.pow_add, Nat.add_sub_cancel' (sharedBits_le interface)]
  have inside : interface.address.number / blockSize interface < 2 ^ sharedBits interface := by
    rw [Nat.div_lt_iff_lt_mul (blockSize_pos interface), ← multiple]
    exact interface.address.bound
  have bound := Nat.mul_le_mul_right (blockSize interface) (Nat.succ_le_of_lt inside)
  rw [Nat.succ_mul, ← multiple] at bound
  exact bound

theorem length_between (interface : Interface) :
    (between interface).length = blockSize interface - 2 := by
  have bound := blockStart_add_le interface
  have all : ∀ number ∈ List.range' (blockStart interface + 1) (blockSize interface - 2),
      (Ipv4.ofNumber? number).isSome := by
    intro number member
    rw [List.mem_range'_1] at member
    rw [Ipv4.ofNumber?, dif_pos (by omega)]
    rfl
  rw [between, List.filterMap_length_eq_length.mpr all, List.length_range']

theorem pairwise_between (interface : Interface) : (between interface).Pairwise (· < ·) := by
  apply List.Pairwise.filterMap _ _ (List.pairwise_lt_range' 1)
  intro first second less address isFirst later isSecond
  rw [Ipv4.ofNumber?_eq_some] at isFirst isSecond
  subst isFirst isSecond
  exact less

/-- An address is between the ends of the block if it is in the block and neither end of it. -/
theorem mem_between_iff :
    address ∈ between interface ↔ interface.Shares address ∧
      ¬ interface.HasHost false address ∧ ¬ interface.HasHost true address := by
  have positive := blockSize_pos interface
  have inBlock : interface.Shares address ↔ blockStart interface ≤ address.number ∧
      address.number ≤ blockStart interface + blockSize interface - 1 := by
    rw [shares_iff, Nat.div_eq_iff positive, blockStart]
  have place (shares : interface.Shares address) :
      blockStart interface + address.number % blockSize interface = address.number := by
    rw [blockStart, ← shares_iff.mp shares, Nat.div_add_mod']
  rw [mem_between, hasHost_false_iff, hasHost_true_iff]
  constructor
  · rintro ⟨above, below⟩
    have shares := inBlock.mpr (by omega)
    have split := place shares
    exact ⟨shares, by omega, by omega⟩
  · rintro ⟨shares, notFirst, notLast⟩
    have split := place shares
    have bounds := inBlock.mp shares
    omega

/-- In a block of one or two addresses there is nothing between the ends. -/
theorem between_eq_nil (narrow : 31 ≤ sharedBits interface) : between interface = [] := by
  have few : blockSize interface ≤ 2 := by
    have small : 32 - sharedBits interface ≤ 1 := by omega
    exact Nat.pow_le_pow_right (by decide) small
  rw [← List.length_eq_zero_iff, length_between]
  omega

/-- The hosts are the addresses between the ends of the block, without the interface itself. -/
theorem subnetHosts_eq_filter (interface : Interface) :
    subnetHosts interface = (between interface).filter (· ≠ interface.address) := by
  rw [subnetHosts]
  split
  · rename_i narrow
    rw [between_eq_nil narrow, List.filter_nil]
  · rfl

/-- The interface itself is one of the addresses between the ends, or it is one of the ends. -/
theorem length_subnetHosts (interface : Interface) :
    (subnetHosts interface).length =
      if interface.address ∈ between interface then blockSize interface - 3
      else blockSize interface - 2 := by
  have distinct : (between interface).Nodup :=
    (pairwise_between interface).imp fun less same => Nat.ne_of_lt less (congrArg Ipv4.number same)
  have erased : subnetHosts interface = (between interface).erase interface.address := by
    rw [distinct.erase_eq_filter, subnetHosts_eq_filter]
    exact List.filter_congr fun address _ => Bool.eq_iff_iff.mpr (by simp)
  rw [erased, List.length_erase, length_between]
  split <;> omega

end

/-! ## Words -/

namespace Interface

/-- The word that masks the bits that the block shares. -/
def maskWord (interface : Interface) : BitVec 32 :=
  BitVec.allOnes 32 <<< (32 - sharedBits interface)

/-- The word of the first address of the block. -/
def firstWord (interface : Interface) : BitVec 32 :=
  BitVec.ofNat 32 interface.address.number &&& interface.maskWord

/-- The word of the last address of the block. -/
def lastWord (interface : Interface) : BitVec 32 :=
  interface.firstWord ||| ~~~interface.maskWord

/-- Words of 32 bits have room for what is computed, unless the block is that of a link: the mask is
shifted by less than its length, the word behind the first one does not begin again at zero, and it
is not beyond the last one.  The hosts are then those between these words. -/
structure FitsWords (interface : Interface) : Prop where
  bits : sharedBits interface ≤ 32
  shift : 32 - sharedBits interface < 32
  next : (interface.firstWord + 1).toNat = interface.firstWord.toNat + 1
  ordered : (interface.firstWord + 1).toNat ≤ interface.lastWord.toNat
  hosts : subnetHosts interface =
    ((List.range' (interface.firstWord + 1).toNat
      (interface.lastWord.toNat - (interface.firstWord + 1).toNat)).filterMap
        Ipv4.ofNumber?).filter (· ≠ interface.address)

end Interface

section

variable {interface : Interface}

theorem testBit_blockStart (interface : Interface) (i : Nat) :
    (blockStart interface).testBit i =
      (decide (32 - sharedBits interface ≤ i) && interface.address.number.testBit i) := by
  rw [blockStart, blockSize_eq, ← Nat.shiftLeft_eq, ← Nat.shiftRight_eq_div_pow,
    Nat.testBit_shiftLeft, Nat.testBit_shiftRight]
  by_cases above : 32 - sharedBits interface ≤ i
  · simp [above]
  · simp [above]

theorem getLsbD_maskWord (interface : Interface) (i : Nat) :
    interface.maskWord.getLsbD i = (decide (i < 32) && decide (32 - sharedBits interface ≤ i)) := by
  have near : i < 32 → i - (32 - sharedBits interface) < 32 := by omega
  rw [Interface.maskWord, BitVec.getLsbD_shiftLeft, BitVec.getLsbD_allOnes, Bool.eq_iff_iff]
  simp only [Bool.and_eq_true, Bool.not_eq_true', decide_eq_true_eq, decide_eq_false_iff_not,
    Nat.not_lt]
  exact ⟨fun bit => bit.1, fun place => ⟨place, near place.1⟩⟩

theorem toNat_firstWord (interface : Interface) :
    interface.firstWord.toNat = blockStart interface := by
  apply Nat.eq_of_testBit_eq
  intro i
  rw [BitVec.testBit_toNat, testBit_blockStart, Interface.firstWord, BitVec.getLsbD_and,
    getLsbD_maskWord, BitVec.getLsbD_ofNat]
  by_cases inside : i < 32
  · simp [inside, Bool.and_comm]
  · have beyond : interface.address.number.testBit i = false :=
      Nat.testBit_lt_two_pow (Nat.lt_of_lt_of_le interface.address.bound
        (Nat.pow_le_pow_right (n := 2) (j := i) (i := 32) (by decide) (by omega)))
    simp [inside, beyond]

theorem toNat_lastWord (interface : Interface) :
    interface.lastWord.toNat = blockStart interface + (blockSize interface - 1) := by
  have small : blockSize interface - 1 < 2 ^ (32 - sharedBits interface) :=
    Nat.sub_one_lt_of_lt (blockSize_pos interface)
  have sum : blockStart interface + (blockSize interface - 1) =
      blockStart interface ||| (blockSize interface - 1) := by
    rw [blockStart, Nat.mul_comm, blockSize_eq]
    exact Nat.two_pow_add_eq_or_of_lt small _
  rw [sum, Interface.lastWord, BitVec.toNat_or, toNat_firstWord]
  apply Nat.eq_of_testBit_eq
  intro i
  rw [Nat.testBit_or, Nat.testBit_or, BitVec.testBit_toNat, BitVec.getLsbD_not, getLsbD_maskWord,
    blockSize_eq, Nat.testBit_two_pow_sub_one]
  congr 1
  have fits := sharedBits_le interface
  have short := le_sharedBits interface
  rw [Bool.eq_iff_iff]
  simp only [Bool.and_eq_true, Bool.not_eq_true', Bool.and_eq_false_iff, decide_eq_true_eq,
    decide_eq_false_iff_not]
  omega

/-- Words have room for the numbers of every block that is not a link. -/
theorem fitsWords (wide : sharedBits interface < 31) : interface.FitsWords := by
  have bits := sharedBits_le interface
  have few := le_sharedBits interface
  have large : 4 ≤ blockSize interface := by
    have wide : 2 ≤ 32 - sharedBits interface := by omega
    exact Nat.pow_le_pow_right (n := 2) (by decide) wide
  have bound := blockStart_add_le interface
  have next : (interface.firstWord + 1).toNat = interface.firstWord.toNat + 1 := by
    have one : (1 : BitVec 32).toNat = 1 := rfl
    apply BitVec.toNat_add_of_lt
    rw [toNat_firstWord, one]
    omega
  constructor
  · exact bits
  · omega
  · exact next
  · rw [next, toNat_firstWord, toNat_lastWord]
    omega
  · have count : blockStart interface + (blockSize interface - 1) - (blockStart interface + 1) =
        blockSize interface - 2 := by omega
    rw [next, toNat_firstWord, toNat_lastWord, count]
    exact subnetHosts_eq_filter interface

end

/-! ## The account -/

/-- The account of the hosts of a subnet.  The block has the leading bits that the mask has ones at
its front, and at least 24 of them.  The hosts are, in ascending order, exactly the addresses of the
block other than the first one, the last one and the interface itself; so they are all but two or
three of it, at most 254, and none on a link between two points.  Words of 32 bits suffice to
compute them. -/
theorem subnetHosts_account (interface : Interface) :
    (∃ ones, LeadingOnes interface.netmask.number ones ∧ sharedBits interface = max ones 24) ∧
      (subnetHosts interface).Pairwise (· < ·) ∧
      (∀ address, address ∈ subnetHosts interface ↔
        interface.Shares address ∧ ¬ interface.HasHost false address ∧
          ¬ interface.HasHost true address ∧ address ≠ interface.address) ∧
      (31 ≤ sharedBits interface → subnetHosts interface = []) ∧
      (sharedBits interface < 31 →
        (¬ interface.HasHost false interface.address → ¬ interface.HasHost true interface.address →
          (subnetHosts interface).length = 2 ^ (32 - sharedBits interface) - 3) ∧
        (interface.HasHost false interface.address ∨ interface.HasHost true interface.address →
          (subnetHosts interface).length = 2 ^ (32 - sharedBits interface) - 2) ∧
        interface.FitsWords) ∧
      (subnetHosts interface).length ≤ 254 := by
  have itself : interface.Shares interface.address := fun _ _ => rfl
  have size := blockSize_le interface
  refine ⟨⟨_, leadingOnes_maskLength interface, rfl⟩, ?_, ?_, ?_, ?_, ?_⟩
  · rw [subnetHosts_eq_filter]
    exact (pairwise_between interface).filter _
  · intro address
    rw [subnetHosts_eq_filter, List.mem_filter, mem_between_iff, decide_eq_true_eq, and_assoc,
      and_assoc]
  · intro narrow
    rw [subnetHosts_eq_filter, between_eq_nil narrow, List.filter_nil]
  · intro wide
    rw [length_subnetHosts, ← blockSize_eq]
    refine ⟨?_, ?_, fitsWords wide⟩
    · intro notFirst notLast
      rw [if_pos (mem_between_iff.mpr ⟨itself, notFirst, notLast⟩)]
    · intro atEnd
      rw [if_neg fun inside => atEnd.elim (mem_between_iff.mp inside).2.1
        (mem_between_iff.mp inside).2.2]
  · rw [length_subnetHosts]
    split <;> omega

end BridgeFinder.Net
