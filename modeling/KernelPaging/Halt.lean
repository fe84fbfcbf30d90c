import KernelPaging.Frame.Basic

/-!
The ways in which the kernel stops. Each is a cause with its data; `Halt.message` words it.
-/

set_option autoImplicit false

namespace KernelPaging

inductive Halt
  | notCanonical (word : UInt64)
  | additionOverflow
  | multiplicationOverflow
  | physicalOutOfRange
  | unalignedRegion
  | alreadyResident (owner : ThreadId) (uaddr : Address)
  | unpinOfUnpinned (id : FrameId)
  | unpinOfStale (id : FrameId)
  | handOnVacantSlot (slot : Nat)
  | victimVanished (slot : Nat)
  | exitWithoutEnter
  /-- A wait for an event that nobody is left to bring about. -/
  | waitsForever
deriving DecidableEq

def Halt.message : Halt → String
  | .notCanonical word =>
      "address passed to VirtAddr::new must not contain any data in bits 48 to 64: VirtAddrNotValid("
        ++ hexLower word.toNat ++ ")"
  | .additionOverflow => "attempt to add with overflow"
  | .multiplicationOverflow => "attempt to multiply with overflow"
  | .physicalOutOfRange =>
      "physical addresses must not have any bits in the range 52 to 64 set"
  | .unalignedRegion => "page source region must be page aligned"
  | .alreadyResident owner uaddr =>
      "frame table: " ++ hexUpper uaddr.value ++ " of thread " ++ owner.display
        ++ " is already resident"
  | .unpinOfUnpinned id => "frame table: unpin of unpinned frame " ++ id.display
  | .unpinOfStale id => "frame table: unpin of stale frame " ++ id.display
  | .handOnVacantSlot slot => "clock: hand on vacant slot " ++ toString slot
  | .victimVanished slot =>
      "clock: eviction victim " ++ toString slot ++ " vanished during writeback"
  | .exitWithoutEnter => "transition barrier: exit without a matching enter"
  | .waitsForever => "waits forever"

def Address.ofWord (word : UInt64) : Except Halt Address :=
  match Address.ofWord? word with
  | some address => .ok address
  | none => .error (.notCanonical word)

/-- The address that lies `distance` bytes further on. The sum must fit a word and be an address. -/
def Address.offset (address : Address) (distance : Nat) : Except Halt Address :=
  if address.value + distance < 0x10000000000000000 then
    Address.ofWord (UInt64.ofNat (address.value + distance))
  else
    .error .additionOverflow

end KernelPaging
