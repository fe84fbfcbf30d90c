import KernelPaging.Address

/-!
What a client of the frame table sees: threads and names of frames, snapshots of frames, and the
outcomes of asking for a frame or giving one back. A thread is only ever named here: frames record
their owner, and teardown is asked for on behalf of one.
-/

set_option autoImplicit false

namespace KernelPaging

structure ThreadId where
  raw : UInt64
deriving DecidableEq

def ThreadId.display (thread : ThreadId) : String :=
  toString thread.raw.toNat

structure ThreadCounter where
  next : UInt64 := 1

def ThreadCounter.fresh (counter : ThreadCounter) : ThreadId × ThreadCounter :=
  (⟨counter.next⟩, ⟨counter.next + 1⟩)

def ThreadId.ascending (threads : List ThreadId) : List ThreadId :=
  (threads.mergeSort fun left right => decide (left.raw ≤ right.raw)).eraseDups

/-- Names one occupation of a slot. The generation moves on whenever the slot is vacated or handed
to another page, so a name that is kept too long stops resolving. A table has fewer than `2^32 - 1`
slots, so that an index fits the 32 bits that the kernel has for it. -/
structure FrameId where
  index : Nat
  generation : UInt32
deriving DecidableEq

def FrameId.display (id : FrameId) : String :=
  "#" ++ toString id.index ++ "." ++ toString id.generation.toNat

/-- A snapshot of a resident frame: the page at `kpage` backs `uaddr` in the owner's address space. -/
structure Frame where
  id : FrameId
  owner : ThreadId
  uaddr : Address
  kpage : Address
  pinned : Bool
deriving DecidableEq

inductive AllocError
  | tableEmpty
  | allPinned
  /-- The victim's contents could not be saved; it stays with its owner. -/
  | writebackFailed
deriving DecidableEq

def AllocError.name : AllocError → String
  | .tableEmpty => "TableEmpty"
  | .allPinned => "AllPinned"
  | .writebackFailed => "WritebackFailed"

inductive FreeOutcome
  | released
  | pinned
  | notResident
deriving DecidableEq

def FreeOutcome.name : FreeOutcome → String
  | .released => "Released"
  | .pinned => "Pinned"
  | .notResident => "NotResident"

end KernelPaging
