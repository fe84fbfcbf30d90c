import KernelPaging.Frame.Clock

/-!
What is done to the frame table at one go, with nobody else looking at it. An eviction takes two
such sections: the first selects a victim, pins it and enters the barrier; the second finishes the
eviction once its writeback has come back. Everything else may happen between them.
-/

set_option autoImplicit false

namespace KernelPaging

def FrameTable.enroll (table : FrameTable) (owner : ThreadId) (uaddr kpage : Address) :
    Except Halt (Frame × FrameTable) :=
  if table.isBound owner uaddr then
    .error (.alreadyResident owner uaddr)
  else
    .ok (table.insert { owner, uaddr, kpage, pinned := true })

/-- An eviction in flight: the slot of its victim, and the page of a thread it held when selected. -/
structure Eviction where
  slot : Nat
  owner : ThreadId
  uaddr : Address
deriving DecidableEq

def FrameTable.startEviction {bits : Type} [AccessedBits bits] (table : FrameTable) (marks : bits) :
    Except Halt (Except AllocError Eviction × FrameTable × bits) :=
  match table.selectVictim marks with
  | .error halt => .error halt
  | .ok (.error failure, table, marks) => .ok (.error failure, table, marks)
  | .ok (.ok slot, table, marks) =>
      match table.occupant? slot with
      | none => .error (.handOnVacantSlot slot)
      | some occupant =>
          let table := table.setPinned slot true
          .ok (.ok ⟨slot, occupant.owner, occupant.uaddr⟩,
            { table with barrier := table.barrier.enter }, marks)

inductive EvictionEnd
  /-- The victim's slot now holds the page that asked for it. -/
  | rebound (frame : Frame)
  /-- The contents could not be saved; the victim is unpinned where it was. -/
  | kept
  /-- The slot of the victim is empty. -/
  | vanished

def FrameTable.finishEviction (table : FrameTable) (eviction : Eviction) (owner : ThreadId)
    (uaddr : Address) (written : Bool) : Except Halt (EvictionEnd × FrameTable) :=
  let (result, table) : EvictionEnd × FrameTable :=
    if written then
      match table.reassign eviction.slot owner uaddr with
      | some (frame, table) => (.rebound frame, table)
      | none => (.vanished, table)
    else
      (.kept, table.setPinned eviction.slot false)
  match table.barrier.exit with
  | .error halt => .error halt
  | .ok (_, barrier) => .ok (result, { table with barrier })

inductive Detachment
  | stale
  | pinned
  | removed (record : FrameRecord)

def FrameTable.detach (table : FrameTable) (id : FrameId) : Detachment × FrameTable :=
  match table.resolve id with
  | none => (.stale, table)
  | some occupant =>
      if occupant.pinned then
        (.pinned, table)
      else
        (.removed occupant.toFrameRecord, table.discard id.index occupant)

def FrameTable.unpin (table : FrameTable) (id : FrameId) : Except Halt FrameTable :=
  match table.resolve id with
  | none => .error (.unpinOfStale id)
  | some occupant =>
      if occupant.pinned then
        .ok (table.setPinned id.index false)
      else
        .error (.unpinOfUnpinned id)

/-- Takes out every frame that an entry of a supplemental table names, pinned or not. Returns them
in the order of the entries. -/
def FrameTable.removeNamed (table : FrameTable) : List (Option FrameId) → List FrameRecord × FrameTable
  | [] => ([], table)
  | none :: entries => table.removeNamed entries
  | some id :: entries =>
      match table.remove id with
      | none => table.removeNamed entries
      | some (record, table) =>
          let (records, table) := table.removeNamed entries
          (record :: records, table)

end KernelPaging
