import KernelPaging.Barrier
import KernelPaging.Frame.Basic

/-!
The frame table. Frames live in an arena of slots; the occupied slots are linked into a ring in the
order in which frames came in, and the clock hand rests on one of them, or before the head.
Vacated slots are kept on a stack and used again before the arena grows. The kernel keeps the indices
of slots in 32 bits and its last one for no slot at all; here they are natural numbers, and the tables
meant are those of fewer than `2^32 - 1` slots.
-/

set_option autoImplicit false

namespace KernelPaging

structure FrameRecord where
  owner : ThreadId
  uaddr : Address
  kpage : Address
  pinned : Bool
deriving DecidableEq

/-- A resident frame with its neighbours in the ring. -/
structure Occupant extends FrameRecord where
  previous : Nat
  next : Nat
deriving DecidableEq

structure Slot where
  generation : UInt32 := 0
  occupant : Option Occupant := none
deriving DecidableEq

structure FrameTable where
  slots : Array Slot := #[]
  vacant : List Nat := []
  head : Option Nat := none
  /-- Where the last sweep stopped; `none` stands before the head. -/
  hand : Option Nat := none
  count : Nat := 0
  barrier : Barrier := {}

def FrameTable.occupant? (table : FrameTable) (index : Nat) : Option Occupant :=
  match table.slots[index]? with
  | some slot => slot.occupant
  | none => none

/-- The occupant a name stands for, while the slot is at the generation of the name. -/
def FrameTable.resolve (table : FrameTable) (id : FrameId) : Option Occupant :=
  match table.slots[id.index]? with
  | some slot => if slot.generation = id.generation then slot.occupant else none
  | none => none

def FrameTable.generationAt (table : FrameTable) (index : Nat) : UInt32 :=
  match table.slots[index]? with
  | some slot => slot.generation
  | none => 0

def FrameRecord.frame (record : FrameRecord) (id : FrameId) : Frame where
  id := id
  owner := record.owner
  uaddr := record.uaddr
  kpage := record.kpage
  pinned := record.pinned

def FrameTable.frame? (table : FrameTable) (id : FrameId) : Option Frame :=
  (table.resolve id).map fun occupant => occupant.frame id

def FrameTable.isBound (table : FrameTable) (owner : ThreadId) (uaddr : Address) : Bool :=
  table.slots.any fun slot =>
    match slot.occupant with
    | some occupant => decide (occupant.owner = owner) && decide (occupant.uaddr = uaddr)
    | none => false

def FrameTable.advance (table : FrameTable) : Option Nat → Option Nat
  | none => table.head
  | some index => (table.occupant? index).map Occupant.next

def FrameTable.updateSlot (table : FrameTable) (index : Nat) (change : Slot → Slot) : FrameTable :=
  { table with slots := table.slots.modify index change }

def FrameTable.updateOccupant (table : FrameTable) (index : Nat) (change : Occupant → Occupant) :
    FrameTable :=
  table.updateSlot index fun slot => { slot with occupant := slot.occupant.map change }

def FrameTable.setNext (table : FrameTable) (index next : Nat) : FrameTable :=
  table.updateOccupant index fun occupant => { occupant with next }

def FrameTable.setPrevious (table : FrameTable) (index previous : Nat) : FrameTable :=
  table.updateOccupant index fun occupant => { occupant with previous }

def FrameTable.setPinned (table : FrameTable) (index : Nat) (pinned : Bool) : FrameTable :=
  table.updateOccupant index fun occupant => { occupant with pinned }

/-- A slot for a new frame: the one vacated last, or a new one at the end of the arena. -/
def FrameTable.reserve (table : FrameTable) : Nat × FrameTable :=
  match table.vacant with
  | index :: vacant => (index, { table with vacant })
  | [] => (table.slots.size, { table with slots := table.slots.push {} })

/-- Makes the ring lead through a slot behind its tail. Returns the neighbours of the slot. -/
def FrameTable.linkLast (table : FrameTable) (index : Nat) : (Nat × Nat) × FrameTable :=
  match table.head with
  | none => ((index, index), { table with head := some index })
  | some head =>
      let tail := ((table.occupant? head).map Occupant.previous).getD head
      ((tail, head), (table.setNext tail index).setPrevious head index)

def FrameTable.insert (table : FrameTable) (record : FrameRecord) : Frame × FrameTable :=
  let (index, table) := table.reserve
  let ((previous, next), table) := table.linkLast index
  let table := table.updateSlot index fun slot =>
    { slot with occupant := some { record with previous, next } }
  (record.frame ⟨index, table.generationAt index⟩, { table with count := table.count + 1 })

/-- Makes the ring pass a slot by. The head moves on to the successor and the hand moves back to the
predecessor, so that the next sweep begins with the same frame as before. -/
def FrameTable.unlink (table : FrameTable) (index previous next : Nat) : FrameTable :=
  if table.count = 1 then
    { table with head := none, hand := none }
  else
    let table := (table.setNext previous next).setPrevious next previous
    { table with
      head := if table.head = some index then some next else table.head
      hand := if table.hand = some index then some previous else table.hand }

def FrameTable.vacate (table : FrameTable) (index : Nat) : FrameTable :=
  let table := table.updateSlot index fun slot =>
    { generation := slot.generation + 1, occupant := none }
  { table with vacant := index :: table.vacant, count := table.count - 1 }

def FrameTable.discard (table : FrameTable) (index : Nat) (occupant : Occupant) : FrameTable :=
  (table.unlink index occupant.previous occupant.next).vacate index

def FrameTable.remove (table : FrameTable) (id : FrameId) : Option (FrameRecord × FrameTable) :=
  match table.resolve id with
  | none => none
  | some occupant => some (occupant.toFrameRecord, table.discard id.index occupant)

/-- Hands an occupied slot to another page under a fresh generation, pinned. The slot keeps its
physical page and its place in the ring. -/
def FrameTable.reassign (table : FrameTable) (index : Nat) (owner : ThreadId) (uaddr : Address) :
    Option (Frame × FrameTable) :=
  match table.occupant? index with
  | none => none
  | some occupant =>
      let changed := { occupant with owner, uaddr, pinned := true }
      let table := table.updateSlot index fun slot =>
        { generation := slot.generation + 1, occupant := some changed }
      some (changed.frame ⟨index, table.generationAt index⟩, table)

end KernelPaging
