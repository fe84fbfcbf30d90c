import KernelPaging.Subsystem.Allocation

/-!
Giving frames back: one at a time through an entry of a supplemental table, or all that a thread's
table names when the thread ends.
-/

set_option autoImplicit false

namespace KernelPaging

variable {bits played : Type}

def unpin (id : FrameId) : Kernel bits Unit := do
  let frames ← orStop ((← get).frames.unpin id)
  modify fun subsystem => { subsystem with frames }

/-- Releases the frame an entry names, unless it is pinned. Returns the entry as it is left behind. -/
def free (entry : Option FrameId) : Kernel bits (FreeOutcome × Option FrameId) := do
  match entry with
  | none => return (.notResident, none)
  | some id =>
      let (detachment, frames) := (← get).frames.detach id
      modify fun subsystem => { subsystem with frames }
      match detachment with
      | .stale =>
          announce (.staleReference id)
          return (.notResident, none)
      | .pinned => return (.pinned, some id)
      | .removed record =>
          releasePage record.kpage
          return (.released, none)

/-- The entries of a thread's supplemental page table, each with the frame it refers to. -/
abbrev SupplementalTable := List (Option FrameId)

/-- Ends a thread: waits until no eviction is in flight, while other threads play the rounds, and
then releases every frame the table names. Pinned frames go as well, since nobody else refers to
them. -/
def teardown (owner : ThreadId) (table : SupplementalTable) (rounds : List (Kernel bits played)) :
    Kernel bits (List played × SupplementalTable) := do
  let others ← awaitIdle (fun subsystem => subsystem.frames.barrier) rounds
  let (records, frames) := (← get).frames.removeNamed table
  modify fun subsystem => { subsystem with frames }
  let foreign := records.countP fun record => decide (record.owner ≠ owner)
  if 0 < foreign then
    announce (.foreignFrames owner foreign)
  records.forM fun record => releasePage record.kpage
  announce (.cleared owner records.length)
  return (others, table.map fun _ => none)

structure Overlap where
  result : Except AllocError Frame
  eviction : Option Eviction
  inFlight : Nat
  waited : Bool
  table : SupplementalTable

/-- An allocation on one thread and a teardown on another that begins while the victim of the
allocation is being written back. The teardown waits until the eviction is over. An allocation that
needs no writeback is over before the teardown begins. If the allocation stops, its thread stops
with it, but the teardown goes on to its end. -/
def overlap [AccessedBits bits] (request : Request) (written : Bool) (owner : ThreadId)
    (table : SupplementalTable) : Kernel bits Overlap := do
  let begun ← attempt (beginAllocation request)
  let inFlight := (← get).frames.barrier.inFlight
  match begun with
  | .error halt =>
      let _ ← teardown owner table ([] : List (Kernel bits Unit))
      throw halt
  | .ok (.finished result) =>
      let (_, table) ← teardown owner table ([] : List (Kernel bits Unit))
      return { result, eviction := none, inFlight, waited := false, table }
  | .ok (.writing eviction) =>
      let finish := attempt (finishAllocation request eviction written)
      let (others, table) ← teardown owner table [finish]
      let outcome ← match others with
        | outcome :: _ => pure outcome
        | [] => finish
      match outcome with
      | .error halt => throw halt
      | .ok result =>
          return { result, eviction := some eviction, inFlight, waited := !others.isEmpty, table }

end KernelPaging
