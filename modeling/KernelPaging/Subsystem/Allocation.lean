import KernelPaging.Subsystem.Kernel

/-!
Taking pages from the supply and giving them back, and the allocation of a frame. A fresh page is
bound at once. Without one, a resident frame is reclaimed: the victim's contents are written back
while the frame table is free for others, and only then is its slot rebound. The two halves around
the writeback are `beginAllocation` and `finishAllocation`.
-/

set_option autoImplicit false

namespace KernelPaging

variable {bits : Type}

def zeroPage (page : Address) : Kernel bits Unit :=
  modify fun subsystem => { subsystem with memory := subsystem.memory.zeroPage page }

def obtainPage (flags : PageFlags) : Kernel bits (Option Address) := do
  match ← orStop ((← get).supply.obtain flags) with
  | none => return none
  | some (page, supply) =>
      modify fun subsystem => { subsystem with supply }
      if flags.zero then
        zeroPage page
      return some page

/-- Gives a page back to the supply, which ignores one that it did not hand out. -/
def releasePage (page : Address) : Kernel bits Unit := do
  let (outcome, supply) ← orStop ((← get).supply.release page)
  modify fun subsystem => { subsystem with supply }
  announce? (outcome.notice? page)

/-- Takes a page from one pool, whatever pool the flags ask for. -/
def obtainFrom (pool : PoolName) (flags : PageFlags) : Kernel bits (Option Address) := do
  match ← orStop ((← get).supply.serving pool).obtain with
  | none => return none
  | some (page, region) =>
      modify fun subsystem => { subsystem with supply := subsystem.supply.setServing pool region }
      if flags.zero then
        zeroPage page
      return some page

/-- Gives a page back to one pool, whichever region it lies in. -/
def releaseTo (pool : PoolName) (page : Address) : Kernel bits Unit := do
  let (outcome, region) := ((← get).supply.serving pool).release page
  modify fun subsystem => { subsystem with supply := subsystem.supply.setServing pool region }
  announce? (outcome.notice? page)

def poolContains (pool : PoolName) (page : Address) : Kernel bits Bool := do
  orStop (((← get).supply.serving pool).contains page)

structure Request where
  owner : ThreadId
  uaddr : Address
  flags : PageFlags

inductive Allocation
  | finished (result : Except AllocError Frame)
  | writing (eviction : Eviction)

def bindFresh (request : Request) (kpage : Address) : Kernel bits Frame := do
  let (frame, frames) ← orStop ((← get).frames.enroll request.owner request.uaddr kpage)
  modify fun subsystem => { subsystem with frames }
  announce (.frameBound frame.id request.owner request.uaddr)
  return frame

def beginEviction [AccessedBits bits] (request : Request) : Kernel bits Allocation := do
  let subsystem ← get
  let (outcome, frames, accessed) ← orStop (subsystem.frames.startEviction subsystem.accessed)
  modify fun subsystem => { subsystem with frames, accessed }
  match outcome with
  | .error failure =>
      announce (.noVictim frames.count failure)
      return .finished (.error failure)
  | .ok eviction =>
      announce (.evicting eviction.owner eviction.uaddr request.owner request.uaddr)
      return .writing eviction

def beginAllocation [AccessedBits bits] (request : Request) : Kernel bits Allocation := do
  match ← obtainPage request.flags.withUser with
  | some kpage =>
      let frame ← bindFresh request kpage
      return .finished (.ok frame)
  | none =>
      announce (.reclaiming request.owner request.uaddr)
      beginEviction request

def finishAllocation (request : Request) (eviction : Eviction) (written : Bool) :
    Kernel bits (Except AllocError Frame) := do
  let (ending, frames) ← orStop
    ((← get).frames.finishEviction eviction request.owner request.uaddr written)
  modify fun subsystem => { subsystem with frames }
  match ending with
  | .rebound frame =>
      if request.flags.zero then
        zeroPage frame.kpage
      return .ok frame
  | .kept =>
      announce (.writebackFailed eviction.owner eviction.uaddr)
      return .error .writebackFailed
  | .vanished => stop (.victimVanished eviction.slot)

/-- Allocates a frame. The writeback is called at most once, with the page of the victim, and may
itself use the kernel. -/
def allocate [AccessedBits bits] (request : Request)
    (writeback : ThreadId → Address → Kernel bits Bool) : Kernel bits (Except AllocError Frame) := do
  match ← beginAllocation request with
  | .finished result => return result
  | .writing eviction =>
      let written ← writeback eviction.owner eviction.uaddr
      finishAllocation request eviction written

end KernelPaging
