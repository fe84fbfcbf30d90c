import KernelPaging.Halt
import KernelPaging.Log
import KernelPaging.Page.Region
import KernelPaging.User.Copy

/-!
What memory management itself writes to the log. Each notice is an event with its data;
`Notice.record` gives its level, origin and wording.
-/

set_option autoImplicit false

namespace KernelPaging

inductive Notice
  | regionReady (base : Address) (pages : Nat)
  | foreignRelease (page : Address)
  | outsideRelease (page : Address)
  | doubleRelease (page : Address)
  | unclaimedRelease (page : Address)
  | frameBound (id : FrameId) (owner : ThreadId) (uaddr : Address)
  | reclaiming (owner : ThreadId) (uaddr : Address)
  | staleReference (id : FrameId)
  | unpinOfUnpinned (id : FrameId)
  | unpinOfStale (id : FrameId)
  | foreignFrames (owner : ThreadId) (count : Nat)
  | cleared (owner : ThreadId) (count : Nat)
  | noVictim (resident : Nat) (failure : AllocError)
  | handOnVacantSlot (slot : Nat)
  | evicting (victimOwner : ThreadId) (victimAddress : Address) (owner : ThreadId) (uaddr : Address)
  | victimVanished (slot : Nat)
  | writebackFailed (owner : ThreadId) (uaddr : Address)
  | shortCopyIn (copied wanted : Nat) (fault : UInt64)
  | shortCopyOut (copied wanted : Nat)
  | ready (userTop : UInt64) (chunk : Nat)
deriving DecidableEq

def Notice.level : Notice → Level
  | .regionReady .. | .cleared .. | .ready .. => .info
  | .unclaimedRelease .. | .frameBound .. | .reclaiming .. | .staleReference .. | .evicting ..
  | .shortCopyIn .. | .shortCopyOut .. => .debug
  | .foreignRelease .. | .outsideRelease .. | .doubleRelease .. | .foreignFrames .. | .noVictim ..
  | .writebackFailed .. => .warn
  | .unpinOfUnpinned .. | .unpinOfStale .. | .handOnVacantSlot .. | .victimVanished .. => .panic

def Notice.origin : Notice → String
  | .regionReady .. | .foreignRelease .. | .outsideRelease .. | .doubleRelease ..
  | .unclaimedRelease .. => "pmm"
  | .frameBound .. | .reclaiming .. | .staleReference .. | .unpinOfUnpinned .. | .unpinOfStale ..
  | .foreignFrames .. | .cleared .. => "frame"
  | .noVictim .. | .handOnVacantSlot .. | .evicting .. | .victimVanished ..
  | .writebackFailed .. => "clock"
  | .shortCopyIn .. | .shortCopyOut .. => "uaccess"
  | .ready .. => "mm"

def Address.display (address : Address) : String :=
  hexUpper address.value

def Notice.text : Notice → String
  | .regionReady base pages =>
      "Page source initialized: base=" ++ base.display ++ ", pages=" ++ toString pages
  | .foreignRelease page => "Ignoring release of unaligned or foreign page " ++ page.display
  | .outsideRelease page => "Ignoring release of page " ++ page.display ++ " outside the region"
  | .doubleRelease page => "Double release of page " ++ page.display
  | .unclaimedRelease page => "Page " ++ page.display ++ " belongs to neither pool"
  | .frameBound id owner uaddr =>
      "Frame " ++ id.display ++ " -> thread " ++ owner.display ++ " at " ++ uaddr.display
  | .reclaiming owner uaddr =>
      "Page source exhausted, reclaiming for thread " ++ owner.display ++ " at " ++ uaddr.display
  | .staleReference id => "Dropped stale reference to frame " ++ id.display
  | .unpinOfUnpinned id => "Unpin of unpinned frame " ++ id.display
  | .unpinOfStale id => "Unpin of stale frame " ++ id.display
  | .foreignFrames owner count =>
      "Thread " ++ owner.display ++ " teardown removed " ++ toString count
        ++ " frames owned by other threads"
  | .cleared owner count =>
      "Cleared " ++ toString count ++ " frames of thread " ++ owner.display
  | .noVictim resident failure =>
      "No eviction victim among " ++ toString resident ++ " resident frames: " ++ failure.name
  | .handOnVacantSlot slot => "Clock hand on vacant slot " ++ toString slot
  | .evicting victimOwner victimAddress owner uaddr =>
      "Evicting thread " ++ victimOwner.display ++ " page " ++ victimAddress.display
        ++ " for thread " ++ owner.display ++ " page " ++ uaddr.display
  | .victimVanished slot => "Eviction victim " ++ toString slot ++ " vanished during writeback"
  | .writebackFailed owner uaddr =>
      "Writeback of thread " ++ owner.display ++ " page " ++ uaddr.display ++ " failed"
  | .shortCopyIn copied wanted fault =>
      "Short copy from user: " ++ toString copied ++ "/" ++ toString wanted ++ " bytes, fault at "
        ++ hexUpper fault.toNat
  | .shortCopyOut copied wanted =>
      "Short copy to user: " ++ toString copied ++ "/" ++ toString wanted ++ " bytes"
  | .ready userTop chunk =>
      "Memory subsystem ready: user_top=" ++ hexUpper userTop.toNat ++ ", copy_chunk="
        ++ toString chunk

/-- The place in the code that a debug line ends with is left out, so that the line of a debug notice
ends with its text. -/
def Notice.record (notice : Notice) : Record where
  level := notice.level
  origin := notice.origin
  text := notice.text

/-- What is logged before a stop. Only the stops that memory management calls itself are announced;
failed checks of arithmetic and addresses are not. -/
def Halt.notice? : Halt → Option Notice
  | .unpinOfUnpinned id => some (.unpinOfUnpinned id)
  | .unpinOfStale id => some (.unpinOfStale id)
  | .handOnVacantSlot slot => some (.handOnVacantSlot slot)
  | .victimVanished slot => some (.victimVanished slot)
  | _ => none

def ReleaseOutcome.notice? (outcome : ReleaseOutcome) (page : Address) : Option Notice :=
  match outcome with
  | .accepted => none
  | .foreign => some (.foreignRelease page)
  | .outside => some (.outsideRelease page)
  | .alreadyFree => some (.doubleRelease page)
  | .unclaimed => some (.unclaimedRelease page)

def CopyIn.notice? (copy : CopyIn) : Option Notice :=
  copy.fault.map fun address => .shortCopyIn copy.copied copy.destination.length address

end KernelPaging
