import KernelPaging.Proofs.LockSections
import KernelPaging.Subsystem.Release

/-!
Many calls under way at once. A call is what remains to be done of an operation on the frame table,
and it proceeds by one atomic piece at a time: a section under the table lock, a call to the supply
of pages, or the call or the return of the writeback. The pieces of different calls may come in any
order, whether the calls run on several threads or one inside the writeback of another, and a call
that stops or is never scheduled again simply stays where it is.
-/

set_option autoImplicit false

namespace KernelPaging

/-- An eviction in flight: the request it serves, and the victim as it stood once selected. -/
structure Flight where
  request : Request
  eviction : Eviction
  victim : Frame

inductive Answer
  | allocated (result : Except AllocError Frame)
  | freed (outcome : FreeOutcome) (entry : Option FrameId)
  | unpinned
  | seen (frame : Option Frame)
  | cleared (table : SupplementalTable)
  | stopped (halt : Halt)

/-- A call, by what it does next. -/
inductive Call
  | obtain (request : Request)
  | bind (request : Request) (kpage : Address)
  | reclaim (request : Request)
  | write (flight : Flight)
  | await (flight : Flight)
  | finish (flight : Flight) (written : Bool)
  | hand (frame : Frame) (zero : Bool)
  | free (entry : Option FrameId)
  | unpin (id : FrameId)
  | look (id : FrameId)
  | tearDown (owner : ThreadId) (table : SupplementalTable)
  /-- Waits for the epoch to move away from `seen`, with the lock free. -/
  | doze (owner : ThreadId) (table : SupplementalTable) (seen : UInt64)
  | release (pages : List Address) (answer : Answer)

def Call.isEntry : Call → Bool
  | .obtain _ | .free _ | .unpin _ | .look _ | .tearDown .. => true
  | _ => false

def Call.flight? : Call → Option Flight
  | .write flight | .await flight | .finish flight _ => some flight
  | _ => none

inductive Outcome
  | goesOn (call : Call)
  | ends (answer : Answer)

def Outcome.calls : Outcome → List Call
  | .goesOn call => [call]
  | .ends _ => []

section Proceeding

variable {bits : Type} [AccessedBits bits]

inductive Call.Proceeds : Subsystem bits → Call → Outcome → Subsystem bits → Prop
  | obtained {subsystem : Subsystem bits} {request : Request} {kpage : Address}
      {supply : PageSupply} :
      subsystem.supply.obtain request.flags.withUser = .ok (some (kpage, supply)) →
      Proceeds subsystem (.obtain request) (.goesOn (.bind request kpage))
        { subsystem with
          supply
          memory :=
            if request.flags.withUser.zero then subsystem.memory.zeroPage kpage
            else subsystem.memory }
  | exhausted {subsystem : Subsystem bits} {request : Request} :
      subsystem.supply.obtain request.flags.withUser = .ok none →
      Proceeds subsystem (.obtain request) (.goesOn (.reclaim request)) subsystem
  | obtainStops {subsystem : Subsystem bits} {request : Request} {halt : Halt} :
      subsystem.supply.obtain request.flags.withUser = .error halt →
      Proceeds subsystem (.obtain request) (.ends (.stopped halt)) subsystem
  | bound {subsystem : Subsystem bits} {request : Request} {kpage : Address} {frame : Frame}
      {frames : FrameTable} :
      subsystem.frames.enroll request.owner request.uaddr kpage = .ok (frame, frames) →
      Proceeds subsystem (.bind request kpage) (.goesOn (.hand frame false))
        { subsystem with frames }
  | bindStops {subsystem : Subsystem bits} {request : Request} {kpage : Address} {halt : Halt} :
      subsystem.frames.enroll request.owner request.uaddr kpage = .error halt →
      Proceeds subsystem (.bind request kpage) (.ends (.stopped halt)) subsystem
  | selected {subsystem : Subsystem bits} {request : Request} {eviction : Eviction}
      {victim : Frame} {frames : FrameTable} {accessed : bits} :
      subsystem.frames.startEviction subsystem.accessed = .ok (.ok eviction, frames, accessed) →
      frames.frameAt? eviction.slot = some victim →
      Proceeds subsystem (.reclaim request) (.goesOn (.write { request, eviction, victim }))
        { subsystem with frames, accessed }
  | unselected {subsystem : Subsystem bits} {request : Request} {failure : AllocError}
      {frames : FrameTable} {accessed : bits} :
      subsystem.frames.startEviction subsystem.accessed =
        .ok (.error failure, frames, accessed) →
      Proceeds subsystem (.reclaim request) (.ends (.allocated (.error failure)))
        { subsystem with frames, accessed }
  | selectStops {subsystem : Subsystem bits} {request : Request} {halt : Halt} :
      subsystem.frames.startEviction subsystem.accessed = .error halt →
      Proceeds subsystem (.reclaim request) (.ends (.stopped halt)) subsystem
  | writes (subsystem : Subsystem bits) (flight : Flight) :
      Proceeds subsystem (.write flight) (.goesOn (.await flight)) subsystem
  | written (subsystem : Subsystem bits) (flight : Flight) (written : Bool) :
      Proceeds subsystem (.await flight) (.goesOn (.finish flight written)) subsystem
  | rebound {subsystem : Subsystem bits} {flight : Flight} {written : Bool} {frame : Frame}
      {frames : FrameTable} :
      subsystem.frames.finishEviction flight.eviction flight.request.owner flight.request.uaddr
        written = .ok (.rebound frame, frames) →
      Proceeds subsystem (.finish flight written)
        (.goesOn (.hand frame flight.request.flags.zero)) { subsystem with frames }
  | kept {subsystem : Subsystem bits} {flight : Flight} {written : Bool} {frames : FrameTable} :
      subsystem.frames.finishEviction flight.eviction flight.request.owner flight.request.uaddr
        written = .ok (.kept, frames) →
      Proceeds subsystem (.finish flight written) (.ends (.allocated (.error .writebackFailed)))
        { subsystem with frames }
  | vanished {subsystem : Subsystem bits} {flight : Flight} {written : Bool}
      {frames : FrameTable} :
      subsystem.frames.finishEviction flight.eviction flight.request.owner flight.request.uaddr
        written = .ok (.vanished, frames) →
      Proceeds subsystem (.finish flight written)
        (.ends (.stopped (.victimVanished flight.eviction.slot))) { subsystem with frames }
  | finishStops {subsystem : Subsystem bits} {flight : Flight} {written : Bool} {halt : Halt} :
      subsystem.frames.finishEviction flight.eviction flight.request.owner flight.request.uaddr
        written = .error halt →
      Proceeds subsystem (.finish flight written) (.ends (.stopped halt)) subsystem
  | handed (subsystem : Subsystem bits) (frame : Frame) (zero : Bool) :
      Proceeds subsystem (.hand frame zero) (.ends (.allocated (.ok frame)))
        { subsystem with
          memory := if zero then subsystem.memory.zeroPage frame.kpage else subsystem.memory }
  | freedNothing (subsystem : Subsystem bits) :
      Proceeds subsystem (.free none) (.ends (.freed .notResident none)) subsystem
  | freedStale {subsystem : Subsystem bits} {id : FrameId} {frames : FrameTable} :
      subsystem.frames.detach id = (.stale, frames) →
      Proceeds subsystem (.free (some id)) (.ends (.freed .notResident none))
        { subsystem with frames }
  | freedPinned {subsystem : Subsystem bits} {id : FrameId} {frames : FrameTable} :
      subsystem.frames.detach id = (.pinned, frames) →
      Proceeds subsystem (.free (some id)) (.ends (.freed .pinned (some id)))
        { subsystem with frames }
  | freed {subsystem : Subsystem bits} {id : FrameId} {record : FrameRecord}
      {frames : FrameTable} :
      subsystem.frames.detach id = (.removed record, frames) →
      Proceeds subsystem (.free (some id))
        (.goesOn (.release [record.kpage] (.freed .released none))) { subsystem with frames }
  | unpinned {subsystem : Subsystem bits} {id : FrameId} {frames : FrameTable} :
      subsystem.frames.unpin id = .ok frames →
      Proceeds subsystem (.unpin id) (.ends .unpinned) { subsystem with frames }
  | unpinStops {subsystem : Subsystem bits} {id : FrameId} {halt : Halt} :
      subsystem.frames.unpin id = .error halt →
      Proceeds subsystem (.unpin id) (.ends (.stopped halt)) subsystem
  | looked (subsystem : Subsystem bits) (id : FrameId) :
      Proceeds subsystem (.look id) (.ends (.seen (subsystem.frames.frame? id))) subsystem
  | dozes {subsystem : Subsystem bits} {owner : ThreadId} {table : SupplementalTable} :
      subsystem.frames.barrier.inFlight ≠ 0 →
      Proceeds subsystem (.tearDown owner table)
        (.goesOn (.doze owner table subsystem.frames.barrier.epoch)) subsystem
  | woken {subsystem : Subsystem bits} {owner : ThreadId} {table : SupplementalTable}
      {seen : UInt64} :
      subsystem.frames.barrier.epoch ≠ seen →
      Proceeds subsystem (.doze owner table seen) (.goesOn (.tearDown owner table)) subsystem
  | tornDown {subsystem : Subsystem bits} {owner : ThreadId} {table : SupplementalTable} :
      subsystem.frames.barrier.inFlight = 0 →
      Proceeds subsystem (.tearDown owner table)
        (.goesOn (.release ((subsystem.frames.removeNamed table).1.map FrameRecord.kpage)
          (.cleared (table.map fun _ => none))))
        { subsystem with frames := (subsystem.frames.removeNamed table).2 }
  | released {subsystem : Subsystem bits} {page : Address} {pages : List Address}
      {answer : Answer} {outcome : ReleaseOutcome} {supply : PageSupply} :
      subsystem.supply.release page = .ok (outcome, supply) →
      Proceeds subsystem (.release (page :: pages) answer) (.goesOn (.release pages answer))
        { subsystem with supply }
  | releaseStops {subsystem : Subsystem bits} {page : Address} {pages : List Address}
      {answer : Answer} {halt : Halt} :
      subsystem.supply.release page = .error halt →
      Proceeds subsystem (.release (page :: pages) answer) (.ends (.stopped halt)) subsystem
  | releasedAll (subsystem : Subsystem bits) (answer : Answer) :
      Proceeds subsystem (.release [] answer) (.ends answer) subsystem

end Proceeding

inductive Event
  | began (call : Call)
  | went (call : Call) (outcome : Outcome)
  /-- Anything done to memory management that leaves the frame table alone. -/
  | outside

structure Traffic (bits : Type) where
  subsystem : Subsystem bits
  calls : List Call := []

/-- The evictions that have selected a victim and have not finished. -/
def Traffic.flights {bits : Type} (traffic : Traffic bits) : List Flight :=
  traffic.calls.filterMap Call.flight?

def Traffic.resident {bits : Type} (traffic : Traffic bits) (slot : Nat) : Option Frame :=
  traffic.subsystem.frames.frameAt? slot

inductive Traffic.Step {bits : Type} [AccessedBits bits] :
    Traffic bits → Event → Traffic bits → Prop
  | begin {traffic : Traffic bits} {call : Call} : call.isEntry = true →
      Step traffic (.began call) { traffic with calls := call :: traffic.calls }
  | proceed {before after : Subsystem bits} {call : Call} {outcome : Outcome}
      {earlier later : List Call} : call.Proceeds before outcome after →
      Step ⟨before, earlier ++ call :: later⟩ (.went call outcome)
        ⟨after, earlier ++ (outcome.calls ++ later)⟩
  | outside {before after : Subsystem bits} {calls : List Call} :
      after.frames = before.frames → Step ⟨before, calls⟩ .outside ⟨after, calls⟩

structure Moment (bits : Type) where
  before : Traffic bits
  event : Event
  after : Traffic bits

/-- What has happened since the table was empty and no call was under way, the latest first, and the
state it led to. -/
inductive Traffic.Run {bits : Type} [AccessedBits bits] : List (Moment bits) → Traffic bits → Prop
  | start {subsystem : Subsystem bits} : subsystem.frames = {} → Run [] { subsystem }
  | step {history : List (Moment bits)} {before after : Traffic bits} {event : Event} :
      Run history before → before.Step event after → Run (⟨before, event, after⟩ :: history) after

/-! ### The life of an id -/

def Event.issued? : Event → Option FrameId
  | .went _ (.goesOn (.hand frame _)) => some frame.id
  | _ => none

def Event.unpinAsked? : Event → Option FrameId
  | .went (.unpin id) _ => some id
  | _ => none

def Event.unpinned? : Event → Option FrameId
  | .went (.unpin id) (.ends .unpinned) => some id
  | _ => none

section History

variable {bits : Type}

/-- Something has happened to an id since it was last issued. -/
def SinceIssue (happened? : Event → Option FrameId) (id : FrameId) : List (Moment bits) → Prop
  | [] => False
  | moment :: earlier =>
      happened? moment.event = some id ∨
        moment.event.issued? ≠ some id ∧ SinceIssue happened? id earlier

/-- An unpin of the id has returned normally since it was issued. -/
def Spent (id : FrameId) (history : List (Moment bits)) : Prop :=
  SinceIssue Event.unpinned? id history

/-- No unpin of an id returns normally a second time. -/
def AcceptedOnce : List (Moment bits) → Prop
  | [] => True
  | moment :: earlier => (∀ id ∈ moment.event.unpinned?, ¬ Spent id earlier) ∧ AcceptedOnce earlier

/-- No id that was issued is passed to unpin a second time. -/
def PassedOnce : List (Moment bits) → Prop
  | [] => True
  | moment :: earlier =>
      (∀ id ∈ moment.event.unpinAsked?, (∃ issue ∈ earlier, issue.event.issued? = some id) →
        ¬ SinceIssue Event.unpinAsked? id earlier) ∧ PassedOnce earlier

instance SinceIssue.decidable (happened? : Event → Option FrameId) (id : FrameId) :
    (history : List (Moment bits)) → Decidable (SinceIssue happened? id history)
  | [] => inferInstanceAs (Decidable False)
  | _ :: earlier =>
      have := SinceIssue.decidable happened? id earlier
      inferInstanceAs (Decidable (_ ∨ _ ∧ _))

instance (id : FrameId) (history : List (Moment bits)) : Decidable (Spent id history) :=
  inferInstanceAs (Decidable (SinceIssue _ _ _))

instance AcceptedOnce.decidable : (history : List (Moment bits)) → Decidable (AcceptedOnce history)
  | [] => inferInstanceAs (Decidable True)
  | _ :: earlier =>
      have := AcceptedOnce.decidable earlier
      inferInstanceAs (Decidable (_ ∧ _))

instance PassedOnce.decidable : (history : List (Moment bits)) → Decidable (PassedOnce history)
  | [] => inferInstanceAs (Decidable True)
  | _ :: earlier =>
      have := PassedOnce.decidable earlier
      inferInstanceAs (Decidable (_ ∧ _))

theorem SinceIssue.later {happened? : Event → Option FrameId} {id : FrameId}
    {moment : Moment bits} {earlier : List (Moment bits)}
    (since : SinceIssue happened? id earlier) (kept : moment.event.issued? ≠ some id) :
    SinceIssue happened? id (moment :: earlier) :=
  .inr ⟨kept, since⟩

theorem SinceIssue.earlier {happened? : Event → Option FrameId} {id : FrameId}
    {moment : Moment bits} {earlier : List (Moment bits)}
    (since : SinceIssue happened? id (moment :: earlier))
    (other : happened? moment.event ≠ some id) : SinceIssue happened? id earlier := by
  rcases since with now | ⟨_, before⟩
  · exact absurd now other
  · exact before

theorem Event.unpinAsked?_of_unpinned {event : Event} {id : FrameId}
    (unpinned : event.unpinned? = some id) : event.unpinAsked? = some id := by
  unfold Event.unpinned? at unpinned
  split at unpinned
  · exact unpinned
  · cases unpinned

theorem not_spent_of_issued {id : FrameId} {moment : Moment bits} {earlier : List (Moment bits)}
    (issued : moment.event.issued? = some id) : ¬ Spent id (moment :: earlier) := by
  rintro (unpinned | ⟨kept, _⟩)
  · unfold Event.unpinned? at unpinned
    split at unpinned
    · next happened =>
      rw [happened] at issued
      cases issued
    · cases unpinned
  · exact kept issued

theorem AcceptedOnce.later {moment : Moment bits} {earlier : List (Moment bits)}
    (once : AcceptedOnce earlier) (other : moment.event.unpinned? = none) :
    AcceptedOnce (moment :: earlier) := by
  refine ⟨?_, once⟩
  intro id unpinned
  cases other.symm.trans unpinned

theorem Spent.asked {id : FrameId} {history : List (Moment bits)} (spent : Spent id history) :
    SinceIssue Event.unpinAsked? id history := by
  induction history with
  | nil => exact spent
  | cons moment earlier ih =>
      rcases spent with now | ⟨kept, before⟩
      · exact .inl (Event.unpinAsked?_of_unpinned now)
      · exact .inr ⟨kept, ih before⟩

end History

end KernelPaging
