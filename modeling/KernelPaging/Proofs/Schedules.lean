import KernelPaging.Accessed.Store
import KernelPaging.Proofs.Traffic

/-!
Runs that can be computed. A schedule says which call begins or proceeds next, and what a writeback
answers; playing it gives a run.
-/

set_option autoImplicit false

namespace KernelPaging

variable {bits : Type} [AccessedBits bits]

/-- Performs the next piece of a call, unless the call has to wait. A writeback that is running
answers as told. -/
def Call.perform (subsystem : Subsystem bits) (answer : Bool) :
    Call → Option (Outcome × Subsystem bits)
  | .obtain request =>
      match subsystem.supply.obtain request.flags.withUser with
      | .error halt => some (.ends (.stopped halt), subsystem)
      | .ok none => some (.goesOn (.reclaim request), subsystem)
      | .ok (some (kpage, supply)) =>
          some (.goesOn (.bind request kpage),
            { subsystem with
              supply
              memory :=
                if request.flags.withUser.zero then subsystem.memory.zeroPage kpage
                else subsystem.memory })
  | .bind request kpage =>
      match subsystem.frames.enroll request.owner request.uaddr kpage with
      | .error halt => some (.ends (.stopped halt), subsystem)
      | .ok (frame, frames) => some (.goesOn (.hand frame false), { subsystem with frames })
  | .reclaim request =>
      match subsystem.frames.startEviction subsystem.accessed with
      | .error halt => some (.ends (.stopped halt), subsystem)
      | .ok (.error failure, frames, accessed) =>
          some (.ends (.allocated (.error failure)), { subsystem with frames, accessed })
      | .ok (.ok eviction, frames, accessed) =>
          (frames.frameAt? eviction.slot).map fun victim =>
            (.goesOn (.write { request, eviction, victim }), { subsystem with frames, accessed })
  | .write flight => some (.goesOn (.await flight), subsystem)
  | .await flight => some (.goesOn (.finish flight answer), subsystem)
  | .finish flight written =>
      match subsystem.frames.finishEviction flight.eviction flight.request.owner
        flight.request.uaddr written with
      | .error halt => some (.ends (.stopped halt), subsystem)
      | .ok (.rebound frame, frames) =>
          some (.goesOn (.hand frame flight.request.flags.zero), { subsystem with frames })
      | .ok (.kept, frames) =>
          some (.ends (.allocated (.error .writebackFailed)), { subsystem with frames })
      | .ok (.vanished, frames) =>
          some (.ends (.stopped (.victimVanished flight.eviction.slot)),
            { subsystem with frames })
  | .hand frame zero =>
      some (.ends (.allocated (.ok frame)),
        { subsystem with
          memory := if zero then subsystem.memory.zeroPage frame.kpage else subsystem.memory })
  | .free none => some (.ends (.freed .notResident none), subsystem)
  | .free (some id) =>
      match subsystem.frames.detach id with
      | (.stale, frames) => some (.ends (.freed .notResident none), { subsystem with frames })
      | (.pinned, frames) => some (.ends (.freed .pinned (some id)), { subsystem with frames })
      | (.removed record, frames) =>
          some (.goesOn (.release [record.kpage] (.freed .released none)),
            { subsystem with frames })
  | .unpin id =>
      match subsystem.frames.unpin id with
      | .error halt => some (.ends (.stopped halt), subsystem)
      | .ok frames => some (.ends .unpinned, { subsystem with frames })
  | .look id => some (.ends (.seen (subsystem.frames.frame? id)), subsystem)
  | .tearDown owner table =>
      if subsystem.frames.barrier.inFlight = 0 then
        some (.goesOn (.release ((subsystem.frames.removeNamed table).1.map FrameRecord.kpage)
            (.cleared (table.map fun _ => none))),
          { subsystem with frames := (subsystem.frames.removeNamed table).2 })
      else
        some (.goesOn (.doze owner table subsystem.frames.barrier.epoch), subsystem)
  | .doze owner table seen =>
      if subsystem.frames.barrier.epoch = seen then
        none
      else
        some (.goesOn (.tearDown owner table), subsystem)
  | .release [] answer => some (.ends answer, subsystem)
  | .release (page :: pages) answer =>
      match subsystem.supply.release page with
      | .error halt => some (.ends (.stopped halt), subsystem)
      | .ok (_, supply) => some (.goesOn (.release pages answer), { subsystem with supply })

theorem Call.proceeds_of_perform {before after : Subsystem bits} {answer : Bool} {call : Call}
    {outcome : Outcome} (performed : call.perform before answer = some (outcome, after)) :
    call.Proceeds before outcome after := by
  unfold Call.perform at performed
  split at performed
  · split at performed
    · next obtained => cases performed; exact .obtainStops obtained
    · next obtained => cases performed; exact .exhausted obtained
    · next obtained => cases performed; exact .obtained obtained
  · split at performed
    · next enrolled => cases performed; exact .bindStops enrolled
    · next enrolled => cases performed; exact .bound enrolled
  · split at performed
    · next started => cases performed; exact .selectStops started
    · next started => cases performed; exact .unselected started
    · next started =>
      obtain ⟨victim, held, same⟩ := Option.map_eq_some_iff.mp performed
      cases same
      exact .selected started held
  · cases performed; exact .writes _ _
  · cases performed; exact .written _ _ _
  · split at performed
    · next finished => cases performed; exact .finishStops finished
    · next finished => cases performed; exact .rebound finished
    · next finished => cases performed; exact .kept finished
    · next finished => cases performed; exact .vanished finished
  · cases performed; exact .handed _ _ _
  · cases performed; exact .freedNothing _
  · split at performed
    · next detached => cases performed; exact .freedStale detached
    · next detached => cases performed; exact .freedPinned detached
    · next detached => cases performed; exact .freed detached
  · split at performed
    · next refused => cases performed; exact .unpinStops refused
    · next unpinned => cases performed; exact .unpinned unpinned
  · cases performed; exact .looked _ _
  · split at performed
    · next idle => cases performed; exact .tornDown idle
    · next busy => cases performed; exact .dozes busy
  · split at performed
    · cases performed
    · next moved => cases performed; exact .woken moved
  · cases performed; exact .releasedAll _ _
  · split at performed
    · next refused => cases performed; exact .releaseStops refused
    · next released => cases performed; exact .released released

theorem Call.proceeds_iff {before after : Subsystem bits} {call : Call} {outcome : Outcome} :
    call.Proceeds before outcome after ↔
      ∃ answer, call.perform before answer = some (outcome, after) := by
  constructor
  · intro proceeds
    cases proceeds with
    | written flight written => exact ⟨written, rfl⟩
    | _ => exact ⟨true, by simp [Call.perform, *]⟩
  · rintro ⟨answer, performed⟩
    exact Call.proceeds_of_perform performed

inductive Move
  | begin (call : Call)
  | proceed (place : Nat) (answer : Bool)

def Traffic.perform (traffic : Traffic bits) : Move → Option (Event × Traffic bits)
  | .begin call =>
      if call.isEntry then
        some (.began call, { traffic with calls := call :: traffic.calls })
      else
        none
  | .proceed place answer =>
      match traffic.calls.drop place with
      | [] => none
      | call :: later =>
          (call.perform traffic.subsystem answer).map fun (outcome, after) =>
            (.went call outcome, ⟨after, traffic.calls.take place ++ (outcome.calls ++ later)⟩)

theorem Traffic.step_of_perform {before after : Traffic bits} {move : Move} {event : Event}
    (performed : before.perform move = some (event, after)) : before.Step event after := by
  cases move with
  | begin call =>
      unfold Traffic.perform at performed
      dsimp only at performed
      split at performed
      · next entry =>
        cases performed
        exact .begin entry
      · cases performed
  | proceed place answer =>
      obtain ⟨subsystem, calls⟩ := before
      unfold Traffic.perform at performed
      dsimp only at performed
      split at performed
      · cases performed
      · next call later found =>
        obtain ⟨⟨outcome, next⟩, piece, same⟩ := Option.map_eq_some_iff.mp performed
        cases same
        have whole : calls = calls.take place ++ call :: later := by
          rw [← found, List.take_append_drop]
        have step : Traffic.Step ⟨subsystem, calls.take place ++ call :: later⟩
            (.went call outcome) ⟨next, calls.take place ++ (outcome.calls ++ later)⟩ :=
          .proceed (Call.proceeds_of_perform piece)
        rw [← whole] at step
        exact step

/-- Plays a schedule from a state on, after what has happened before. Moves that are not possible
are left out. -/
def Traffic.play : List Move → List (Moment bits) × Traffic bits → List (Moment bits) × Traffic bits
  | [], run => run
  | move :: moves, (history, traffic) =>
      match traffic.perform move with
      | none => Traffic.play moves (history, traffic)
      | some (event, after) => Traffic.play moves (⟨traffic, event, after⟩ :: history, after)

theorem Traffic.Run.play (moves : List Move) :
    ∀ {history : List (Moment bits)} {traffic : Traffic bits}, Traffic.Run history traffic →
      Traffic.Run (Traffic.play moves (history, traffic)).1
        (Traffic.play moves (history, traffic)).2 := by
  induction moves with
  | nil =>
      intro history traffic run
      exact run
  | cons move moves ih =>
      intro history traffic run
      unfold Traffic.play
      cases performed : traffic.perform move with
      | none => exact ih run
      | some next => exact ih (run.step (Traffic.step_of_perform performed))

/-! ### Schedules from an idle state -/

/-- Nothing is resident and no call is under way. The supply has some pages from address zero on. -/
def Traffic.idle (pages : Nat) : Traffic TouchedSet where
  subsystem :=
    { supply := .single { PageRegion.empty with bitmap := .allFree pages }
      accessed := {} }

theorem Traffic.run_idle (pages : Nat) : Traffic.Run [] (Traffic.idle pages) :=
  .start rfl

def Request.simple (owner : UInt64) : Request where
  owner := ⟨owner⟩
  uaddr := default
  flags := ⟨0⟩

def Frame.first : Frame where
  id := ⟨0, 0⟩
  owner := ⟨1⟩
  uaddr := default
  kpage := default
  pinned := true

def Move.through (call : Call) (pieces : Nat) : List Move :=
  .begin call :: List.replicate pieces (.proceed 0 true)

/-- The only frame of a supply of one page has come in and was unpinned, and is being written back
for a second thread. -/
def Traffic.midWriteback : List (Moment TouchedSet) × Traffic TouchedSet :=
  Traffic.play
    (Move.through (.obtain (.simple 1)) 3 ++ Move.through (.unpin ⟨0, 0⟩) 1 ++
      Move.through (.obtain (.simple 2)) 3)
    ([], Traffic.idle 1)

theorem Traffic.run_midWriteback : Traffic.Run Traffic.midWriteback.1 Traffic.midWriteback.2 :=
  (Traffic.run_idle 1).play _

end KernelPaging
