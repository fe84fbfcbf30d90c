import KernelPaging.Proofs.Victims

/-!
A thread that asks for its page back while that page is being written back. Until the writeback has
returned, the victim still counts as resident; a request that has a fresh page in hand by then stops
the kernel, and one that found the supply exhausted goes on like any other.
-/

set_option autoImplicit false

namespace KernelPaging

variable {bits : Type}

def Call.request? : Call → Option Request
  | .obtain request | .bind request _ | .reclaim request => some request
  | .write flight | .await flight | .finish flight _ => some flight.request
  | _ => none

/-- The request is for the page of a victim in flight. -/
def Traffic.Refaults (traffic : Traffic bits) (request : Request) : Prop :=
  ∃ flight ∈ traffic.flights,
    flight.victim.owner = request.owner ∧ flight.victim.uaddr = request.uaddr

def Moment.StopsRefault (moment : Moment bits) : Prop :=
  match moment.event with
  | .went call (.ends (.stopped _)) =>
      ∃ request ∈ call.request?, moment.before.Refaults request
  | _ => False

def Moment.asksResident (moment : Moment bits) : Bool :=
  match moment.event with
  | .began (.obtain request) =>
      moment.before.subsystem.frames.isBound request.owner request.uaddr
  | _ => false

instance (traffic : Traffic bits) (request : Request) : Decidable (traffic.Refaults request) :=
  inferInstanceAs (Decidable (∃ _ ∈ _, _))

instance (moment : Moment bits) : Decidable moment.StopsRefault := by
  unfold Moment.StopsRefault
  split
  · infer_instance
  · infer_instance

section Runs

variable {history : List (Moment bits)} {traffic : Traffic bits} {request : Request}

theorem Traffic.Held.bound (held : traffic.Held history) (refaults : traffic.Refaults request) :
    traffic.subsystem.frames.isBound request.owner request.uaddr = true := by
  obtain ⟨flight, member, owner, uaddr⟩ := refaults
  exact FrameTable.isBound_iff.mpr ⟨_, _, held.resident flight member, owner, uaddr⟩

variable [AccessedBits bits]

theorem Call.proceeds_of_request {subsystem : Subsystem bits} {call : Call}
    (serves : call.request? = some request) (wellFormed : subsystem.frames.WellFormed) :
    ∃ outcome after, call.Proceeds subsystem outcome after := by
  cases call with
  | obtain request =>
      cases answer : subsystem.supply.obtain request.flags.withUser with
      | error halt => exact ⟨_, _, .obtainStops answer⟩
      | ok result =>
          cases result with
          | none => exact ⟨_, _, .exhausted answer⟩
          | some _ => exact ⟨_, _, .obtained answer⟩
  | bind request kpage =>
      cases answer : subsystem.frames.enroll request.owner request.uaddr kpage with
      | error halt => exact ⟨_, _, .bindStops answer⟩
      | ok _ => exact ⟨_, _, .bound answer⟩
  | reclaim request =>
      cases answer : subsystem.frames.startEviction subsystem.accessed with
      | error halt => exact ⟨_, _, .selectStops answer⟩
      | ok started =>
          obtain ⟨result, frames, accessed⟩ := started
          cases result with
          | error failure => exact ⟨_, _, .unselected answer⟩
          | ok eviction =>
              obtain ⟨victim, _, _, _, map, _⟩ :=
                FrameTable.startEviction_spec wellFormed answer
              have held := congrFun map eviction.slot
              rw [Function.update_self] at held
              exact ⟨_, _, .selected answer held⟩
  | write flight => exact ⟨_, _, .writes _ _⟩
  | await flight => exact ⟨_, _, .written _ _ true⟩
  | finish flight written =>
      cases answer : subsystem.frames.finishEviction flight.eviction flight.request.owner
        flight.request.uaddr written with
      | error halt => exact ⟨_, _, .finishStops answer⟩
      | ok finished =>
          obtain ⟨ending, frames⟩ := finished
          cases ending with
          | rebound frame => exact ⟨_, _, .rebound answer⟩
          | kept => exact ⟨_, _, .kept answer⟩
          | vanished => exact ⟨_, _, .vanished answer⟩
  | _ => cases serves

theorem Traffic.Step.of_proceeds {call : Call} {outcome : Outcome} {after : Subsystem bits}
    (underWay : call ∈ traffic.calls) (proceeds : call.Proceeds traffic.subsystem outcome after) :
    ∃ next, traffic.Step (.went call outcome) next := by
  obtain ⟨subsystem, calls⟩ := traffic
  obtain ⟨earlier, later, rfl⟩ := List.append_of_mem underWay
  exact ⟨_, .proceed proceeds⟩

/-- A request for the page of a victim in flight can always go on. It stops the kernel whenever it
has a fresh page to bind, and otherwise only where the supply or the accessed bits do. -/
theorem Traffic.Run.refault_stops (run : Traffic.Run history traffic) (once : PassedOnce history)
    (refaults : traffic.Refaults request) {call : Call} (underWay : call ∈ traffic.calls)
    (serves : call.request? = some request) :
    (∃ outcome after, traffic.Step (.went call outcome) after) ∧
    ∀ outcome after, traffic.Step (.went call outcome) after →
      (∀ kpage, call = .bind request kpage →
        outcome = .ends (.stopped (.alreadyResident request.owner request.uaddr))) ∧
      ∀ halt, outcome = .ends (.stopped halt) → (∀ kpage, call ≠ .bind request kpage) →
        call = .obtain request ∧
            traffic.subsystem.supply.obtain request.flags.withUser = .error halt ∨
          call = .reclaim request ∧ AccessedBits.Stops bits halt := by
  have accepted := once.acceptedOnce run
  have bound := (run.held accepted).bound refaults
  refine ⟨?_, ?_⟩
  · obtain ⟨outcome, after, proceeds⟩ := Call.proceeds_of_request serves run.sound.wellFormed
    obtain ⟨next, step⟩ := Traffic.Step.of_proceeds underWay proceeds
    exact ⟨outcome, next, step⟩
  · intro outcome after step
    refine ⟨?_, ?_⟩
    · rintro kpage rfl
      cases step with
      | proceed proceeds =>
          cases proceeds with
          | bound enrolled =>
              have fresh := (FrameTable.enroll_spec run.sound.wellFormed enrolled).1
              cases bound.symm.trans fresh
          | bindStops refused =>
              obtain ⟨_, rfl⟩ := FrameTable.enroll_error_iff.mp refused
              rfl
    · rintro halt rfl notBind
      have silent : (Event.went call (.ends (.stopped halt))).unpinned? = none := by
        unfold Event.unpinned?
        split
        · next happened => cases happened
        · rfl
      have stops := (run.step step).eviction_stops (accepted.later silent) List.mem_cons_self
      cases call with
      | obtain asked =>
          cases serves
          cases step with
          | proceed proceeds =>
              cases proceeds with
              | obtainStops refused => exact .inl ⟨rfl, refused⟩
      | bind asked kpage =>
          cases serves
          exact absurd rfl (notBind kpage)
      | reclaim asked =>
          cases serves
          exact .inr ⟨rfl, stops.1 _ halt rfl⟩
      | write flight | await flight =>
          cases step with
          | proceed proceeds => cases proceeds
      | finish flight written => exact absurd rfl (stops.2 flight written halt)
      | _ => cases serves

end Runs

/-- Both frames are unpinned and the first one is being written back for thread 3. Meanwhile the
other one is freed, and thread 1, whose page is on its way out, gets its page to come back with. -/
def Traffic.refaulting : List (Moment TouchedSet) × Traffic TouchedSet :=
  Traffic.play
    (Move.through (.obtain (.simple 1)) 3 ++ Move.through (.obtain (.simple 2)) 3 ++
      Move.through (.unpin ⟨0, 0⟩) 1 ++ Move.through (.unpin ⟨1, 0⟩) 1 ++
      Move.through (.obtain (.simple 3)) 3 ++ Move.through (.free (some ⟨1, 0⟩)) 3 ++
      Move.through (.obtain (.simple 1)) 1)
    ([], Traffic.idle 2)

theorem Traffic.run_refaulting : Traffic.Run Traffic.refaulting.1 Traffic.refaulting.2 :=
  (Traffic.run_idle 2).play _

theorem Traffic.refaulting_calls : Traffic.refaulting.2.calls =
    [.bind (.simple 1) ⟨4096, .inl (by decide)⟩, .await ⟨.simple 3, ⟨0, ⟨1⟩, default⟩, .first⟩] := by
  cbv

theorem Traffic.refaulting_stops : PassedOnce Traffic.refaulting.1 ∧
    Traffic.refaulting.2.Refaults (.simple 1) ∧
    ∃ kpage outcome after,
      Traffic.refaulting.2.Step (.went (.bind (.simple 1) kpage) outcome) after ∧
      outcome = .ends (.stopped (.alreadyResident ⟨1⟩ default)) := by
  have once : PassedOnce Traffic.refaulting.1 := by decide +kernel
  have refaults : Traffic.refaulting.2.Refaults (.simple 1) := by decide +kernel
  have underWay : .bind (.simple 1) ⟨4096, .inl (by decide)⟩ ∈ Traffic.refaulting.2.calls := by
    rw [Traffic.refaulting_calls]
    exact List.mem_cons_self
  obtain ⟨⟨outcome, after, step⟩, stops⟩ :=
    Traffic.run_refaulting.refault_stops once refaults underWay rfl
  exact ⟨once, refaults, _, outcome, after, step, (stops outcome after step).1 _ rfl⟩

/-- With every other request for a page that is not resident, a request for the page of a victim in
flight may still stop the kernel. -/
theorem refaultsServed_fails : ¬ ∀ (history : List (Moment TouchedSet))
    (traffic : Traffic TouchedSet), Traffic.Run history traffic → PassedOnce history →
      history.countP Moment.asksResident ≤ 1 → ∀ moment ∈ history, ¬ moment.StopsRefault := by
  intro always
  have run := Traffic.run_refaulting.play [.proceed 0 true]
  have stopped := always _ _ run (by decide +kernel) (by decide +kernel)
  revert stopped
  decide +kernel

end KernelPaging
