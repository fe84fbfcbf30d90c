import KernelPaging.Proofs.Holdings
import KernelPaging.Proofs.Names
import KernelPaging.Proofs.Victims

/-!
What the pin of a client is worth. The same bit also marks the victims of evictions, and several
paths clear it, but until the client asks to unpin its frame, or its thread is torn down, the frame
stays resident, pinned and the only one with its page.
-/

set_option autoImplicit false

namespace KernelPaging

variable {bits : Type}

/-- The frame of the id is unpinned, or torn down with a table that has an entry for it. -/
def Event.GivesUp (id : FrameId) : Event → Prop
  | .went (.unpin other) _ => other = id
  | .went (.tearDown _ table) (.goesOn (.release ..)) => some id ∈ table
  | _ => False

instance Event.decidableGivesUp (id : FrameId) (event : Event) : Decidable (event.GivesUp id) := by
  unfold Event.GivesUp
  split
  · infer_instance
  · infer_instance
  · infer_instance

/-- The frame was issued, and was not given up since. -/
def Guarded (frame : Frame) : List (Moment bits) → Prop
  | [] => False
  | moment :: earlier =>
      moment.event.issue? = some frame ∨
        ¬ moment.event.GivesUp frame.id ∧ Guarded frame earlier

/-- No frame is given up before the allocation it was issued to has returned: until then nobody
knows its id. -/
def GivenUpReturned (history : List (Moment bits)) : Prop :=
  ∀ moment ∈ history, ∀ frame ∈ moment.before.pending, ¬ moment.event.GivesUp frame.id

instance Guarded.decidable (frame : Frame) :
    (history : List (Moment bits)) → Decidable (Guarded frame history)
  | [] => inferInstanceAs (Decidable False)
  | _ :: earlier =>
      have := Guarded.decidable frame earlier
      inferInstanceAs (Decidable (_ ∨ _ ∧ _))

instance (history : List (Moment bits)) : Decidable (GivenUpReturned history) :=
  inferInstanceAs (Decidable (∀ _ ∈ _, ∀ _ ∈ _, _))

theorem Event.givesUp_of_unpinned {event : Event} {id : FrameId}
    (unpinned : event.unpinned? = some id) : event.GivesUp id := by
  unfold Event.unpinned? at unpinned
  split at unpinned
  · exact Option.some.inj unpinned
  · cases unpinned

theorem Event.TakesOut.givesUp {event : Event} {frame : Frame} (takesOut : event.TakesOut frame)
    (pinned : frame.pinned = true) : event.GivesUp frame.id := by
  unfold Event.TakesOut at takesOut
  split at takesOut
  · cases pinned.symm.trans takesOut.2
  · exact takesOut
  · cases takesOut

theorem Guarded.not_spent {frame : Frame} {history : List (Moment bits)}
    (guarded : Guarded frame history) : ¬ Spent frame.id history := by
  induction history with
  | nil => cases guarded
  | cons moment earlier ih =>
      cases guarded with
      | inl issue => exact not_spent_of_issued (Event.issued?_of_issue issue)
      | inr kept =>
          intro spent
          cases spent with
          | inl now => exact kept.1 (Event.givesUp_of_unpinned now)
          | inr before => exact ih kept.2 before.2

section Runs

variable {history : List (Moment bits)} {traffic : Traffic bits} {frame : Frame}

/-- A guarded frame has not been unpinned, so no eviction has it as its victim. -/
theorem Guarded.not_victim (guarded : Guarded frame history) (held : traffic.Held history)
    (resident : traffic.resident frame.id.index = some frame) :
    ∀ flight ∈ traffic.flights, flight.eviction.slot ≠ frame.id.index := by
  intro flight member same
  exact guarded.not_spent (held.spent _ frame resident (.inr ⟨flight, member, same⟩))

variable [AccessedBits bits]

theorem Traffic.Run.guarded_resident (run : Traffic.Run history traffic)
    (once : AcceptedOnce history) (guarded : Guarded frame history) :
    traffic.resident frame.id.index = some frame ∧ frame.pinned = true := by
  induction run with
  | start _ => cases guarded
  | @step earlier before after event run step ih =>
      have held := (run.step step).held once
      have fresh := guarded.not_spent
      cases guarded with
      | inl issue =>
          have issued := step.issue run.sound.wellFormed issue
          exact ⟨issued.2.1, issued.1⟩
      | inr kept =>
          obtain ⟨resident, pinned⟩ := ih once.2 kept.2
          refine ⟨?_, pinned⟩
          cases step.turn run.sound.wellFormed frame.id.index with
          | empty empty _ _ | comes _ empty _ _ => cases resident.symm.trans empty
          | @stays _ left there now _ =>
              cases resident.symm.trans there
              cases left with
              | true =>
                  rw [← pinned] at now
                  exact now
              | false =>
                  -- Only an accepted unpin leaves a frame unpinned that is nobody's victim.
                  exact absurd (held.spent _ _ now (.inl rfl)) fresh
          | leaves takesOut there _ _ =>
              cases resident.symm.trans there
              exact absurd (takesOut.givesUp pinned) kept.1
          | @passes flight _ _ _ happened slot _ _ _ _ =>
              cases happened
              have inFlight : flight ∈ before.flights :=
                List.mem_filterMap.mpr ⟨_, step.mem_calls, rfl⟩
              exact absurd slot
                (kept.2.not_victim (run.held once.2) resident _ inFlight)

theorem Traffic.Run.pending_guarded (run : Traffic.Run history traffic)
    (returned : GivenUpReturned history) : ∀ frame ∈ traffic.pending, Guarded frame history := by
  induction run with
  | start _ =>
      intro frame impossible
      cases impossible
  | @step earlier before after event run step ih =>
      intro frame member
      have origin := step.pending.symm.subset (List.mem_append_right _ member)
      cases List.mem_append.mp origin with
      | inl issue => exact .inl (Option.mem_toList.mp issue)
      | inr sooner =>
          have kept := returned _ List.mem_cons_self frame sooner
          have rest : GivenUpReturned earlier := by
            intro moment past
            exact returned moment (List.mem_cons_of_mem _ past)
          exact .inr ⟨kept, ih rest frame sooner⟩

/-- The three places that could take a pin away leave the frame alone. -/
structure Moment.Spares (moment : Moment bits) (frame : Frame) : Prop where
  sweep : ∀ request flight, moment.event = .went (.reclaim request) (.goesOn (.write flight)) →
    flight.eviction.slot ≠ frame.id.index
  free : ∀ outcome, moment.event = .went (.free (some frame.id)) outcome →
    outcome = .ends (.freed .pinned (some frame.id)) ∧
      moment.after.subsystem.frames = moment.before.subsystem.frames
  failure : ∀ flight outcome, moment.event = .went (.finish flight false) outcome →
    moment.after.resident frame.id.index = some frame

theorem Traffic.Step.sweep_spares {after : Traffic bits} {request : Request} {flight : Flight}
    (step : traffic.Step (.went (.reclaim request) (.goesOn (.write flight))) after)
    (wellFormed : traffic.subsystem.frames.WellFormed)
    (resident : traffic.resident frame.id.index = some frame) (pinned : frame.pinned = true) :
    flight.eviction.slot ≠ frame.id.index := by
  intro same
  cases step with
  | proceed proceeds =>
      cases proceeds with
      | selected started _ =>
          obtain ⟨victim, there, unpinned, _⟩ :=
            FrameTable.startEviction_spec wellFormed started
          dsimp only at same
          rw [same] at there
          cases resident.symm.trans there
          cases pinned.symm.trans unpinned

theorem Traffic.Step.free_spares {after : Traffic bits} {outcome : Outcome}
    (step : traffic.Step (.went (.free (some frame.id)) outcome) after)
    (resident : traffic.resident frame.id.index = some frame) (pinned : frame.pinned = true) :
    outcome = .ends (.freed .pinned (some frame.id)) ∧
      after.subsystem.frames = traffic.subsystem.frames := by
  have named : traffic.subsystem.frames.frame? frame.id = some frame :=
    FrameTable.frame?_eq_some_iff.mpr ⟨resident, rfl⟩
  have refused := FrameTable.detach_of_pinned named pinned
  cases step with
  | proceed proceeds =>
      cases proceeds with
      | freedPinned detached => exact ⟨rfl, FrameTable.detach_kept detached (by simp)⟩
      | freedStale detached => cases refused.symm.trans detached
      | freed detached => cases refused.symm.trans detached

theorem Traffic.Step.failure_spares {after : Traffic bits} {flight : Flight} {outcome : Outcome}
    (step : traffic.Step (.went (.finish flight false) outcome) after)
    (sound : traffic.Sound)
    (others : ∀ flight ∈ traffic.flights, flight.eviction.slot ≠ frame.id.index)
    (resident : traffic.resident frame.id.index = some frame) :
    after.resident frame.id.index = some frame := by
  have elsewhere := others flight (List.mem_filterMap.mpr ⟨_, step.mem_calls, rfl⟩)
  cases step with
  | proceed proceeds =>
      cases proceeds with
      | kept finished =>
          cases (FrameTable.finishEviction_spec sound.wellFormed finished).1 with
          | kept map =>
              refine (congrFun map frame.id.index).trans ?_
              rw [Function.update_of_ne elsewhere.symm]
              exact resident
      | rebound finished | vanished finished =>
          cases (FrameTable.finishEviction_spec sound.wellFormed finished).1
      | finishStops _ => exact resident

theorem Traffic.Run.spares (run : Traffic.Run history traffic) (once : AcceptedOnce history)
    (guarded : Guarded frame history) {event : Event} {after : Traffic bits}
    (step : traffic.Step event after) : Moment.Spares ⟨traffic, event, after⟩ frame := by
  obtain ⟨resident, pinned⟩ := run.guarded_resident once guarded
  constructor
  · rintro request flight rfl
    exact step.sweep_spares run.sound.wellFormed resident pinned
  · rintro outcome rfl
    exact step.free_spares resident pinned
  · rintro flight outcome rfl
    exact step.failure_spares run.sound (guarded.not_victim (run.held once) resident) resident

/-! ### The page of a guarded frame -/

theorem Traffic.Run.guarded_kpage (run : Traffic.Run history traffic)
    (once : AcceptedOnce history) (free : HandsOutFree history)
    (guarded : Guarded frame history) {slot : Nat} {other : Frame}
    (resident : traffic.resident slot = some other) (same : other.kpage = frame.kpage) :
    other = frame := by
  have mine := (run.guarded_resident once guarded).1
  have distinct := (List.nodup_append.mp (run.holding free).once).2.1
  have slots := FrameTable.slot_eq_of_kpage distinct resident mine same
  subst slots
  exact Option.some.inj (resident.symm.trans mine)

theorem Traffic.Run.guarded_page_not_in_hand (run : Traffic.Run history traffic)
    (once : AcceptedOnce history) (free : HandsOutFree history)
    (guarded : Guarded frame history) : ∀ call ∈ traffic.calls, frame.kpage ∉ call.pages := by
  intro call member inHand
  have mine := (run.guarded_resident once guarded).1
  have apart := (List.nodup_append.mp (run.holding free).once).2.2
  exact apart _ (List.mem_flatMap.mpr ⟨call, member, inHand⟩) _
    (FrameTable.mem_pages_iff.mpr ⟨_, frame, mine, rfl⟩) rfl

theorem Traffic.Step.issue_only {event : Event} {after : Traffic bits}
    (step : traffic.Step event after) {other : Frame} (issue : event.issue? = some other)
    (id : FrameId) :
    ¬ event.GivesUp id ∧ event.unpinned? = none ∧ event.obtained? = none := by
  cases step with
  | begin _ | outside _ => cases issue
  | proceed proceeds =>
      cases proceeds with
      | bound _ | rebound _ => exact ⟨not_false, rfl, rfl⟩
      | _ => cases issue

theorem Traffic.Run.guarded_page_not_issued (run : Traffic.Run history traffic)
    (once : AcceptedOnce history) (free : HandsOutFree history) (guarded : Guarded frame history)
    {event : Event} {after : Traffic bits} (step : traffic.Step event after) {other : Frame}
    (issue : event.issue? = some other) : other.kpage ≠ frame.kpage := by
  intro same
  obtain ⟨kept, notUnpinned, notObtained⟩ := step.issue_only issue frame.id
  have issued := step.issue run.sound.wellFormed issue
  have onceAfter : AcceptedOnce (⟨traffic, event, after⟩ :: history) := once.later notUnpinned
  have freeAfter : HandsOutFree (⟨traffic, event, after⟩ :: history) := by
    refine ⟨?_, free⟩
    intro page obtained
    cases notObtained.symm.trans obtained
  have guardedAfter : Guarded frame (⟨traffic, event, after⟩ :: history) := .inr ⟨kept, guarded⟩
  have isFrame := (run.step step).guarded_kpage onceAfter freeAfter guardedAfter issued.2.1 same
  subst isFrame
  have named := Traffic.frame?_of_resident (run.guarded_resident once guarded).1
  cases named.symm.trans (step.issue_unnamed run.sound.wellFormed issue)

theorem Traffic.Run.guarded_page_returned (run : Traffic.Run history traffic)
    (once : AcceptedOnce history) (free : HandsOutFree history)
    (known : GivenUpReturned history) (guarded : Guarded frame history)
    {event : Event} {after : Traffic bits} (step : traffic.Step event after) {other : Frame}
    (returned : event.returned? = some other) (same : other.kpage = frame.kpage) :
    other = frame := by
  have pending : other ∈ traffic.pending := by
    have origin := step.pending.symm.subset
      (List.mem_append_left _ (Option.mem_toList.mpr returned))
    cases List.mem_append.mp origin with
    | inr sooner => exact sooner
    | inl issue =>
        unfold Event.returned? at returned
        split at returned
        · cases issue
        · cases returned
  have alsoGuarded := run.pending_guarded known other pending
  exact run.guarded_kpage once free guarded (run.guarded_resident once alsoGuarded).1 same

/-- From its issue until it is given up, a frame is found under its id as it was issued, no sweep,
free or failed writeback touches it, and nobody else gets its page. -/
theorem Traffic.Run.pins_protect (run : Traffic.Run history traffic) (once : PassedOnce history)
    (guarded : Guarded frame history) :
    traffic.subsystem.frames.frame? frame.id = some frame ∧ frame.pinned = true ∧
    (∀ flight ∈ traffic.flights, flight.eviction.slot ≠ frame.id.index) ∧
    (∀ event after, traffic.Step event after → Moment.Spares ⟨traffic, event, after⟩ frame) ∧
    (HandsOutFree history →
      (∀ slot other, traffic.resident slot = some other → other.kpage = frame.kpage →
        other = frame) ∧
      (∀ call ∈ traffic.calls, frame.kpage ∉ call.pages) ∧
      ∀ event after, traffic.Step event after →
        (∀ other, event.issue? = some other → other.kpage ≠ frame.kpage) ∧
        (GivenUpReturned history →
          ∀ other, event.returned? = some other → other.kpage = frame.kpage → other = frame)) := by
  have accepted := once.acceptedOnce run
  obtain ⟨resident, pinned⟩ := run.guarded_resident accepted guarded
  refine ⟨Traffic.frame?_of_resident resident, pinned, ?_, ?_, ?_⟩
  · exact guarded.not_victim (run.held accepted) resident
  · intro event after step
    exact run.spares accepted guarded step
  · intro free
    refine ⟨?_, run.guarded_page_not_in_hand accepted free guarded, ?_⟩
    · intro slot other there same
      exact run.guarded_kpage accepted free guarded there same
    · intro event after step
      refine ⟨?_, ?_⟩
      · intro other issue
        exact run.guarded_page_not_issued accepted free guarded step issue
      · intro known other returned same
        exact run.guarded_page_returned accepted free known guarded step returned same

end Runs

/-- One frame is pinned while the other one is written back, in vain, for a third thread. -/
def Traffic.besideFailure : List (Moment TouchedSet) × Traffic TouchedSet :=
  Traffic.play
    (Move.through (.obtain (.simple 1)) 3 ++ Move.through (.obtain (.simple 2)) 3 ++
      Move.through (.unpin ⟨1, 0⟩) 1 ++ Move.through (.obtain (.simple 3)) 3 ++
      [.proceed 0 false, .proceed 0 false])
    ([], Traffic.idle 2)

theorem Traffic.run_besideFailure :
    Traffic.Run Traffic.besideFailure.1 Traffic.besideFailure.2 :=
  (Traffic.run_idle 2).play _

theorem Traffic.besideFailure_protected :
    PassedOnce Traffic.besideFailure.1 ∧ Guarded Frame.first Traffic.besideFailure.1 ∧
      HandsOutFree Traffic.besideFailure.1 ∧ GivenUpReturned Traffic.besideFailure.1 ∧
      Traffic.besideFailure.2.subsystem.frames.count = 2 ∧
      Traffic.besideFailure.2.subsystem.frames.frame? ⟨0, 0⟩ = some Frame.first ∧
      ∀ slot other, Traffic.besideFailure.2.resident slot = some other →
        other.kpage = Frame.first.kpage → other = Frame.first := by
  have once : PassedOnce Traffic.besideFailure.1 := by decide +kernel
  have guarded : Guarded Frame.first Traffic.besideFailure.1 := by decide +kernel
  have free : HandsOutFree Traffic.besideFailure.1 := by decide +kernel
  have protects := Traffic.run_besideFailure.pins_protect once guarded
  exact ⟨once, guarded, free, by decide +kernel, by decide +kernel, protects.1,
    (protects.2.2.2.2 free).1⟩

end KernelPaging
