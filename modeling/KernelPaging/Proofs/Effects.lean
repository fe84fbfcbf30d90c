import KernelPaging.Proofs.Traffic

/-!
What a step can do to the resident frames and to the evictions in flight. The list of cases is
complete for the states that runs reach, and every invariant of runs is proved case by case from it.
-/

set_option autoImplicit false

namespace KernelPaging

variable {bits : Type}

/-- What every state of a run satisfies, whatever the calls are for. -/
structure Traffic.Sound (traffic : Traffic bits) : Prop where
  wellFormed : traffic.subsystem.frames.WellFormed
  counted : traffic.subsystem.frames.barrier.inFlight = traffic.flights.length
  named : ∀ flight ∈ traffic.flights, flight.victim.pinned = true ∧
    flight.eviction = ⟨flight.victim.id.index, flight.victim.owner, flight.victim.uaddr⟩

/-- The step neither issues an id nor is an unpin that returns normally. -/
def Moment.Silent (moment : Moment bits) : Prop :=
  moment.event.issued? = none ∧ moment.event.unpinned? = none

theorem Moment.Silent.not_issued {moment : Moment bits} (silent : moment.Silent) (id : FrameId) :
    moment.event.issued? ≠ some id := by
  rw [silent.1]
  nofun

theorem Moment.Silent.not_unpinned {moment : Moment bits} (silent : moment.Silent)
    (id : FrameId) : moment.event.unpinned? ≠ some id := by
  rw [silent.2]
  nofun

inductive Moment.Effect (moment : Moment bits) : Prop
  | quiet : moment.Silent → moment.after.resident = moment.before.resident →
      moment.after.flights = moment.before.flights → Effect moment
  | bound {request : Request} {kpage : Address} {frame : Frame} :
      moment.event = .went (.bind request kpage) (.goesOn (.hand frame false)) →
      frame = {
        id := frame.id
        owner := request.owner
        uaddr := request.uaddr
        kpage
        pinned := true } →
      moment.before.subsystem.frames.isBound request.owner request.uaddr = false →
      moment.before.resident frame.id.index = none →
      moment.after.resident =
        Function.update moment.before.resident frame.id.index (some frame) →
      moment.after.flights = moment.before.flights → Effect moment
  | selected {flight : Flight} {earlier later : List Flight} :
      moment.event = .went (.reclaim flight.request) (.goesOn (.write flight)) →
      flight.eviction =
        ⟨flight.victim.id.index, flight.victim.owner, flight.victim.uaddr⟩ →
      flight.victim.pinned = true →
      moment.before.resident flight.eviction.slot = some { flight.victim with pinned := false } →
      moment.after.resident =
        Function.update moment.before.resident flight.eviction.slot (some flight.victim) →
      moment.before.flights = earlier ++ later →
      moment.after.flights = earlier ++ flight :: later → Effect moment
  | rebound {flight : Flight} {old frame : Frame} {zero : Bool} {earlier later : List Flight} :
      moment.event = .went (.finish flight true) (.goesOn (.hand frame zero)) →
      moment.before.resident flight.eviction.slot = some old →
      frame = { old with
        id := ⟨flight.eviction.slot, old.id.generation + 1⟩
        owner := flight.request.owner
        uaddr := flight.request.uaddr
        pinned := true } →
      moment.after.resident =
        Function.update moment.before.resident flight.eviction.slot (some frame) →
      moment.before.flights = earlier ++ flight :: later →
      moment.after.flights = earlier ++ later → Effect moment
  | kept {flight : Flight} {outcome : Outcome} {earlier later : List Flight} :
      moment.event = .went (.finish flight false) outcome → moment.Silent →
      moment.after.resident = Function.update moment.before.resident flight.eviction.slot
        ((moment.before.resident flight.eviction.slot).map
          fun frame => { frame with pinned := false }) →
      moment.before.flights = earlier ++ flight :: later →
      moment.after.flights = earlier ++ later → Effect moment
  /-- The slot of the victim is empty, and the kernel stops. -/
  | vanished {flight : Flight} {earlier later : List Flight} :
      moment.Silent → moment.before.resident flight.eviction.slot = none →
      moment.after.resident = moment.before.resident →
      moment.before.flights = earlier ++ flight :: later →
      moment.after.flights = earlier ++ later → Effect moment
  | freed {frame : Frame} :
      moment.Silent → moment.before.resident frame.id.index = some frame →
      frame.pinned = false →
      moment.after.resident = Function.update moment.before.resident frame.id.index none →
      moment.after.flights = moment.before.flights → Effect moment
  | unpinned {frame : Frame} :
      moment.event = .went (.unpin frame.id) (.ends .unpinned) →
      moment.before.resident frame.id.index = some frame → frame.pinned = true →
      moment.after.resident = Function.update moment.before.resident frame.id.index
        (some { frame with pinned := false }) →
      moment.after.flights = moment.before.flights → Effect moment
  /-- A teardown only takes frames out, and only while nothing is in flight. -/
  | cleared :
      moment.Silent → moment.before.flights = [] → moment.after.flights = [] →
      (∀ slot, moment.after.resident slot = moment.before.resident slot ∨
        moment.after.resident slot = none) → Effect moment

theorem flights_around (subsystem : Subsystem bits) (earlier later : List Call)
    (call : Call) :
    Traffic.flights ⟨subsystem, earlier ++ call :: later⟩ =
      earlier.filterMap Call.flight? ++
        (call.flight?.toList ++ later.filterMap Call.flight?) := by
  unfold Traffic.flights
  rw [List.filterMap_append, List.filterMap_cons]
  cases call.flight? <;> rfl

theorem flights_past (subsystem : Subsystem bits) (earlier later : List Call)
    (outcome : Outcome) :
    Traffic.flights ⟨subsystem, earlier ++ (outcome.calls ++ later)⟩ =
      earlier.filterMap Call.flight? ++
        (outcome.calls.filterMap Call.flight? ++ later.filterMap Call.flight?) := by
  unfold Traffic.flights
  rw [List.filterMap_append, List.filterMap_append]

private theorem flights_same (before after : Subsystem bits) (earlier later : List Call)
    (call : Call) (outcome : Outcome)
    (same : outcome.calls.filterMap Call.flight? = call.flight?.toList) :
    Traffic.flights ⟨after, earlier ++ (outcome.calls ++ later)⟩ =
      Traffic.flights ⟨before, earlier ++ call :: later⟩ := by
  rw [flights_around, flights_past, same]

section OneStep

variable {before after : Traffic bits} {event : Event} {frames : FrameTable} {flight : Flight}
  {earlier later : List Flight}

private theorem Traffic.Sound.of_flights (sound : before.Sound)
    (barrier : after.subsystem.frames.barrier = before.subsystem.frames.barrier)
    (wellFormed : after.subsystem.frames.WellFormed)
    (flights : after.flights = before.flights) : after.Sound := by
  refine ⟨wellFormed, ?_, ?_⟩
  · rw [barrier, flights]
    exact sound.counted
  · rw [flights]
    exact sound.named

private theorem Traffic.Sound.of_selected (sound : before.Sound)
    (named : flight.victim.pinned = true ∧
      flight.eviction = ⟨flight.victim.id.index, flight.victim.owner, flight.victim.uaddr⟩)
    (count : after.subsystem.frames.barrier.inFlight =
      before.subsystem.frames.barrier.inFlight + 1)
    (wellFormed : after.subsystem.frames.WellFormed)
    (flightsBefore : before.flights = earlier ++ later)
    (flightsAfter : after.flights = earlier ++ flight :: later) : after.Sound := by
  refine ⟨wellFormed, ?_, ?_⟩
  · rw [count, sound.counted, flightsBefore, flightsAfter]
    simp only [List.length_append, List.length_cons]
    omega
  · intro other member
    rw [flightsAfter, List.mem_append, List.mem_cons, or_left_comm, ← List.mem_append,
      ← flightsBefore] at member
    rcases member with rfl | old
    · exact named
    · exact sound.named other old

private theorem Traffic.Sound.of_finished (sound : before.Sound)
    (count : before.subsystem.frames.barrier.inFlight =
      after.subsystem.frames.barrier.inFlight + 1)
    (wellFormed : after.subsystem.frames.WellFormed)
    (flightsBefore : before.flights = earlier ++ flight :: later)
    (flightsAfter : after.flights = earlier ++ later) : after.Sound := by
  refine ⟨wellFormed, ?_, ?_⟩
  · have counted := sound.counted
    rw [count, flightsBefore] at counted
    rw [flightsAfter]
    simp only [List.length_append, List.length_cons] at counted ⊢
    omega
  · intro other member
    refine sound.named other ?_
    rw [flightsAfter] at member
    rw [flightsBefore]
    exact ((List.sublist_cons_self flight later).append_left earlier).subset member

private theorem effect_quiet (sound : before.Sound)
    (silent : Moment.Silent ⟨before, event, after⟩)
    (residents : after.subsystem.frames.frameAt? = before.subsystem.frames.frameAt?)
    (barrier : after.subsystem.frames.barrier = before.subsystem.frames.barrier)
    (wellFormed : after.subsystem.frames.WellFormed)
    (flights : after.flights = before.flights) :
    Moment.Effect ⟨before, event, after⟩ ∧ after.Sound :=
  ⟨.quiet silent residents flights, sound.of_flights barrier wellFormed flights⟩

private theorem effect_untouched (sound : before.Sound)
    (silent : Moment.Silent ⟨before, event, after⟩)
    (same : after.subsystem.frames = before.subsystem.frames)
    (flights : after.flights = before.flights) :
    Moment.Effect ⟨before, event, after⟩ ∧ after.Sound := by
  refine effect_quiet sound silent ?_ ?_ ?_ flights
  · rw [same]
  · rw [same]
  · rw [same]
    exact sound.wellFormed

private theorem effect_bind {request : Request} {kpage : Address} {frame : Frame}
    (sound : before.Sound)
    (enrolled : before.subsystem.frames.enroll request.owner request.uaddr kpage =
      .ok (frame, after.subsystem.frames))
    (flights : after.flights = before.flights) :
    Moment.Effect ⟨before, .went (.bind request kpage) (.goesOn (.hand frame false)), after⟩ ∧
      after.Sound := by
  have spec := FrameTable.enroll_spec sound.wellFormed enrolled
  exact ⟨.bound rfl spec.2.2.1 spec.1 spec.2.1 spec.2.2.2.1 flights,
    sound.of_flights spec.2.2.2.2.1 spec.2.2.2.2.2 flights⟩

private theorem effect_select [AccessedBits bits] {marks left : bits} (sound : before.Sound)
    (started : before.subsystem.frames.startEviction marks =
      .ok (.ok flight.eviction, after.subsystem.frames, left))
    (held : after.resident flight.eviction.slot = some flight.victim)
    (flightsBefore : before.flights = earlier ++ later)
    (flightsAfter : after.flights = earlier ++ flight :: later) :
    Moment.Effect ⟨before, .went (.reclaim flight.request) (.goesOn (.write flight)), after⟩ ∧
      after.Sound := by
  obtain ⟨frame, resident, unpinned, names, map, count, wellFormed⟩ :=
    FrameTable.startEviction_spec sound.wellFormed started
  have victim : { frame with pinned := true } = flight.victim := by
    refine Option.some.inj (Eq.trans ?_ held)
    unfold Traffic.resident
    rw [map, Function.update_self]
  have pinned : flight.victim.pinned = true := by rw [← victim]
  have named : flight.eviction =
      ⟨flight.victim.id.index, flight.victim.owner, flight.victim.uaddr⟩ := by
    rw [← victim]
    exact names
  refine ⟨.selected rfl named pinned ?_ ?_ flightsBefore flightsAfter,
    sound.of_selected ⟨pinned, named⟩ count wellFormed flightsBefore flightsAfter⟩
  · refine resident.trans ?_
    rw [← victim, ← unpinned]
  · refine map.trans ?_
    rw [victim]
    rfl

private theorem effect_finish {written : Bool} {ending : EvictionEnd} {outcome : Outcome}
    (sound : before.Sound)
    (finished : before.subsystem.frames.finishEviction flight.eviction flight.request.owner
      flight.request.uaddr written = .ok (ending, after.subsystem.frames))
    (outcomeIs : match ending with
      | .rebound frame => ∃ zero, outcome = .goesOn (.hand frame zero)
      | .kept | .vanished => ∃ answer, outcome = .ends answer)
    (flightsBefore : before.flights = earlier ++ flight :: later)
    (flightsAfter : after.flights = earlier ++ later) :
    Moment.Effect ⟨before, .went (.finish flight written) outcome, after⟩ ∧ after.Sound := by
  obtain ⟨spec, count, wellFormed⟩ := FrameTable.finishEviction_spec sound.wellFormed finished
  refine ⟨?_, sound.of_finished count wellFormed flightsBefore flightsAfter⟩
  cases spec with
  | rebound resident frameIs map =>
      obtain ⟨zero, rfl⟩ := outcomeIs
      exact .rebound rfl resident frameIs map flightsBefore flightsAfter
  | vanished empty map =>
      obtain ⟨answer, rfl⟩ := outcomeIs
      exact .vanished ⟨rfl, rfl⟩ empty map flightsBefore flightsAfter
  | kept map =>
      obtain ⟨answer, rfl⟩ := outcomeIs
      exact .kept rfl ⟨rfl, rfl⟩ map flightsBefore flightsAfter

private theorem effect_free {id : FrameId} {record : FrameRecord} (sound : before.Sound)
    (silent : Moment.Silent ⟨before, event, after⟩)
    (detached : before.subsystem.frames.detach id = (.removed record, after.subsystem.frames))
    (flights : after.flights = before.flights) :
    Moment.Effect ⟨before, event, after⟩ ∧ after.Sound := by
  have removed := FrameTable.detach_removed detached
  have spec := FrameTable.remove_spec sound.wellFormed removed.1
  have resident : before.resident (record.frame id).id.index = some (record.frame id) := spec.1
  exact ⟨.freed silent resident removed.2 spec.2.1 flights,
    sound.of_flights spec.2.2.1 spec.2.2.2 flights⟩

private theorem effect_unpin {id : FrameId} (sound : before.Sound)
    (unpinned : before.subsystem.frames.unpin id = .ok after.subsystem.frames)
    (flights : after.flights = before.flights) :
    Moment.Effect ⟨before, .went (.unpin id) (.ends .unpinned), after⟩ ∧ after.Sound := by
  obtain ⟨⟨frame, resident, rfl, pinned, map⟩, barrier, wellFormed⟩ :=
    FrameTable.unpin_spec sound.wellFormed unpinned
  exact ⟨.unpinned rfl resident pinned map flights, sound.of_flights barrier wellFormed flights⟩

private theorem effect_tearDown {entries : SupplementalTable} (sound : before.Sound)
    (silent : Moment.Silent ⟨before, event, after⟩)
    (idle : before.subsystem.frames.barrier.inFlight = 0)
    (removed : after.subsystem.frames = (before.subsystem.frames.removeNamed entries).2)
    (flights : after.flights = before.flights) :
    Moment.Effect ⟨before, event, after⟩ ∧ after.Sound := by
  have spec := FrameTable.removeNamed_spec entries before.subsystem.frames sound.wellFormed
  rw [← removed] at spec
  have none : before.flights = [] := by
    rw [← List.length_eq_zero_iff, ← sound.counted, idle]
  exact ⟨.cleared silent none (flights.trans none) spec.1,
    sound.of_flights spec.2.1 spec.2.2 flights⟩

end OneStep

section Steps

variable [AccessedBits bits]

theorem Traffic.Step.effect {before after : Traffic bits} {event : Event}
    (step : before.Step event after) (sound : before.Sound) :
    Moment.Effect ⟨before, event, after⟩ ∧ after.Sound := by
  cases step with
  | @begin _ call entry =>
      refine effect_untouched sound ⟨rfl, rfl⟩ rfl ?_
      unfold Traffic.flights
      rw [List.filterMap_cons_none]
      cases call <;> first | rfl | cases entry
  | outside same => exact effect_untouched sound ⟨rfl, rfl⟩ same rfl
  | @proceed subsystem later call outcome earlier rest proceeds =>
      have flights := flights_same subsystem later earlier rest call outcome
      have around := flights_around subsystem earlier rest call
      have past := flights_past later earlier rest outcome
      cases proceeds with
      | bound enrolled => exact effect_bind sound enrolled (flights rfl)
      | @selected request eviction victim _ _ started held =>
          exact @effect_select _ _ _ { request, eviction, victim } _ _ _ _ _ sound started held
            around past
      | unselected started =>
          have spec := FrameTable.startEviction_failed sound.wellFormed started
          exact effect_quiet sound ⟨rfl, rfl⟩ spec.1 spec.2.1 spec.2.2
            (flights rfl)
      | rebound finished => exact effect_finish sound finished ⟨_, rfl⟩ around past
      | kept finished => exact effect_finish sound finished ⟨_, rfl⟩ around past
      | vanished finished => exact effect_finish sound finished ⟨_, rfl⟩ around past
      | @finishStops flight written _ stopped =>
          have busy : 0 < subsystem.frames.barrier.inFlight := by
            have counted := sound.counted
            rw [around] at counted
            simp [Call.flight?] at counted
            omega
          obtain ⟨ending, middle, finished⟩ := FrameTable.finishEviction_exists busy
          rw [finished] at stopped
          cases stopped
      | freedStale detached =>
          have same := FrameTable.detach_kept detached (by simp)
          exact effect_untouched sound ⟨rfl, rfl⟩ same (flights rfl)
      | freedPinned detached =>
          have same := FrameTable.detach_kept detached (by simp)
          exact effect_untouched sound ⟨rfl, rfl⟩ same (flights rfl)
      | freed detached =>
          exact effect_free sound ⟨rfl, rfl⟩ detached (flights rfl)
      | unpinned unpinned => exact effect_unpin sound unpinned (flights rfl)
      | tornDown idle =>
          exact effect_tearDown sound ⟨rfl, rfl⟩ idle rfl (flights rfl)
      | _ => exact effect_untouched sound ⟨rfl, rfl⟩ rfl (flights rfl)

theorem Traffic.Run.sound {history : List (Moment bits)} {traffic : Traffic bits}
    (run : Traffic.Run history traffic) : traffic.Sound := by
  induction run with
  | start empty =>
      refine ⟨?_, ?_, ?_⟩
      · rw [empty]
        exact FrameTable.wellFormed_empty
      · rw [empty]
        rfl
      · intro flight impossible
        cases impossible
  | step run step ih => exact (step.effect ih).2

end Steps

end KernelPaging
