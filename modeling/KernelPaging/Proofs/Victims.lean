import KernelPaging.Proofs.Issues
import KernelPaging.Proofs.Schedules
import KernelPaging.Proofs.Walks

/-!
Victims between selection and the end of their eviction. As long as no unpin is accepted twice, the
victim stays in its slot exactly as it was selected, whatever else happens in the meantime, and no
two evictions have the same victim.

The invariant that carries this is about unpins: a resident frame that is unpinned, or is a victim
and so pinned by its eviction alone, has been unpinned by its owner already. An unpin that comes
while the eviction runs would be the second one.
-/

set_option autoImplicit false

namespace KernelPaging

variable {bits : Type}

structure Traffic.Held (history : List (Moment bits)) (traffic : Traffic bits) : Prop where
  resident : ∀ flight ∈ traffic.flights,
    traffic.resident flight.eviction.slot = some flight.victim
  apart : (traffic.flights.map (·.eviction.slot)).Nodup
  spent : ∀ slot frame, traffic.resident slot = some frame →
    (frame.pinned = false ∨ ∃ flight ∈ traffic.flights, flight.eviction.slot = slot) →
      Spent frame.id history

section OneStep

variable {moment : Moment bits} {earlier : List (Moment bits)}

private theorem held_quiet (held : moment.before.Held earlier) (silent : moment.Silent)
    (residents : moment.after.resident = moment.before.resident)
    (flights : moment.after.flights = moment.before.flights) :
    moment.after.Held (moment :: earlier) := by
  refine ⟨?_, ?_, ?_⟩
  · rw [residents, flights]
    exact held.resident
  · rw [flights]
    exact held.apart
  · rw [residents, flights]
    intro slot frame resident why
    exact (held.spent slot frame resident why).later (silent.not_issued _)

/-- One slot changes, of which no eviction has its victim from now on. -/
private theorem held_changed (held : moment.before.Held earlier) {index : Nat}
    {value : Option Frame} (fewer : moment.after.flights.Sublist moment.before.flights)
    (apart : ∀ flight ∈ moment.after.flights, flight.eviction.slot ≠ index)
    (issues : ∀ id, moment.event.issued? = some id → id.index = index)
    (spent : ∀ frame, value = some frame → frame.pinned = false →
      Spent frame.id (moment :: earlier))
    (residents : moment.after.resident = Function.update moment.before.resident index value) :
    moment.after.Held (moment :: earlier) := by
  refine ⟨?_, held.apart.sublist (fewer.map _), ?_⟩
  · rw [residents]
    intro flight member
    rw [Function.update_of_ne (apart flight member)]
    exact held.resident flight (fewer.subset member)
  · rw [residents]
    intro slot frame now why
    by_cases here : slot = index
    · rw [here, Function.update_self] at now
      rcases why with unpinned | ⟨flight, member, same⟩
      · exact spent frame now unpinned
      · exact absurd (same.trans here) (apart flight member)
    · rw [Function.update_of_ne here] at now
      have before : Spent frame.id earlier := by
        refine held.spent slot frame now ?_
        rcases why with unpinned | ⟨flight, member, same⟩
        · exact .inl unpinned
        · exact .inr ⟨flight, fewer.subset member, same⟩
      refine before.later ?_
      intro issued
      have changed := issues frame.id issued
      rw [Traffic.index_of_resident now] at changed
      exact here changed

private theorem held_finished (held : moment.before.Held earlier) {flight : Flight}
    {sooner later : List Flight} {value : Option Frame}
    (issues : ∀ id, moment.event.issued? = some id → id.index = flight.eviction.slot)
    (spent : ∀ frame, value = some frame → frame.pinned = false →
      Spent frame.id (moment :: earlier))
    (residents : moment.after.resident =
      Function.update moment.before.resident flight.eviction.slot value)
    (flightsBefore : moment.before.flights = sooner ++ flight :: later)
    (flightsAfter : moment.after.flights = sooner ++ later) :
    moment.after.Held (moment :: earlier) := by
  have apart := held.apart
  rw [flightsBefore, List.map_append, List.map_cons, List.nodup_middle, List.nodup_cons,
    ← List.map_append, ← flightsAfter] at apart
  refine held_changed held ?_ ?_ issues spent residents
  · rw [flightsBefore, flightsAfter]
    exact (List.sublist_cons_self flight later).append_left sooner
  · intro other member same
    exact apart.1 (List.mem_map.mpr ⟨other, member, same⟩)

/-- Victims are pinned, so none of them is in the slot of an unpinned frame. -/
private theorem slot_ne_of_unpinned (held : moment.before.Held earlier)
    (sound : moment.before.Sound) {slot : Nat} {frame : Frame}
    (resident : moment.before.resident slot = some frame) (unpinned : frame.pinned = false) :
    ∀ flight ∈ moment.before.flights, flight.eviction.slot ≠ slot := by
  intro flight member same
  have victim := held.resident flight member
  rw [same, resident] at victim
  have pinned := (sound.named flight member).1
  rw [← Option.some.inj victim, unpinned] at pinned
  cases pinned

private theorem held_selected (held : moment.before.Held earlier) (sound : moment.before.Sound)
    {flight : Flight} {sooner later : List Flight} (silent : ∀ id, moment.event.issued? ≠ some id)
    (resident : moment.before.resident flight.eviction.slot =
      some { flight.victim with pinned := false })
    (residents : moment.after.resident =
      Function.update moment.before.resident flight.eviction.slot (some flight.victim))
    (flightsBefore : moment.before.flights = sooner ++ later)
    (flightsAfter : moment.after.flights = sooner ++ flight :: later) :
    moment.after.Held (moment :: earlier) := by
  have members : ∀ other ∈ moment.after.flights,
      other = flight ∨ other ∈ moment.before.flights := by
    intro other member
    rw [flightsAfter, List.mem_append, List.mem_cons, or_left_comm, ← List.mem_append,
      ← flightsBefore] at member
    exact member
  have apart := slot_ne_of_unpinned held sound resident rfl
  refine ⟨?_, ?_, ?_⟩
  · rw [residents]
    intro other member
    rcases members other member with rfl | old
    · exact Function.update_self ..
    · rw [Function.update_of_ne (apart other old)]
      exact held.resident other old
  · rw [flightsAfter, List.map_append, List.map_cons, List.nodup_middle, List.nodup_cons,
      ← List.map_append, ← flightsBefore]
    refine ⟨?_, held.apart⟩
    rintro taken
    obtain ⟨other, member, same⟩ := List.mem_map.mp taken
    exact apart other member same
  · rw [residents]
    intro slot frame now why
    by_cases here : slot = flight.eviction.slot
    · rw [here, Function.update_self] at now
      cases now
      exact (held.spent _ _ resident (.inl rfl)).later (silent _)
    · rw [Function.update_of_ne here] at now
      refine (held.spent slot frame now ?_).later (silent _)
      rcases why with unpinned | ⟨other, member, same⟩
      · exact .inl unpinned
      · rcases members other member with rfl | old
        · exact absurd same.symm here
        · exact .inr ⟨other, old, same⟩

private theorem held_cleared (held : moment.before.Held earlier) (silent : moment.Silent)
    (flights : moment.after.flights = [])
    (residents : ∀ slot, moment.after.resident slot = moment.before.resident slot ∨
      moment.after.resident slot = none) : moment.after.Held (moment :: earlier) := by
  refine ⟨?_, ?_, ?_⟩
  · rw [flights]
    intro flight member
    cases member
  · rw [flights]
    exact List.nodup_nil
  · rw [flights]
    intro slot frame now why
    rcases residents slot with same | gone
    · rw [same] at now
      rcases why with unpinned | ⟨flight, member, _⟩
      · exact (held.spent slot frame now (.inl unpinned)).later (silent.not_issued _)
      · cases member
    · rw [gone] at now
      cases now

private theorem held_bound (held : moment.before.Held earlier) {frame : Frame}
    (issues : moment.event.issued? = some frame.id) (pinned : frame.pinned = true)
    (empty : moment.before.resident frame.id.index = none)
    (residents : moment.after.resident =
      Function.update moment.before.resident frame.id.index (some frame))
    (flights : moment.after.flights = moment.before.flights) :
    moment.after.Held (moment :: earlier) := by
  refine held_changed held ?_ ?_ ?_ ?_ residents
  · rw [flights]
  · rw [flights]
    intro flight member same
    have resident := held.resident flight member
    rw [same, empty] at resident
    cases resident
  · intro id issued
    cases issues.symm.trans issued
    rfl
  · intro other same unpinned
    cases same
    cases pinned.symm.trans unpinned

private theorem held_rebound (held : moment.before.Held earlier) {flight : Flight} {frame : Frame}
    {sooner later : List Flight} (issues : moment.event.issued? = some frame.id)
    (named : frame.id.index = flight.eviction.slot) (pinned : frame.pinned = true)
    (residents : moment.after.resident =
      Function.update moment.before.resident flight.eviction.slot (some frame))
    (flightsBefore : moment.before.flights = sooner ++ flight :: later)
    (flightsAfter : moment.after.flights = sooner ++ later) :
    moment.after.Held (moment :: earlier) := by
  refine held_finished held ?_ ?_ residents flightsBefore flightsAfter
  · intro id issued
    cases issues.symm.trans issued
    exact named
  · intro other same unpinned
    cases same
    cases pinned.symm.trans unpinned

/-- A victim that stays is unpinned. Its owner had unpinned it before it became a victim. -/
private theorem held_kept (held : moment.before.Held earlier) {flight : Flight}
    {sooner later : List Flight} (silent : moment.Silent)
    (residents : moment.after.resident = Function.update moment.before.resident
      flight.eviction.slot ((moment.before.resident flight.eviction.slot).map
        fun frame => { frame with pinned := false }))
    (flightsBefore : moment.before.flights = sooner ++ flight :: later)
    (flightsAfter : moment.after.flights = sooner ++ later) :
    moment.after.Held (moment :: earlier) := by
  have member : flight ∈ moment.before.flights := by
    rw [flightsBefore]
    exact List.mem_append_cons_self
  refine held_finished held ?_ ?_ residents flightsBefore flightsAfter
  · intro id issued
    exact absurd issued (silent.not_issued id)
  · intro frame same _
    obtain ⟨old, before, rfl⟩ := Option.map_eq_some_iff.mp same
    exact (held.spent _ old before (.inr ⟨flight, member, rfl⟩)).later (silent.not_issued _)

private theorem held_freed (held : moment.before.Held earlier) (sound : moment.before.Sound)
    {frame : Frame} (silent : moment.Silent)
    (resident : moment.before.resident frame.id.index = some frame)
    (unpinned : frame.pinned = false)
    (residents : moment.after.resident =
      Function.update moment.before.resident frame.id.index none)
    (flights : moment.after.flights = moment.before.flights) :
    moment.after.Held (moment :: earlier) := by
  refine held_changed held ?_ ?_ ?_ ?_ residents
  · rw [flights]
  · rw [flights]
    exact slot_ne_of_unpinned held sound resident unpinned
  · intro id issued
    exact absurd issued (silent.not_issued id)
  · intro _ impossible
    cases impossible

/-- A victim would have been unpinned by its owner before. -/
private theorem held_unpinned (held : moment.before.Held earlier) {frame : Frame}
    (silent : ∀ id, moment.event.issued? ≠ some id)
    (unpinned : moment.event.unpinned? = some frame.id) (first : ¬ Spent frame.id earlier)
    (resident : moment.before.resident frame.id.index = some frame)
    (residents : moment.after.resident = Function.update moment.before.resident frame.id.index
      (some { frame with pinned := false }))
    (flights : moment.after.flights = moment.before.flights) :
    moment.after.Held (moment :: earlier) := by
  refine held_changed held ?_ ?_ ?_ ?_ residents
  · rw [flights]
  · rw [flights]
    intro flight member same
    exact first (held.spent _ _ resident (.inr ⟨flight, member, same⟩))
  · intro id issued
    exact absurd issued (silent id)
  · intro other same _
    cases same
    exact .inl unpinned

private theorem not_empty_of_held (held : moment.before.Held earlier) {flight : Flight}
    {sooner later : List Flight}
    (flightsBefore : moment.before.flights = sooner ++ flight :: later) :
    moment.before.resident flight.eviction.slot ≠ none := by
  have member : flight ∈ moment.before.flights := by
    rw [flightsBefore]
    exact List.mem_append_cons_self
  rw [held.resident flight member]
  nofun

theorem Moment.Effect.held (effect : moment.Effect) (sound : moment.before.Sound)
    (held : moment.before.Held earlier) (first : ∀ id ∈ moment.event.unpinned?, ¬ Spent id earlier) :
    moment.after.Held (moment :: earlier) := by
  cases effect with
  | quiet silent residents flights => exact held_quiet held silent residents flights
  | bound happened frameIs _ empty residents flights =>
      exact held_bound held (by rw [happened]; rfl) (by rw [frameIs]) empty residents flights
  | selected happened _ _ resident residents flightsBefore flightsAfter =>
      have silent : ∀ id, moment.event.issued? ≠ some id := by
        rw [happened]
        nofun
      exact held_selected held sound silent resident residents flightsBefore flightsAfter
  | rebound happened _ frameIs residents flightsBefore flightsAfter =>
      exact held_rebound held (by rw [happened]; rfl) (by rw [frameIs]) (by rw [frameIs]) residents
        flightsBefore flightsAfter
  | kept _ silent residents flightsBefore flightsAfter =>
      exact held_kept held silent residents flightsBefore flightsAfter
  | vanished _ empty _ flightsBefore _ => exact absurd empty (not_empty_of_held held flightsBefore)
  | freed silent resident unpinned residents flights =>
      exact held_freed held sound silent resident unpinned residents flights
  | @unpinned frame happened resident _ residents flights =>
      have unpinned : moment.event.unpinned? = some frame.id := by rw [happened]; rfl
      have silent : ∀ id, moment.event.issued? ≠ some id := by
        rw [happened]
        nofun
      exact held_unpinned held silent unpinned (first _ unpinned) resident residents flights
  | cleared silent _ flights residents => exact held_cleared held silent flights residents

end OneStep

/-! ### Writebacks on record -/

/-- The calls of a writeback, and its answers, are among what has happened. -/
def Call.OnRecord (history : List (Moment bits)) : Call → Prop
  | .await flight =>
      ∃ called ∈ history, called.event = .went (.write flight) (.goesOn (.await flight))
  | .finish flight written =>
      (∃ called ∈ history, called.event = .went (.write flight) (.goesOn (.await flight))) ∧
        ∃ returned ∈ history,
          returned.event = .went (.await flight) (.goesOn (.finish flight written))
  | _ => True

theorem Call.OnRecord.later {history : List (Moment bits)} {call : Call}
    (recorded : call.OnRecord history) (moment : Moment bits) :
    call.OnRecord (moment :: history) := by
  have more : ∀ event, (∃ past ∈ history, past.event = event) →
      ∃ past ∈ moment :: history, past.event = event := by
    rintro event ⟨past, member, happened⟩
    exact ⟨past, List.mem_cons_of_mem _ member, happened⟩
  cases call with
  | await flight => exact more _ recorded
  | finish flight written => exact ⟨more _ recorded.1, more _ recorded.2⟩
  | _ => trivial

theorem Call.Proceeds.onRecord [AccessedBits bits] {before after : Subsystem bits} {call : Call}
    {outcome : Outcome} {history : List (Moment bits)} {moment : Moment bits}
    (proceeds : call.Proceeds before outcome after)
    (happened : moment.event = .went call outcome) (recorded : call.OnRecord history) :
    ∀ next ∈ outcome.calls, next.OnRecord (moment :: history) := by
  intro next member
  have latest : moment ∈ moment :: history := List.mem_cons_self
  cases proceeds with
  | writes flight =>
      cases List.mem_singleton.mp member
      exact ⟨moment, latest, happened⟩
  | written flight written =>
      cases List.mem_singleton.mp member
      exact ⟨recorded.later moment, moment, latest, happened⟩
  | _ => rcases member with _ | ⟨_, ⟨⟩⟩ <;> trivial

section Runs

variable [AccessedBits bits] {history : List (Moment bits)} {traffic : Traffic bits}

theorem Traffic.Run.held (run : Traffic.Run history traffic) (once : AcceptedOnce history) :
    traffic.Held history := by
  induction run with
  | start empty =>
      refine ⟨?_, List.nodup_nil, ?_⟩
      · intro flight impossible
        cases impossible
      · intro slot frame resident
        unfold Traffic.resident at resident
        rw [empty] at resident
        cases resident
  | step run step ih =>
      have held := ih once.2
      exact (step.effect run.sound).1.held run.sound held once.1

theorem Traffic.Run.onRecord (run : Traffic.Run history traffic) :
    ∀ call ∈ traffic.calls, call.OnRecord history := by
  induction run with
  | start _ =>
      intro call impossible
      cases impossible
  | step run step ih =>
      intro call member
      cases step with
      | @begin _ entered entry =>
          rcases List.mem_cons.mp member with rfl | old
          · cases call with
            | await | finish => cases entry
            | _ => trivial
          · exact (ih call old).later _
      | outside _ => exact (ih call member).later _
      | @proceed _ _ previous outcome earlier later proceeds =>
          rcases List.mem_append.mp member with inEarlier | inRest
          · exact (ih call (List.mem_append_left _ inEarlier)).later _
          · rcases List.mem_append.mp inRest with next | inLater
            · exact proceeds.onRecord rfl (ih previous List.mem_append_cons_self) call next
            · refine (ih call ?_).later _
              exact List.mem_append_right _ (List.mem_cons_of_mem _ inLater)

/-- A frame that changes in anything but its pin gives way to the request of an eviction, whose
writeback was called for the page the frame held and has succeeded. -/
theorem Traffic.Run.rebound (run : Traffic.Run history traffic) (once : AcceptedOnce history)
    {moment : Moment bits} (member : moment ∈ history) {slot : Nat} {old new : Frame}
    (before : moment.before.resident slot = some old)
    (after : moment.after.resident slot = some new)
    (changed : new ≠ { old with pinned := new.pinned }) :
    ∃ flight zero, moment.event = .went (.finish flight true) (.goesOn (.hand new zero)) ∧
      flight.victim = old ∧ flight.eviction = ⟨slot, old.owner, old.uaddr⟩ ∧
      (∃ called ∈ history, called.event = .went (.write flight) (.goesOn (.await flight))) ∧
        ∃ returned ∈ history,
          returned.event = .went (.await flight) (.goesOn (.finish flight true)) := by
  obtain ⟨earlier, past⟩ := exists_suffix_of_mem member
  obtain ⟨ran, step⟩ := run.at_moment past
  have held := ran.held (once.of_suffix ((List.suffix_cons _ _).trans past))
  have issues : moment.event.issued? = some new.id := by
    rcases (step.effect ran.sound).1.origin after with new | ⟨_, pinned, same⟩
    · exact new
    · rw [before] at same
      cases same
      exact absurd rfl changed
  have index := Traffic.index_of_resident after
  rcases (step.effect ran.sound).1.issue_cases issues with
    ⟨_, _, _, _, _, empty, _⟩ | ⟨flight, frame, zero, happened, _, sameSlot, inFlight, _, _, residents⟩
  · rw [index, before] at empty
    cases empty
  · rw [index] at sameSlot residents
    have frameIs : frame = new := by
      rw [residents, Function.update_self] at after
      exact Option.some.inj after
    have victim : flight.victim = old := by
      have resident := held.resident flight inFlight
      rw [← sameSlot, before] at resident
      exact (Option.some.inj resident).symm
    have named := (ran.sound.named flight inFlight).2
    rw [victim, Traffic.index_of_resident before] at named
    rw [happened] at step
    have recorded := ran.onRecord _ step.mem_calls
    rw [frameIs] at happened
    refine ⟨flight, zero, happened, victim, named, ?_, ?_⟩
    · obtain ⟨called, sooner, calls⟩ := recorded.1
      exact ⟨called, past.subset (List.mem_cons_of_mem _ sooner), calls⟩
    · obtain ⟨returned, sooner, returns⟩ := recorded.2
      exact ⟨returned, past.subset (List.mem_cons_of_mem _ sooner), returns⟩

/-- An eviction stops only where the accessed bits stop it. In particular the hand is never on a
vacant slot, no victim vanishes and the barrier is not left without having been entered. -/
theorem Traffic.Run.eviction_stops (run : Traffic.Run history traffic)
    (once : AcceptedOnce history) {moment : Moment bits} (member : moment ∈ history) :
    (∀ request halt, moment.event = .went (.reclaim request) (.ends (.stopped halt)) →
      AccessedBits.Stops bits halt) ∧
    ∀ flight written halt, moment.event ≠ .went (.finish flight written) (.ends (.stopped halt)) := by
  obtain ⟨earlier, past⟩ := exists_suffix_of_mem member
  obtain ⟨ran, step⟩ := run.at_moment past
  have held := ran.held (once.of_suffix ((List.suffix_cons _ _).trans past))
  obtain ⟨before, event, after⟩ := moment
  refine ⟨?_, ?_⟩
  · rintro request halt rfl
    cases step with
    | proceed proceeds =>
        cases proceeds with
        | selectStops stopped => exact FrameTable.startEviction_error stopped
  · rintro flight written halt rfl
    have inFlight : flight ∈ before.flights :=
      List.mem_filterMap.mpr ⟨_, step.mem_calls, rfl⟩
    cases step with
    | proceed proceeds =>
        cases proceeds with
        | vanished finished =>
            have resident := held.resident flight inFlight
            cases (FrameTable.finishEviction_spec ran.sound.wellFormed finished).1 with
            | vanished empty _ =>
                cases empty.symm.trans resident
        | finishStops stopped =>
            have busy := List.length_pos_of_mem inFlight
            rw [← ran.sound.counted] at busy
            obtain ⟨ending, middle, finished⟩ := FrameTable.finishEviction_exists busy
            rw [finished] at stopped
            cases stopped

theorem Traffic.Run.eviction_never_panics {history : List (Moment AccessedStore)}
    {traffic : Traffic AccessedStore} (run : Traffic.Run history traffic)
    (once : AcceptedOnce history) {moment : Moment AccessedStore} (member : moment ∈ history)
    (slot : Nat) :
    (∀ request,
      moment.event ≠ .went (.reclaim request) (.ends (.stopped (.handOnVacantSlot slot)))) ∧
    ∀ flight written,
      moment.event ≠ .went (.finish flight written) (.ends (.stopped (.victimVanished slot))) := by
  have stops := run.eviction_stops once member
  refine ⟨?_, fun flight written => stops.2 flight written _⟩
  intro request happened
  have ofAddress := AccessedStore.stops (stops.1 request _ happened)
  cases ofAddress

/-- Every victim stays as it was selected until its eviction is over, and a binding is replaced only
after the page that held it was written back. -/
theorem Traffic.Run.victims_stable (run : Traffic.Run history traffic)
    (once : PassedOnce history) :
    (∀ flight ∈ traffic.flights,
      flight.eviction = ⟨flight.victim.id.index, flight.victim.owner, flight.victim.uaddr⟩ ∧
      flight.victim.pinned = true ∧
      traffic.resident flight.eviction.slot = some flight.victim ∧
      flight.eviction.slot ∈ traffic.subsystem.frames.ring) ∧
    traffic.subsystem.frames.Represents traffic.subsystem.frames.ring ∧
    (traffic.flights.map (·.eviction.slot)).Nodup ∧
    ∀ moment ∈ history,
      (∀ request halt, moment.event = .went (.reclaim request) (.ends (.stopped halt)) →
        AccessedBits.Stops bits halt) ∧
      (∀ flight written halt,
        moment.event ≠ .went (.finish flight written) (.ends (.stopped halt))) ∧
      ∀ slot old new, moment.before.resident slot = some old →
        moment.after.resident slot = some new → new ≠ { old with pinned := new.pinned } →
          ∃ flight zero, moment.event = .went (.finish flight true) (.goesOn (.hand new zero)) ∧
            flight.victim = old ∧ flight.eviction = ⟨slot, old.owner, old.uaddr⟩ ∧
            (∃ called ∈ history,
              called.event = .went (.write flight) (.goesOn (.await flight))) ∧
            ∃ returned ∈ history,
              returned.event = .went (.await flight) (.goesOn (.finish flight true)) := by
  have accepted := once.acceptedOnce run
  have held := run.held accepted
  refine ⟨?_, run.sound.wellFormed, held.apart, ?_⟩
  · intro flight member
    have named := run.sound.named flight member
    have resident := held.resident flight member
    obtain ⟨occupant, found, _⟩ := FrameTable.frameAt?_eq_some_iff.mp resident
    exact ⟨named.2, named.1, resident, run.sound.wellFormed.mem_of_occupant found⟩
  · intro moment member
    have stops := run.eviction_stops accepted member
    refine ⟨stops.1, stops.2, ?_⟩
    intro slot old new before after changed
    exact run.rebound accepted member before after changed

end Runs

theorem Traffic.midWriteback_victim : PassedOnce Traffic.midWriteback.1 ∧
    Traffic.midWriteback.2.flights.length = 1 ∧
    ∀ flight ∈ Traffic.midWriteback.2.flights, flight.victim.pinned = true ∧
      Traffic.midWriteback.2.resident flight.eviction.slot = some flight.victim := by
  have once : PassedOnce Traffic.midWriteback.1 := by decide +kernel
  have stable := (Traffic.run_midWriteback.victims_stable once).1
  refine ⟨once, by decide +kernel, ?_⟩
  intro flight member
  exact ⟨(stable flight member).2.1, (stable flight member).2.2.1⟩

end KernelPaging
