import KernelPaging.Proofs.Victims

/-!
How often an id can be unpinned. The pin of a resident frame serves its owner first and, once the
owner has given it up, an eviction. A second unpin is refused unless it finds the pin of an eviction
whose writeback is running, which it takes for that of the owner.
-/

set_option autoImplicit false

namespace KernelPaging

variable {bits : Type}

def Traffic.Evicting (traffic : Traffic bits) (id : FrameId) : Prop :=
  ∃ flight ∈ traffic.flights, flight.victim.id = id

instance (traffic : Traffic bits) (id : FrameId) : Decidable (traffic.Evicting id) :=
  inferInstanceAs (Decidable (∃ flight ∈ traffic.flights, flight.victim.id = id))

/-- A pinned frame whose owner has unpinned it already is the victim of an eviction. -/
def Traffic.PinsAccounted (history : List (Moment bits)) (traffic : Traffic bits) : Prop :=
  ∀ slot frame, traffic.resident slot = some frame → frame.pinned = true →
    Spent frame.id history → traffic.Evicting frame.id

section OneStep

variable {moment : Moment bits} {earlier : List (Moment bits)}

private theorem evicting_same (flights : moment.after.flights = moment.before.flights)
    {id : FrameId} (evicting : moment.before.Evicting id) : moment.after.Evicting id := by
  unfold Traffic.Evicting at evicting ⊢
  rw [flights]
  exact evicting

private theorem evicting_after (sound : moment.before.Sound) {flight : Flight}
    {sooner later : List Flight} (flightsBefore : moment.before.flights = sooner ++ flight :: later)
    (flightsAfter : moment.after.flights = sooner ++ later) {id : FrameId}
    (elsewhere : id.index ≠ flight.eviction.slot) (evicting : moment.before.Evicting id) :
    moment.after.Evicting id := by
  obtain ⟨other, member, rfl⟩ := evicting
  refine ⟨other, ?_, rfl⟩
  have named := (sound.named other member).2
  rw [flightsBefore, List.mem_append, List.mem_cons] at member
  rw [flightsAfter, List.mem_append]
  rcases member with inSooner | rfl | inLater
  · exact .inl inSooner
  · rw [named] at elsewhere
    exact absurd rfl elsewhere
  · exact .inr inLater

private theorem pinsAccounted_quiet (accounted : moment.before.PinsAccounted earlier)
    (silent : moment.Silent) (residents : moment.after.resident = moment.before.resident)
    (flights : moment.after.flights = moment.before.flights) :
    moment.after.PinsAccounted (moment :: earlier) := by
  intro slot frame now pinned spent
  rw [residents] at now
  exact evicting_same flights
    (accounted slot frame now pinned (spent.earlier (silent.not_unpinned _)))

/-- One slot changes. Whatever is pinned there now is new, or is a victim. -/
private theorem pinsAccounted_changed (accounted : moment.before.PinsAccounted earlier)
    {index : Nat} {value : Option Frame}
    (evicting : ∀ id : FrameId, id.index ≠ index → moment.before.Evicting id →
      moment.after.Evicting id)
    (unpins : ∀ id, moment.event.unpinned? = some id → id.index = index)
    (fresh : ∀ frame, value = some frame → frame.pinned = true →
      Spent frame.id (moment :: earlier) → moment.after.Evicting frame.id)
    (residents : moment.after.resident = Function.update moment.before.resident index value) :
    moment.after.PinsAccounted (moment :: earlier) := by
  intro slot frame now pinned spent
  have named := Traffic.index_of_resident now
  rw [residents] at now
  by_cases here : slot = index
  · rw [here, Function.update_self] at now
    exact fresh frame now pinned spent
  · rw [Function.update_of_ne here] at now
    rw [← named] at here
    refine evicting frame.id here (accounted slot frame now pinned (spent.earlier ?_))
    intro unpinned
    exact here (unpins frame.id unpinned)

private theorem pinsAccounted_selected (accounted : moment.before.PinsAccounted earlier)
    {flight : Flight} {sooner later : List Flight}
    (silent : ∀ id, moment.event.unpinned? ≠ some id)
    (residents : moment.after.resident =
      Function.update moment.before.resident flight.eviction.slot (some flight.victim))
    (flightsBefore : moment.before.flights = sooner ++ later)
    (flightsAfter : moment.after.flights = sooner ++ flight :: later) :
    moment.after.PinsAccounted (moment :: earlier) := by
  refine pinsAccounted_changed accounted ?_ ?_ ?_ residents
  · rintro id _ ⟨other, member, named⟩
    refine ⟨other, ?_, named⟩
    rw [flightsBefore] at member
    rw [flightsAfter]
    exact ((List.sublist_cons_self flight later).append_left sooner).subset member
  · intro id unpinned
    exact absurd unpinned (silent id)
  · intro frame value _ _
    cases value
    refine ⟨flight, ?_, rfl⟩
    rw [flightsAfter]
    exact List.mem_append_cons_self

private theorem pinsAccounted_finished (accounted : moment.before.PinsAccounted earlier)
    (sound : moment.before.Sound) {flight : Flight} {sooner later : List Flight}
    {value : Option Frame} (silent : ∀ id, moment.event.unpinned? ≠ some id)
    (fresh : ∀ frame, value = some frame → frame.pinned = true →
      Spent frame.id (moment :: earlier) → moment.after.Evicting frame.id)
    (residents : moment.after.resident =
      Function.update moment.before.resident flight.eviction.slot value)
    (flightsBefore : moment.before.flights = sooner ++ flight :: later)
    (flightsAfter : moment.after.flights = sooner ++ later) :
    moment.after.PinsAccounted (moment :: earlier) := by
  refine pinsAccounted_changed accounted ?_ ?_ fresh residents
  · intro id elsewhere
    exact evicting_after sound flightsBefore flightsAfter elsewhere
  · intro id unpinned
    exact absurd unpinned (silent id)

private theorem pinsAccounted_vanished (accounted : moment.before.PinsAccounted earlier)
    (sound : moment.before.Sound) {flight : Flight} {sooner later : List Flight}
    (silent : moment.Silent) (empty : moment.before.resident flight.eviction.slot = none)
    (residents : moment.after.resident = moment.before.resident)
    (flightsBefore : moment.before.flights = sooner ++ flight :: later)
    (flightsAfter : moment.after.flights = sooner ++ later) :
    moment.after.PinsAccounted (moment :: earlier) := by
  have kept : moment.after.resident =
      Function.update moment.before.resident flight.eviction.slot none := by
    rw [residents, ← empty, Function.update_eq_self]
  refine pinsAccounted_finished accounted sound silent.not_unpinned ?_ kept flightsBefore
    flightsAfter
  intro frame impossible
  cases impossible

private theorem pinsAccounted_cleared (accounted : moment.before.PinsAccounted earlier)
    (silent : moment.Silent) (none : moment.before.flights = [])
    (residents : ∀ slot, moment.after.resident slot = moment.before.resident slot ∨
      moment.after.resident slot = .none) : moment.after.PinsAccounted (moment :: earlier) := by
  intro slot frame now pinned spent
  rcases residents slot with before | gone
  · rw [before] at now
    obtain ⟨flight, member, _⟩ :=
      accounted slot frame now pinned (spent.earlier (silent.not_unpinned _))
    rw [none] at member
    cases member
  · rw [gone] at now
    cases now

private theorem not_spent_issued {new : Frame} (issued : moment.event.issued? = some new.id) :
    ∀ frame, some new = some frame → frame.pinned = true → Spent frame.id (moment :: earlier) →
      moment.after.Evicting frame.id := by
  intro frame value _ spent
  cases value
  exact absurd spent (not_spent_of_issued issued)

theorem Moment.Effect.pinsAccounted (effect : moment.Effect) (sound : moment.before.Sound)
    (accounted : moment.before.PinsAccounted earlier) :
    moment.after.PinsAccounted (moment :: earlier) := by
  cases effect with
  | quiet silent residents flights =>
      exact pinsAccounted_quiet accounted silent residents flights
  | bound happened _ _ _ residents flights =>
      refine pinsAccounted_changed accounted (fun _ _ => evicting_same flights) ?_ ?_ residents
      · rw [happened]
        nofun
      · exact not_spent_issued (by rw [happened]; rfl)
  | selected happened _ _ _ residents flightsBefore flightsAfter =>
      refine pinsAccounted_selected accounted ?_ residents flightsBefore flightsAfter
      rw [happened]
      nofun
  | rebound happened _ _ residents flightsBefore flightsAfter =>
      refine pinsAccounted_finished accounted sound ?_ ?_ residents flightsBefore flightsAfter
      · rw [happened]
        nofun
      · exact not_spent_issued (by rw [happened]; rfl)
  | kept _ silent residents flightsBefore flightsAfter =>
      refine pinsAccounted_finished accounted sound silent.not_unpinned ?_ residents flightsBefore
        flightsAfter
      intro frame value pinned _
      obtain ⟨old, _, rfl⟩ := Option.map_eq_some_iff.mp value
      cases pinned
  | vanished silent empty residents flightsBefore flightsAfter =>
      exact pinsAccounted_vanished accounted sound silent empty residents flightsBefore flightsAfter
  | freed silent _ _ residents flights =>
      refine pinsAccounted_changed accounted (fun _ _ => evicting_same flights) ?_ ?_ residents
      · intro id unpinned
        exact absurd unpinned (silent.not_unpinned id)
      · intro frame impossible
        cases impossible
  | unpinned happened _ _ residents flights =>
      refine pinsAccounted_changed accounted (fun _ _ => evicting_same flights) ?_ ?_ residents
      · intro id unpinned
        rw [happened] at unpinned
        cases unpinned
        rfl
      · intro frame value pinned _
        cases value
        cases pinned
  | cleared silent none _ residents =>
      exact pinsAccounted_cleared accounted silent none residents

end OneStep

section Runs

variable [AccessedBits bits] {history : List (Moment bits)} {traffic : Traffic bits}

theorem Traffic.Run.pinsAccounted (run : Traffic.Run history traffic) :
    traffic.PinsAccounted history := by
  induction run with
  | start empty =>
      intro slot frame resident
      unfold Traffic.resident at resident
      rw [empty] at resident
      cases resident
  | step run step ih => exact (step.effect run.sound).1.pinsAccounted run.sound ih

theorem Traffic.Run.acceptedOnce_iff (run : Traffic.Run history traffic) :
    AcceptedOnce history ↔ ∀ moment earlier id, moment :: earlier <:+ history →
      moment.event.unpinned? = some id → Spent id earlier → ¬ moment.before.Evicting id := by
  constructor
  · intro once moment earlier id past unpinned spent
    exact absurd spent ((once.of_suffix past).1 id unpinned)
  · intro never
    induction run with
    | start _ => trivial
    | step run step ih =>
        refine ⟨?_, ih fun moment earlier id past => never moment earlier id
          (past.trans (List.suffix_cons _ _))⟩
        intro id unpinned spent
        obtain ⟨frame, resident, rfl, pinned⟩ := step.unpinned_resident unpinned
        exact never _ _ _ List.suffix_rfl unpinned spent
          (run.pinsAccounted _ frame resident pinned spent)

/-- Ids are accepted once exactly as long as no unpin comes again while the frame is the victim of
an eviction in flight. Any other repetition is refused, and this one is not. -/
theorem Traffic.Run.unpin_again (run : Traffic.Run history traffic) :
    (AcceptedOnce history ↔ ∀ moment earlier id, moment :: earlier <:+ history →
      moment.event.unpinned? = some id → Spent id earlier → ¬ moment.before.Evicting id) ∧
    ∀ id, Spent id history →
      (¬ traffic.Evicting id →
        traffic.subsystem.frames.unpin id = .error (.unpinOfUnpinned id) ∨
          traffic.subsystem.frames.unpin id = .error (.unpinOfStale id)) ∧
      (AcceptedOnce history → traffic.Evicting id →
        ∃ frames, traffic.subsystem.frames.unpin id = .ok frames) := by
  refine ⟨run.acceptedOnce_iff, ?_⟩
  intro id spent
  constructor
  · intro free
    cases unpinned : traffic.subsystem.frames.unpin id with
    | ok frames =>
        obtain ⟨frame, resident, rfl, pinned⟩ := (FrameTable.unpin_ok unpinned).1
        exact absurd (run.pinsAccounted _ frame resident pinned spent) free
    | error halt =>
        rcases FrameTable.unpin_error unpinned with rfl | rfl
        · exact .inl rfl
        · exact .inr rfl
  · rintro once ⟨flight, member, rfl⟩
    have named := run.sound.named flight member
    have resident := (run.held once).resident flight member
    rw [named.2] at resident
    exact FrameTable.unpin_ok_iff.mpr ⟨flight.victim, resident, rfl, named.1⟩

end Runs

theorem Traffic.midWriteback_unpinned_again :
    Spent ⟨0, 0⟩ Traffic.midWriteback.1 ∧ Traffic.midWriteback.2.Evicting ⟨0, 0⟩ ∧
      ∃ frames, Traffic.midWriteback.2.subsystem.frames.unpin ⟨0, 0⟩ = .ok frames := by
  have spent : Spent ⟨0, 0⟩ Traffic.midWriteback.1 := by decide +kernel
  have once : AcceptedOnce Traffic.midWriteback.1 := by decide +kernel
  have evicting : Traffic.midWriteback.2.Evicting ⟨0, 0⟩ := by decide +kernel
  exact ⟨spent, evicting, (Traffic.run_midWriteback.unpin_again.2 _ spent).2 once evicting⟩

/-- The owner of a frame unpins it for the second time while its page is being written back. -/
theorem acceptedOnce_fails : ¬ ∀ (history : List (Moment TouchedSet))
    (traffic : Traffic TouchedSet), Traffic.Run history traffic → AcceptedOnce history := by
  intro always
  have ran := Traffic.run_midWriteback.play (Move.through (.unpin ⟨0, 0⟩) 1)
  exact absurd (always _ _ ran) (by decide +kernel)

end KernelPaging
