import KernelPaging.Proofs.Effects

/-!
Ids over a run. Every resident frame has an id that was issued, it keeps its page and its binding
until its slot is vacated or rebound, and a slot is rebound only under a new id.
-/

set_option autoImplicit false

namespace KernelPaging

variable {bits : Type}

theorem Traffic.index_of_resident {traffic : Traffic bits} {slot : Nat} {frame : Frame}
    (resident : traffic.resident slot = some frame) : frame.id.index = slot := by
  rw [FrameTable.id_of_frameAt resident]

private theorem origin_changed {moment : Moment bits} {index slot : Nat} {value : Option Frame}
    {frame : Frame} (now : moment.after.resident slot = some frame)
    (residents : moment.after.resident = Function.update moment.before.resident index value)
    (issues : ∀ id, moment.event.issued? = some id → id.index = index)
    (here : slot = index → value = some frame →
      moment.event.issued? = some frame.id ∨ moment.event.issued? ≠ some frame.id ∧
        ∃ pinned, moment.before.resident slot = some { frame with pinned }) :
    moment.event.issued? = some frame.id ∨ moment.event.issued? ≠ some frame.id ∧
      ∃ pinned, moment.before.resident slot = some { frame with pinned } := by
  have named := Traffic.index_of_resident now
  rw [residents] at now
  by_cases same : slot = index
  · rw [same, Function.update_self] at now
    exact here same now
  · rw [Function.update_of_ne same] at now
    refine .inr ⟨?_, frame.pinned, now⟩
    intro issued
    exact same (named.symm.trans (issues _ issued))

/-- A resident frame is new, or was there before with its page and its binding. -/
theorem Moment.Effect.origin {moment : Moment bits} (effect : moment.Effect) {slot : Nat}
    {frame : Frame} (now : moment.after.resident slot = some frame) :
    moment.event.issued? = some frame.id ∨
      moment.event.issued? ≠ some frame.id ∧ ∃ pinned,
        moment.before.resident slot = some { frame with pinned } := by
  have none : (∀ id, moment.event.issued? ≠ some id) →
      ∀ {index : Nat} id, moment.event.issued? = some id → id.index = index := by
    intro silent index id issued
    exact absurd issued (silent id)
  cases effect with
  | quiet quiet residents | vanished quiet _ residents =>
      rw [residents] at now
      exact .inr ⟨quiet.not_issued _, frame.pinned, now⟩
  | bound happened _ _ _ residents =>
      refine origin_changed now residents ?_ ?_
      · intro id issued
        rw [happened] at issued
        cases issued
        rfl
      · intro _ value
        cases value
        exact .inl (by rw [happened]; rfl)
  | selected happened _ _ resident residents =>
      have silent : ∀ id, moment.event.issued? ≠ some id := by
        rw [happened]
        nofun
      refine origin_changed now residents (none silent) ?_
      rintro rfl value
      cases value
      exact .inr ⟨silent _, false, resident⟩
  | rebound happened _ frameIs residents =>
      refine origin_changed now residents ?_ ?_
      · intro id issued
        rw [happened] at issued
        cases issued
        rw [frameIs]
      · intro _ value
        cases value
        exact .inl (by rw [happened]; rfl)
  | kept _ quiet residents =>
      refine origin_changed now residents (none quiet.not_issued) ?_
      rintro rfl value
      obtain ⟨old, before, rfl⟩ := Option.map_eq_some_iff.mp value
      exact .inr ⟨quiet.not_issued _, old.pinned, before⟩
  | freed quiet _ _ residents =>
      refine origin_changed now residents (none quiet.not_issued) ?_
      intro _ value
      cases value
  | @unpinned old happened resident _ residents =>
      have silent : ∀ id, moment.event.issued? ≠ some id := by
        rw [happened]
        nofun
      refine origin_changed now residents (none silent) ?_
      rintro rfl value
      cases value
      exact .inr ⟨silent _, old.pinned, resident⟩
  | cleared quiet _ _ residents =>
      rcases residents slot with before | gone
      · rw [before] at now
        exact .inr ⟨quiet.not_issued _, frame.pinned, now⟩
      · rw [gone] at now
        cases now

/-- An id is issued in an empty slot, for a page that was not resident, or in the slot of a victim. -/
theorem Moment.Effect.issue_cases {moment : Moment bits} (effect : moment.Effect) {id : FrameId}
    (issues : moment.event.issued? = some id) :
    (∃ request kpage frame,
      moment.event = .went (.bind request kpage) (.goesOn (.hand frame false)) ∧
      frame.id = id ∧ moment.before.resident id.index = none ∧
      moment.before.subsystem.frames.isBound frame.owner frame.uaddr = false ∧
      moment.after.resident =
        Function.update moment.before.resident id.index (some frame)) ∨
    ∃ flight frame zero,
      moment.event = .went (.finish flight true) (.goesOn (.hand frame zero)) ∧ frame.id = id ∧
      id.index = flight.eviction.slot ∧ flight ∈ moment.before.flights ∧
      frame.owner = flight.request.owner ∧ frame.uaddr = flight.request.uaddr ∧
      moment.after.resident =
        Function.update moment.before.resident id.index (some frame) := by
  cases effect with
  | quiet silent | kept _ silent | vanished silent | freed silent | cleared silent =>
      exact absurd issues (silent.not_issued id)
  | selected happened | unpinned happened =>
      rw [happened] at issues
      cases issues
  | @bound _ _ frame happened frameIs unbound empty residents _ =>
      have issued := issues
      rw [happened] at issued
      cases issued
      refine .inl ⟨_, _, frame, happened, rfl, empty, ?_, residents⟩
      rw [frameIs]
      exact unbound
  | @rebound flight _ frame zero _ _ happened _ frameIs residents flights _ =>
      have issued := issues
      rw [happened] at issued
      cases issued
      have index : frame.id.index = flight.eviction.slot := by rw [frameIs]
      have member : flight ∈ moment.before.flights := by
        rw [flights]
        exact List.mem_append_cons_self
      refine .inr ⟨flight, frame, zero, happened, rfl, index, member, ?_, ?_, ?_⟩
      · rw [frameIs]
      · rw [frameIs]
      · rw [index]
        exact residents

theorem exists_suffix_of_mem {history : List (Moment bits)} {moment : Moment bits}
    (member : moment ∈ history) :
    ∃ earlier, moment :: earlier <:+ history := by
  obtain ⟨later, earlier, rfl⟩ := List.append_of_mem member
  exact ⟨earlier, later, rfl⟩

theorem AcceptedOnce.of_suffix {history earlier : List (Moment bits)} (once : AcceptedOnce history)
    (past : earlier <:+ history) : AcceptedOnce earlier := by
  induction history with
  | nil => rwa [List.eq_nil_of_suffix_nil past]
  | cons moment sooner ih =>
      rcases List.suffix_cons_iff.mp past with same | before
      · rwa [same]
      · exact ih once.2 before

section Runs

variable [AccessedBits bits] {history : List (Moment bits)} {traffic : Traffic bits}

theorem Traffic.Run.issued (run : Traffic.Run history traffic) :
    ∀ slot frame, traffic.resident slot = some frame →
      ∃ moment ∈ history, moment.event.issued? = some frame.id := by
  induction run with
  | start empty =>
      intro slot frame resident
      unfold Traffic.resident at resident
      rw [empty] at resident
      cases resident
  | step run step ih =>
      intro slot frame resident
      rcases (step.effect run.sound).1.origin resident with new | ⟨_, pinned, before⟩
      · exact ⟨_, List.mem_cons_self, new⟩
      · obtain ⟨moment, member, issues⟩ := ih slot _ before
        exact ⟨moment, List.mem_cons_of_mem _ member, issues⟩

theorem Traffic.Run.at_moment (run : Traffic.Run history traffic) {moment : Moment bits}
    {earlier : List (Moment bits)} (past : moment :: earlier <:+ history) :
    Traffic.Run earlier moment.before ∧
      moment.before.Step moment.event moment.after := by
  induction run with
  | start _ => cases List.eq_nil_of_suffix_nil past
  | step run step ih =>
      rcases List.suffix_cons_iff.mp past with same | before
      · cases same
        exact ⟨run, step⟩
      · exact ih before

theorem Traffic.Step.mem_calls {before after : Traffic bits} {call : Call} {outcome : Outcome}
    (step : before.Step (.went call outcome) after) : call ∈ before.calls := by
  cases step with
  | proceed _ => exact List.mem_append_cons_self

theorem Traffic.Step.unpinned_resident {before after : Traffic bits} {event : Event}
    (step : before.Step event after) {id : FrameId} (unpinned : event.unpinned? = some id) :
    ∃ frame, before.resident id.index = some frame ∧ frame.id = id ∧ frame.pinned = true := by
  unfold Event.unpinned? at unpinned
  split at unpinned
  · cases unpinned
    cases step with
    | proceed proceeds =>
        cases proceeds with
        | unpinned unpinned => exact (FrameTable.unpin_ok unpinned).1
  · cases unpinned

theorem PassedOnce.acceptedOnce (run : Traffic.Run history traffic)
    (once : PassedOnce history) : AcceptedOnce history := by
  induction run with
  | start _ => trivial
  | step run step ih =>
      refine ⟨?_, ih once.2⟩
      intro id unpinned spent
      obtain ⟨frame, resident, rfl, _⟩ := step.unpinned_resident unpinned
      have asked := Event.unpinAsked?_of_unpinned unpinned
      exact once.1 _ asked (run.issued _ _ resident) spent.asked

end Runs

end KernelPaging
