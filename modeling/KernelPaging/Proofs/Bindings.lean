import KernelPaging.Proofs.Issues
import KernelPaging.Proofs.Schedules

/-!
Which page of which thread is resident where. A fresh page is refused for a page that is resident
already, but a reclaimed frame is rebound without asking, and may then back a page that another
frame backs as well.
-/

set_option autoImplicit false

namespace KernelPaging

variable {bits : Type}

def Traffic.binding? (traffic : Traffic bits) (slot : Nat) : Option (ThreadId × Address) :=
  (traffic.resident slot).map fun frame => (frame.owner, frame.uaddr)

def Traffic.BindingsUnique (traffic : Traffic bits) : Prop :=
  ∀ slot other binding, traffic.binding? slot = some binding →
    traffic.binding? other = some binding → slot = other

/-- The slot of a victim is rebound to a page that is resident in another slot. -/
def Moment.Doubles (moment : Moment bits) (slot other : Nat) : Prop :=
  slot ≠ other ∧ ∃ flight frame zero,
    moment.event = .went (.finish flight true) (.goesOn (.hand frame zero)) ∧
    flight.eviction.slot = slot ∧
    moment.before.binding? other = some (flight.request.owner, flight.request.uaddr)

def Moment.Keeps (moment : Moment bits) (slot : Nat) : Prop :=
  ∀ frame, moment.before.resident slot = some frame →
    ∃ pinned, moment.after.resident slot = some { frame with pinned }

/-- The one slot was rebound to the page in the other, and both have kept their frames since. -/
def Doubled (slot other : Nat) : List (Moment bits) → Prop
  | [] => False
  | moment :: earlier =>
      moment.Doubles slot other ∨
        moment.Keeps slot ∧ moment.Keeps other ∧ Doubled slot other earlier

def Event.halt? : Event → Option Halt
  | .went _ (.ends (.stopped halt)) => some halt
  | _ => none

section OneStep

variable {moment : Moment bits} {slot other : Nat} {binding : ThreadId × Address}

theorem Moment.Keeps.bound (keeps : moment.Keeps slot)
    (before : moment.before.binding? slot = some binding) :
    moment.after.binding? slot = some binding := by
  obtain ⟨frame, resident, rfl⟩ := Option.map_eq_some_iff.mp before
  obtain ⟨pinned, kept⟩ := keeps frame resident
  exact Option.map_eq_some_iff.mpr ⟨_, kept, rfl⟩

theorem Moment.Effect.issued_or_keeps (effect : moment.Effect)
    (after : moment.after.binding? slot = some binding) :
    (∃ frame, moment.after.resident slot = some frame ∧
      moment.event.issued? = some frame.id ∧ (frame.owner, frame.uaddr) = binding) ∨
    moment.Keeps slot ∧ moment.before.binding? slot = some binding := by
  obtain ⟨frame, resident, same⟩ := Option.map_eq_some_iff.mp after
  rcases effect.origin resident with issued | ⟨_, pinned, before⟩
  · exact .inl ⟨frame, resident, issued, same⟩
  · refine .inr ⟨?_, Option.map_eq_some_iff.mpr ⟨_, before, same⟩⟩
    intro old held
    rw [before] at held
    cases held
    exact ⟨frame.pinned, resident⟩

theorem Moment.Effect.doubles (effect : moment.Effect) (apart : slot ≠ other) {frame : Frame}
    (resident : moment.after.resident slot = some frame)
    (issued : moment.event.issued? = some frame.id)
    (elsewhere : moment.after.binding? other = some (frame.owner, frame.uaddr)) :
    moment.Doubles slot other := by
  have index := Traffic.index_of_resident resident
  rcases effect.issue_cases issued with
    ⟨_, _, new, _, _, _, unbound, residents⟩ |
    ⟨flight, new, zero, happened, _, sameSlot, _, owner, uaddr, residents⟩
  · rw [index] at residents
    rw [residents, Function.update_self] at resident
    cases resident
    obtain ⟨held, there, binding⟩ := Option.map_eq_some_iff.mp elsewhere
    rw [residents, Function.update_of_ne apart.symm] at there
    have bound := FrameTable.isBound_iff.mpr
      ⟨other, held, there, congrArg Prod.fst binding, congrArg Prod.snd binding⟩
    rw [unbound] at bound
    cases bound
  · rw [index] at residents sameSlot
    rw [residents, Function.update_self] at resident
    cases resident
    refine ⟨apart, flight, _, zero, happened, sameSlot.symm, ?_⟩
    unfold Traffic.binding? at elsewhere ⊢
    rw [residents, Function.update_of_ne apart.symm, owner, uaddr] at elsewhere
    exact elsewhere

theorem Moment.Doubles.shared (doubles : moment.Doubles slot other) (effect : moment.Effect) :
    ∃ binding, moment.after.binding? slot = some binding ∧
      moment.after.binding? other = some binding := by
  obtain ⟨apart, flight, frame, zero, happened, rfl, elsewhere⟩ := doubles
  have issued : moment.event.issued? = some frame.id := by rw [happened]; rfl
  rcases effect.issue_cases issued with
    ⟨_, _, _, bound, _⟩ | ⟨_, new, _, rebound, _, sameSlot, _, owner, uaddr, residents⟩
  · rw [happened] at bound
    cases bound
  · rw [happened] at rebound
    cases rebound
    rw [sameSlot] at residents
    have there : moment.after.binding? other = moment.before.binding? other := by
      unfold Traffic.binding?
      rw [residents, Function.update_of_ne apart.symm]
    refine ⟨_, ?_, there.trans elsewhere⟩
    unfold Traffic.binding?
    rw [residents, Function.update_self, ← owner, ← uaddr]
    rfl

end OneStep

section Runs

variable [AccessedBits bits] {history : List (Moment bits)} {traffic : Traffic bits}

theorem Traffic.Run.doubled_of_shared (run : Traffic.Run history traffic) :
    ∀ slot other binding, slot ≠ other → traffic.binding? slot = some binding →
      traffic.binding? other = some binding →
        Doubled slot other history ∨ Doubled other slot history := by
  induction run with
  | start empty =>
      intro slot other binding _ here
      unfold Traffic.binding? Traffic.resident at here
      rw [empty] at here
      cases here
  | step run step ih =>
      intro slot other binding apart here there
      have effect := (step.effect run.sound).1
      rcases effect.issued_or_keeps here with ⟨frame, resident, issued, rfl⟩ | ⟨keeps, before⟩
      · exact .inl (.inl (effect.doubles apart resident issued there))
      · rcases effect.issued_or_keeps there with
          ⟨frame, resident, issued, rfl⟩ | ⟨alsoKeeps, alsoBefore⟩
        · exact .inr (.inl (effect.doubles apart.symm resident issued here))
        · rcases ih slot other binding apart before alsoBefore with doubled | doubled
          · exact .inl (.inr ⟨keeps, alsoKeeps, doubled⟩)
          · exact .inr (.inr ⟨alsoKeeps, keeps, doubled⟩)

theorem Traffic.Run.shared_of_doubled (run : Traffic.Run history traffic) :
    ∀ slot other, Doubled slot other history → slot ≠ other ∧ ∃ binding,
      traffic.binding? slot = some binding ∧ traffic.binding? other = some binding := by
  induction run with
  | start _ =>
      intro slot other impossible
      cases impossible
  | step run step ih =>
      rintro slot other (doubles | ⟨keeps, alsoKeeps, doubled⟩)
      · exact ⟨doubles.1, doubles.shared (step.effect run.sound).1⟩
      · obtain ⟨apart, binding, here, there⟩ := ih slot other doubled
        exact ⟨apart, binding, keeps.bound here, alsoKeeps.bound there⟩

/-- Two frames back the same page exactly if one was reclaimed for a page that the other backed
already. Fresh pages are always refused for such a page. -/
theorem Traffic.Run.bindings_unique_iff (run : Traffic.Run history traffic) :
    (traffic.BindingsUnique ↔ ∀ slot other, ¬ Doubled slot other history) ∧
      ∀ slot owner uaddr kpage, traffic.binding? slot = some (owner, uaddr) →
        traffic.subsystem.frames.enroll owner uaddr kpage =
          .error (.alreadyResident owner uaddr) := by
  refine ⟨⟨?_, ?_⟩, ?_⟩
  · intro unique slot other doubled
    obtain ⟨apart, binding, here, there⟩ := run.shared_of_doubled slot other doubled
    exact apart (unique slot other binding here there)
  · intro never slot other binding here there
    by_cases apart : slot = other
    · exact apart
    · rcases run.doubled_of_shared slot other binding apart here there with doubled | doubled
      · exact absurd doubled (never slot other)
      · exact absurd doubled (never other slot)
  · intro slot owner uaddr kpage bound
    obtain ⟨frame, resident, same⟩ := Option.map_eq_some_iff.mp bound
    refine FrameTable.enroll_error_iff.mpr ⟨?_, rfl⟩
    exact FrameTable.isBound_iff.mpr
      ⟨slot, frame, resident, congrArg Prod.fst same, congrArg Prod.snd same⟩

end Runs

/-- Thread 2 has its page resident, and gets the frame of thread 1 for it on top. -/
def Traffic.twiceBound : List (Moment TouchedSet) × Traffic TouchedSet :=
  Traffic.play
    (Move.through (.obtain (.simple 1)) 3 ++ Move.through (.obtain (.simple 2)) 3 ++
      Move.through (.unpin ⟨0, 0⟩) 1 ++ Move.through (.obtain (.simple 2)) 6)
    ([], Traffic.idle 2)

theorem Traffic.run_twiceBound : Traffic.Run Traffic.twiceBound.1 Traffic.twiceBound.2 :=
  (Traffic.run_idle 2).play _

theorem Traffic.twiceBound_shared : ¬ Traffic.twiceBound.2.BindingsUnique := by
  intro unique
  have here : Traffic.twiceBound.2.binding? 0 = some (⟨2⟩, default) := by decide +kernel
  have there : Traffic.twiceBound.2.binding? 1 = some (⟨2⟩, default) := by decide +kernel
  cases unique 0 1 _ here there

theorem Traffic.twiceBound_doubled : ∃ slot other, Doubled slot other Traffic.twiceBound.1 := by
  have shared := Traffic.twiceBound_shared
  rw [Traffic.run_twiceBound.bindings_unique_iff.1] at shared
  simpa using shared

theorem bindingsUnique_fails : ¬ ∀ (history : List (Moment TouchedSet))
    (traffic : Traffic TouchedSet), Traffic.Run history traffic →
      (∀ moment ∈ history, moment.event.halt? = none) → traffic.flights = [] →
        traffic.BindingsUnique := by
  intro always
  exact Traffic.twiceBound_shared
    (always _ _ Traffic.run_twiceBound (by decide +kernel) (by decide +kernel))

end KernelPaging
