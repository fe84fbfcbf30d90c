import KernelPaging.Proofs.Issues
import KernelPaging.Proofs.Schedules
import KernelPaging.Proofs.Turnover

/-!
Ids as names. The generation of a slot is the number of frames it has let go, as far as a generation
can count. Up to that point an id names the frame it was issued for or nothing, and an id that names
nothing is never heard of again, so that a stale entry of a supplemental table does no harm.
-/

set_option autoImplicit false

namespace KernelPaging

variable {bits : Type}

/-- The id of the frame in the slot stops naming it. -/
def Moment.retires (moment : Moment bits) (slot : Nat) : Bool :=
  (moment.before.resident slot).any fun frame =>
    (moment.after.subsystem.frames.frame? frame.id).isNone

def retirements (slot : Nat) (history : List (Moment bits)) : Nat :=
  history.countP (·.retires slot)

def issuedFrames (history : List (Moment bits)) : List Frame :=
  history.filterMap fun moment => moment.event.issue?

def Event.returned? : Event → Option Frame
  | .went (.hand _ _) (.ends (.allocated (.ok frame))) => some frame
  | _ => none

def returnedFrames (history : List (Moment bits)) : List Frame :=
  history.filterMap fun moment => moment.event.returned?

/-- An allocation has returned the frame, and its id was seen to name nothing since. -/
def Gone (frame : Frame) (history : List (Moment bits)) : Prop :=
  ∃ moment earlier, moment :: earlier <:+ history ∧ frame ∈ returnedFrames (moment :: earlier) ∧
    moment.after.subsystem.frames.frame? frame.id = none

section Counting

variable {slot : Nat} {history earlier : List (Moment bits)}

theorem retirements_cons (moment : Moment bits) :
    retirements slot (moment :: earlier) =
      retirements slot earlier + if moment.retires slot then 1 else 0 :=
  List.countP_cons

theorem retirements_mono (past : earlier <:+ history) :
    retirements slot earlier ≤ retirements slot history :=
  past.sublist.countP_le

theorem Moment.retires_of_none {moment : Moment bits}
    (empty : moment.before.resident slot = none) : moment.retires slot = false := by
  unfold Moment.retires
  rw [empty]
  rfl

theorem Moment.retires_eq {moment : Moment bits} {frame : Frame}
    (resident : moment.before.resident slot = some frame) :
    moment.retires slot = (moment.after.subsystem.frames.frame? frame.id).isNone := by
  unfold Moment.retires
  rw [resident]
  rfl

end Counting

theorem Moment.Turn.retires {moment : Moment bits} {slot : Nat} (turn : moment.Turn slot) :
    moment.retires slot = false ∧
        moment.after.generation slot = moment.before.generation slot ∨
      moment.retires slot = true ∧
        moment.after.generation slot = moment.before.generation slot + 1 := by
  cases turn with
  | empty before _ same => exact .inl ⟨Moment.retires_of_none before, same⟩
  | comes _ before _ same => exact .inl ⟨Moment.retires_of_none before, same⟩
  | @stays frame pinned before after same =>
      refine .inl ⟨?_, same⟩
      have named : moment.after.subsystem.frames.frame? frame.id = some { frame with pinned } :=
        Traffic.frame?_of_resident after
      rw [Moment.retires_eq before, named]
      rfl
  | @leaves frame _ before after next =>
      refine .inr ⟨?_, next⟩
      rw [Moment.retires_eq before, Option.isNone_iff_eq_none, Option.eq_none_iff_forall_ne_some]
      intro other named
      have resident := (FrameTable.frame?_eq_some_iff.mp named).1
      rw [Traffic.index_of_resident before] at resident
      cases resident.symm.trans after
  | @passes _ old frame _ _ _ before after _ next =>
      refine .inr ⟨?_, next⟩
      rw [Moment.retires_eq before, Option.isNone_iff_eq_none, Option.eq_none_iff_forall_ne_some]
      intro other named
      obtain ⟨resident, same⟩ := FrameTable.frame?_eq_some_iff.mp named
      rw [Traffic.index_of_resident before] at resident
      -- The slot is occupied again, but a generation later.
      have generation := Traffic.generation_of_resident resident
      rw [same, Traffic.generation_of_resident before, next] at generation
      simp at generation

/-- The frame is where it was issued, but for its pin. -/
def Traffic.Shows (traffic : Traffic bits) (frame : Frame) : Prop :=
  ∃ pinned, traffic.resident frame.id.index = some { frame with pinned }

theorem Traffic.Shows.frame? {traffic : Traffic bits} {frame : Frame}
    (shows : traffic.Shows frame) :
    ∃ pinned, traffic.subsystem.frames.frame? frame.id = some { frame with pinned } := by
  obtain ⟨pinned, resident⟩ := shows
  exact ⟨pinned, Traffic.frame?_of_resident resident⟩

def Retired (frame : Frame) (history : List (Moment bits)) : Prop :=
  frame.id.generation.toNat < retirements frame.id.index history

theorem Retired.later {frame : Frame} {history earlier : List (Moment bits)}
    (retired : Retired frame earlier) (past : earlier <:+ history) : Retired frame history :=
  Nat.lt_of_lt_of_le retired (retirements_mono past)

/-- No slot was retired as often as there are generations. -/
def WithinGenerations (history : List (Moment bits)) : Prop :=
  ∀ slot, retirements slot history < 2 ^ 32

theorem WithinGenerations.of_suffix {history earlier : List (Moment bits)}
    (within : WithinGenerations history) (past : earlier <:+ history) :
    WithinGenerations earlier :=
  fun slot => Nat.lt_of_le_of_lt (retirements_mono past) (within slot)

theorem WithinGenerations.of_length {history : List (Moment bits)}
    (short : history.length < 2 ^ 32) : WithinGenerations history :=
  fun _ => Nat.lt_of_le_of_lt List.countP_le_length short

section Runs

variable [AccessedBits bits] {history : List (Moment bits)} {traffic : Traffic bits}

theorem Traffic.Run.generation_eq (run : Traffic.Run history traffic) (slot : Nat) :
    traffic.generation slot = UInt32.ofNat (retirements slot history) := by
  induction run with
  | start empty =>
      unfold Traffic.generation
      rw [empty]
      rfl
  | step run step ih =>
      rw [retirements_cons]
      cases (step.turn run.sound.wellFormed slot).retires with
      | inl kept =>
          rw [kept.1]
          exact kept.2.trans ih
      | inr retired =>
          rw [retired.1]
          refine retired.2.trans ?_
          rw [ih, if_pos rfl, UInt32.ofNat_add]
          rfl

theorem Traffic.Run.generation_toNat (run : Traffic.Run history traffic)
    (within : WithinGenerations history) (slot : Nat) :
    (traffic.generation slot).toNat = retirements slot history := by
  rw [run.generation_eq]
  exact UInt32.toNat_ofNat_of_lt' (within slot)

theorem Retired.frame?_eq_none {frame : Frame} (retired : Retired frame history)
    (run : Traffic.Run history traffic) (within : WithinGenerations history) :
    traffic.subsystem.frames.frame? frame.id = none := by
  rw [Option.eq_none_iff_forall_ne_some]
  intro other named
  obtain ⟨resident, same⟩ := FrameTable.frame?_eq_some_iff.mp named
  have generation := Traffic.generation_of_resident resident
  have count := run.generation_toNat within frame.id.index
  unfold Retired at retired
  rw [← count, ← generation, same] at retired
  exact Nat.lt_irrefl _ retired

theorem Traffic.Shows.next {before after : Traffic bits} {event : Event} {frame : Frame}
    {earlier : List (Moment bits)} (shows : before.Shows frame) (run : Traffic.Run earlier before)
    (within : WithinGenerations earlier) (step : before.Step event after) :
    after.Shows frame ∨ Retired frame (⟨before, event, after⟩ :: earlier) := by
  obtain ⟨pinned, resident⟩ := shows
  have turn := step.turn run.sound.wellFormed frame.id.index
  have generation := Traffic.generation_of_resident resident
  have count := run.generation_toNat within frame.id.index
  rw [← generation] at count
  have counts : retirements frame.id.index (⟨before, event, after⟩ :: earlier) = _ :=
    retirements_cons _
  cases turn.retires with
  | inl kept =>
      left
      cases turn with
      | stays held now _ =>
          cases resident.symm.trans held
          exact ⟨_, now⟩
      | empty empty _ _ | comes _ empty _ _ => cases resident.symm.trans empty
      | leaves _ _ _ next | passes _ _ _ _ _ next =>
          -- These move the generation on, and no word is its own successor.
          have stuck := kept.2.symm.trans next
          simp at stuck
  | inr retired =>
      right
      unfold Retired
      rw [retired.1, if_pos rfl, ← count] at counts
      rw [counts]
      exact Nat.lt_succ_self _

/-- An issued frame is where it was issued, or the slot has let go of it. -/
theorem Traffic.Run.shows_or_retired (run : Traffic.Run history traffic)
    (within : WithinGenerations history) :
    ∀ frame ∈ issuedFrames history, traffic.Shows frame ∨ Retired frame history := by
  induction run with
  | start _ =>
      intro frame impossible
      cases impossible
  | @step earlier before after event run step ih =>
      intro frame member
      have past : earlier <:+ ⟨before, event, after⟩ :: earlier := List.suffix_cons _ _
      unfold issuedFrames at member
      rw [List.filterMap_cons] at member
      have old : frame ∈ issuedFrames earlier →
          after.Shows frame ∨ Retired frame (⟨before, event, after⟩ :: earlier) := by
        intro sooner
        cases ih (within.of_suffix past) frame sooner with
        | inl shows => exact shows.next run (within.of_suffix past) step
        | inr retired => exact .inr (retired.later past)
      split at member
      · exact old member
      · next new issue =>
        cases List.mem_cons.mp member with
        | inl same =>
            subst same
            have issued := step.issue run.sound.wellFormed issue
            exact .inl ⟨frame.pinned, issued.2.1⟩
        | inr sooner => exact old sooner

theorem Traffic.Run.issued_apart (run : Traffic.Run history traffic)
    (within : WithinGenerations history) : ((issuedFrames history).map Frame.id).Nodup := by
  induction run with
  | start _ => exact List.nodup_nil
  | @step earlier before after event run step ih =>
      have past : earlier <:+ ⟨before, event, after⟩ :: earlier := List.suffix_cons _ _
      have apart := ih (within.of_suffix past)
      unfold issuedFrames
      rw [List.filterMap_cons]
      split
      · exact apart
      · next new issue =>
        rw [List.map_cons, List.nodup_cons]
        refine ⟨?_, apart⟩
        intro repeated
        obtain ⟨frame, sooner, same⟩ := List.mem_map.mp repeated
        cases run.shows_or_retired (within.of_suffix past) frame sooner with
        | inl shows =>
            obtain ⟨_, named⟩ := shows.frame?
            have unnamed := step.issue_unnamed run.sound.wellFormed issue
            rw [← same, named] at unnamed
            cases unnamed
        | inr retired =>
            have nameless := (retired.later past).frame?_eq_none (run.step step) within
            have issued := step.issue run.sound.wellFormed issue
            rw [same, Traffic.frame?_of_resident issued.2.1] at nameless
            cases nameless

end Runs

/-! ### What allocations return -/

def Call.handed? : Call → Option Frame
  | .hand frame _ => some frame
  | _ => none

def Traffic.pending (traffic : Traffic bits) : List Frame :=
  traffic.calls.filterMap Call.handed?

section Returns

variable [AccessedBits bits] {history : List (Moment bits)} {before after traffic : Traffic bits}
  {event : Event}

theorem Call.Proceeds.handed_on {before after : Subsystem bits} {call : Call} {outcome : Outcome}
    (proceeds : call.Proceeds before outcome after) :
    (Event.went call outcome).issue?.toList ++ call.handed?.toList =
      (Event.went call outcome).returned?.toList ++ outcome.calls.filterMap Call.handed? := by
  cases proceeds with
  | _ => rfl

private theorem filterMap_cons_toList {α : Type} (value? : α → Option Frame) (first : α)
    (rest : List α) :
    (first :: rest).filterMap value? = (value? first).toList ++ rest.filterMap value? := by
  rw [List.filterMap_cons]
  cases value? first with
  | none => rfl
  | some value => rfl

theorem Traffic.Step.pending (step : before.Step event after) :
    (event.issue?.toList ++ before.pending).Perm (event.returned?.toList ++ after.pending) := by
  cases step with
  | @begin _ call entry =>
      have none : call.handed? = none := by
        cases call with
        | hand => cases entry
        | _ => rfl
      unfold Traffic.pending
      rw [List.filterMap_cons_none none]
      exact List.Perm.refl _
  | outside _ => exact List.Perm.refl _
  | @proceed subsystem later call outcome earlier rest proceeds =>
      rw [List.perm_iff_count]
      intro frame
      have here := congrArg (List.count frame) proceeds.handed_on
      unfold Traffic.pending
      simp only [List.filterMap_append, filterMap_cons_toList, List.count_append] at here ⊢
      omega

theorem Traffic.Run.returned_or_pending (run : Traffic.Run history traffic) :
    (issuedFrames history).Perm (returnedFrames history ++ traffic.pending) := by
  induction run with
  | start _ => exact List.Perm.refl _
  | @step earlier before after event run step ih =>
      have moved := step.pending
      unfold issuedFrames returnedFrames at ih ⊢
      rw [filterMap_cons_toList, filterMap_cons_toList]
      rw [List.perm_iff_count] at moved ih ⊢
      intro frame
      have now := moved frame
      have sooner := ih frame
      simp only [List.count_append] at now sooner ⊢
      omega

theorem Traffic.Run.issued_of_returned (run : Traffic.Run history traffic) {frame : Frame}
    (returned : frame ∈ returnedFrames history) : frame ∈ issuedFrames history :=
  run.returned_or_pending.symm.subset (List.mem_append_left _ returned)

theorem Traffic.Run.returned_apart (run : Traffic.Run history traffic)
    (within : WithinGenerations history) : ((returnedFrames history).map Frame.id).Nodup := by
  have apart := (run.returned_or_pending.map Frame.id).nodup_iff.mp (run.issued_apart within)
  rw [List.map_append] at apart
  exact (List.nodup_append.mp apart).1

theorem Traffic.Run.returned_named (run : Traffic.Run history traffic)
    (within : WithinGenerations history) {frame : Frame} (returned : frame ∈ returnedFrames history) :
    traffic.subsystem.frames.frame? frame.id = none ∨
      ∃ pinned, traffic.subsystem.frames.frame? frame.id = some { frame with pinned } := by
  cases run.shows_or_retired within frame (run.issued_of_returned returned) with
  | inl shows => exact .inr shows.frame?
  | inr retired => exact .inl (retired.frame?_eq_none run within)

theorem Traffic.Run.gone (run : Traffic.Run history traffic)
    (within : WithinGenerations history) {frame : Frame} (gone : Gone frame history) :
    traffic.subsystem.frames.frame? frame.id = none := by
  obtain ⟨moment, earlier, past, returned, nameless⟩ := gone
  obtain ⟨ran, step⟩ := run.at_moment past
  have sooner := ran.step step
  have issued := sooner.issued_of_returned returned
  cases sooner.shows_or_retired (within.of_suffix past) frame issued with
  | inl shows =>
      obtain ⟨_, named⟩ := shows.frame?
      cases nameless.symm.trans named
  | inr retired => exact (retired.later past).frame?_eq_none run within

/-! ### Stale entries -/

theorem Traffic.Step.free_nameless {id : FrameId} {outcome : Outcome}
    (step : before.Step (.went (.free (some id)) outcome) after)
    (nameless : before.subsystem.frames.frame? id = none) :
    outcome = .ends (.freed .notResident none) ∧
      after.subsystem.frames = before.subsystem.frames := by
  have stale := FrameTable.detach_of_unnamed nameless
  cases step with
  | proceed proceeds =>
      cases proceeds with
      | freedStale detached => exact ⟨rfl, FrameTable.detach_kept detached (by simp)⟩
      | freedPinned detached => cases stale.symm.trans detached
      | freed detached => cases stale.symm.trans detached

theorem Traffic.Step.tearDown_names {owner : ThreadId} {table : SupplementalTable}
    {outcome : Outcome} (step : before.Step (.went (.tearDown owner table) outcome) after)
    {slot : Nat} {frame : Frame} (resident : before.resident slot = some frame)
    (touched : after.resident slot ≠ some frame) : some frame.id ∈ table := by
  cases step with
  | @proceed subsystem _ _ _ _ _ proceeds =>
      cases proceeds with
      | dozes _ => exact absurd resident touched
      | tornDown _ =>
          have spec := FrameTable.removeNamed_slot table slot subsystem.frames
          unfold Traffic.resident at resident
          dsimp only at resident
          rw [resident] at spec
          dsimp only at spec
          split at spec
          · next named => exact named
          · exact absurd (congrArg Prod.fst spec) touched

theorem Traffic.Run.tornDown_named (run : Traffic.Run history before)
    (within : WithinGenerations history) {owner : ThreadId} {table : SupplementalTable}
    {outcome : Outcome} (step : before.Step (.went (.tearDown owner table) outcome) after)
    {slot : Nat} {occupant : Frame} (resident : before.resident slot = some occupant)
    (touched : after.resident slot ≠ some occupant) :
    some occupant.id ∈ table ∧ (∀ frame, Gone frame history → frame.id ≠ occupant.id) ∧
      ((∀ id, some id ∈ table →
        ∃ frame ∈ returnedFrames history, frame.id = id ∧ frame.owner = owner) →
          occupant.owner = owner) := by
  have listed := step.tearDown_names resident touched
  have named := Traffic.frame?_of_resident resident
  refine ⟨listed, ?_, ?_⟩
  · intro frame gone same
    have nameless := run.gone within gone
    rw [same, named] at nameless
    cases nameless
  · intro entries
    obtain ⟨frame, returned, same, rfl⟩ := entries occupant.id listed
    cases run.returned_named within returned with
    | inl nameless =>
        rw [same, named] at nameless
        cases nameless
    | inr kept =>
        obtain ⟨pinned, kept⟩ := kept
        rw [same, named] at kept
        have sameOwner := congrArg Frame.owner (Option.some.inj kept)
        exact sameOwner

/-- An id that an allocation returned names that frame or nothing, and once it names nothing it
never names anything again. What is freed or torn down under it is that frame or nothing. -/
theorem Traffic.Run.names_faithful (run : Traffic.Run history traffic)
    (within : WithinGenerations history) :
    ((returnedFrames history).map Frame.id).Nodup ∧
    (∀ frame ∈ returnedFrames history, traffic.subsystem.frames.frame? frame.id = none ∨
      ∃ pinned, traffic.subsystem.frames.frame? frame.id = some { frame with pinned }) ∧
    (∀ frame, Gone frame history → traffic.subsystem.frames.frame? frame.id = none) ∧
    ∀ moment earlier, moment :: earlier <:+ history →
      (∀ frame outcome, Gone frame earlier →
        moment.event = .went (.free (some frame.id)) outcome →
          outcome = .ends (.freed .notResident none) ∧
            moment.after.subsystem.frames = moment.before.subsystem.frames) ∧
      ∀ owner table outcome, moment.event = .went (.tearDown owner table) outcome →
        ∀ slot occupant, moment.before.resident slot = some occupant →
          moment.after.resident slot ≠ some occupant →
            some occupant.id ∈ table ∧ (∀ frame, Gone frame earlier → frame.id ≠ occupant.id) ∧
              ((∀ id, some id ∈ table →
                ∃ frame ∈ returnedFrames earlier, frame.id = id ∧ frame.owner = owner) →
                  occupant.owner = owner) := by
  refine ⟨run.returned_apart within, ?_, ?_, ?_⟩
  · intro frame returned
    exact run.returned_named within returned
  · intro frame gone
    exact run.gone within gone
  · intro moment earlier past
    obtain ⟨ran, step⟩ := run.at_moment past
    have sooner := within.of_suffix ((List.suffix_cons _ _).trans past)
    constructor
    · intro frame outcome gone happened
      rw [happened] at step
      exact step.free_nameless (ran.gone sooner gone)
    · intro owner table outcome happened slot occupant resident touched
      rw [happened] at step
      exact ran.tornDown_named sooner step resident touched

end Returns

/-- The only frame goes from thread 1 to thread 2, and then thread 1 is torn down with the entry it
still has for the frame. -/
def Traffic.recycled : List (Moment TouchedSet) × Traffic TouchedSet :=
  Traffic.play
    (Move.through (.obtain (.simple 1)) 3 ++ Move.through (.unpin ⟨0, 0⟩) 1 ++
      Move.through (.obtain (.simple 2)) 6 ++ Move.through (.tearDown ⟨1⟩ [some ⟨0, 0⟩]) 2)
    ([], Traffic.idle 1)

theorem Traffic.run_recycled : Traffic.Run Traffic.recycled.1 Traffic.recycled.2 :=
  (Traffic.run_idle 1).play _

theorem Traffic.recycled_gone : Gone Frame.first Traffic.recycled.1 := by
  have happened : Traffic.recycled.1 ≠ [] := List.ne_nil_of_length_pos (by decide +kernel)
  refine ⟨Traffic.recycled.1.head happened, Traffic.recycled.1.tail, ?_, ?_, ?_⟩
  · rw [List.cons_head_tail]
  · rw [List.cons_head_tail]
    decide +kernel
  · revert happened
    decide +kernel

theorem Traffic.recycled_names : WithinGenerations Traffic.recycled.1 ∧
    (returnedFrames Traffic.recycled.1).map Frame.id = [⟨0, 1⟩, ⟨0, 0⟩] ∧
    ((returnedFrames Traffic.recycled.1).map Frame.id).Nodup ∧
    Gone Frame.first Traffic.recycled.1 ∧
    Traffic.recycled.2.subsystem.frames.frame? ⟨0, 0⟩ = none := by
  have within : WithinGenerations Traffic.recycled.1 :=
    WithinGenerations.of_length (by decide +kernel)
  have faithful := Traffic.run_recycled.names_faithful within
  exact ⟨within, by decide +kernel, faithful.1, Traffic.recycled_gone,
    faithful.2.2.1 _ Traffic.recycled_gone⟩

end KernelPaging
