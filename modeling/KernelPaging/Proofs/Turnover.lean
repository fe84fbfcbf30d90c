import KernelPaging.Proofs.Issues

/-!
How a slot changes hands. Its generation counts the frames it has let go: it stays as long as a
frame stays, or the slot stays empty, and moves on by one when the frame is freed, torn down or
gives way to another one.
-/

set_option autoImplicit false

namespace KernelPaging

@[simp] theorem FrameTable.generationAt_setPinned (table : FrameTable) (index other : Nat)
    (pinned : Bool) :
    (table.setPinned index pinned).generationAt other = table.generationAt other :=
  FrameTable.generationAt_updateOccupant _ _ _ _

theorem FrameTable.HandMoved.generationAt {table after : FrameTable}
    (moved : table.HandMoved after) : after.generationAt = table.generationAt := by
  obtain ⟨hand, same, _⟩ := moved
  rw [same]
  rfl

theorem FrameTable.Represents.generationAt_insert {table : FrameTable} {ring : List Nat}
    (represents : table.Represents ring) (record : FrameRecord) :
    (table.insert record).2.generationAt = table.generationAt := by
  funext other
  rw [FrameTable.insert_table, FrameTable.generationAt_fill, FrameTable.generationAt_linkLast,
    represents.reserve.generation]

private theorem generationAt_next {table : FrameTable} {index : Nat} {occupant : Occupant}
    (found : table.occupant? index = some occupant) (left : Option Occupant) :
    (table.updateSlot index fun slot =>
      { generation := slot.generation + 1, occupant := left }).generationAt =
        Function.update table.generationAt index (table.generationAt index + 1) := by
  funext other
  rw [FrameTable.generationAt_updateSlot, Function.update_apply]
  by_cases same : index = other
  · subst same
    rw [if_pos rfl, if_pos rfl, FrameTable.slot_of_occupant found]
    rfl
  · rw [if_neg same, if_neg (Ne.symm same)]

theorem FrameTable.generationAt_reassign {table after : FrameTable} {index : Nat}
    {owner : ThreadId} {uaddr : Address} {frame : Frame}
    (reassigned : table.reassign index owner uaddr = some (frame, after)) :
    after.generationAt =
      Function.update table.generationAt index (table.generationAt index + 1) := by
  unfold FrameTable.reassign at reassigned
  cases found : table.occupant? index with
  | none =>
      rw [found] at reassigned
      cases reassigned
  | some occupant =>
      rw [found] at reassigned
      cases reassigned
      exact generationAt_next found _

theorem FrameTable.generationAt_unlink (table : FrameTable) (index previous next other : Nat) :
    (table.unlink index previous next).generationAt other = table.generationAt other := by
  unfold FrameTable.unlink
  split
  · rfl
  · exact (FrameTable.generationAt_updateOccupant _ _ _ _).trans
      (FrameTable.generationAt_updateOccupant _ _ _ _)

theorem FrameTable.generationAt_remove {table after : FrameTable} {id : FrameId}
    {record : FrameRecord} (removed : table.remove id = some (record, after)) :
    after.generationAt =
      Function.update table.generationAt id.index (table.generationAt id.index + 1) := by
  obtain ⟨occupant, resolved, _, rfl⟩ := FrameTable.remove_eq_some_iff.mp removed
  have resident := FrameTable.resolve_iff_frameAt.mp ⟨occupant, resolved, rfl⟩
  have unlinked : ∃ frame, (table.unlink id.index occupant.previous occupant.next).frameAt?
      id.index = some frame := by
    rw [FrameTable.frameAt?_unlink]
    exact ⟨_, resident.1⟩
  obtain ⟨_, unlinked⟩ := unlinked
  obtain ⟨_, found, _⟩ := FrameTable.frameAt?_eq_some_iff.mp unlinked
  have next := generationAt_next found none
  have kept : (table.unlink id.index occupant.previous occupant.next).generationAt =
      table.generationAt := by
    funext other
    exact table.generationAt_unlink id.index occupant.previous occupant.next other
  rw [kept] at next
  exact next

theorem FrameTable.generationAt_enroll {table after : FrameTable} {owner : ThreadId}
    {uaddr kpage : Address} {frame : Frame} (wellFormed : table.WellFormed)
    (enrolled : table.enroll owner uaddr kpage = .ok (frame, after)) :
    after.generationAt = table.generationAt := by
  unfold FrameTable.enroll at enrolled
  split at enrolled
  · cases enrolled
  · have same := wellFormed.generationAt_insert { owner, uaddr, kpage, pinned := true }
    rw [Except.ok.inj enrolled] at same
    exact same

theorem FrameTable.generationAt_startEviction {bits : Type} [AccessedBits bits]
    {table after : FrameTable} {marks left : bits} {result : Except AllocError Eviction}
    (started : table.startEviction marks = .ok (result, after, left)) :
    after.generationAt = table.generationAt := by
  unfold FrameTable.startEviction at started
  split at started
  · cases started
  · next selected =>
    cases started
    exact (FrameTable.selectVictim_spec selected).1.generationAt
  · next selected =>
    split at started
    · cases started
    · cases started
      rw [← (FrameTable.selectVictim_spec selected).1.generationAt]
      funext other
      exact FrameTable.generationAt_setPinned _ _ _ _

theorem FrameTable.generationAt_finishEviction {table after : FrameTable} {eviction : Eviction}
    {owner : ThreadId} {uaddr : Address} {written : Bool} {ending : EvictionEnd}
    (finished : table.finishEviction eviction owner uaddr written = .ok (ending, after)) :
    (∀ frame, ending = .rebound frame → after.generationAt =
      Function.update table.generationAt eviction.slot
        (table.generationAt eviction.slot + 1)) ∧
    ((∀ frame, ending ≠ .rebound frame) → after.generationAt = table.generationAt) := by
  unfold FrameTable.finishEviction at finished
  cases written with
  | true =>
      cases reassigned : table.reassign eviction.slot owner uaddr with
      | none =>
          simp only [reassigned, if_true] at finished
          obtain ⟨rfl, _, same⟩ := FrameTable.finish_barrier finished
          rw [same]
          exact ⟨nofun, fun _ => rfl⟩
      | some rebound =>
          simp only [reassigned, if_true] at finished
          obtain ⟨rfl, _, same⟩ := FrameTable.finish_barrier finished
          have next := FrameTable.generationAt_reassign reassigned
          rw [same]
          exact ⟨fun _ _ => next, fun other => absurd rfl (other _)⟩
  | false =>
      simp only [Bool.false_eq_true, if_false] at finished
      obtain ⟨rfl, _, same⟩ := FrameTable.finish_barrier finished
      rw [same]
      refine ⟨nofun, fun _ => ?_⟩
      funext other
      exact FrameTable.generationAt_setPinned _ _ _ _

theorem FrameTable.removeNamed_slot (entries : List (Option FrameId)) (slot : Nat) :
    ∀ table : FrameTable,
      ((table.removeNamed entries).2.frameAt? slot,
          (table.removeNamed entries).2.generationAt slot) =
        match table.frameAt? slot with
        | none => (none, table.generationAt slot)
        | some frame =>
            if some frame.id ∈ entries then (none, table.generationAt slot + 1)
            else (some frame, table.generationAt slot) := by
  induction entries with
  | nil =>
      intro table
      cases resident : table.frameAt? slot with
      | none => exact Prod.ext resident rfl
      | some frame => exact Prod.ext resident rfl
  | cons entry entries ih =>
      intro table
      cases entry with
      | none =>
          simp only [FrameTable.removeNamed, ih, List.mem_cons, reduceCtorEq, false_or]
      | some id =>
          unfold FrameTable.removeNamed
          cases removed : table.remove id with
          | none =>
              rw [ih]
              cases resident : table.frameAt? slot with
              | none => rfl
              | some frame =>
                  have other := FrameTable.id_ne_of_stale removed resident
                  simp only [List.mem_cons, Option.some.injEq, other, false_or]
          | some result =>
              obtain ⟨record, middle⟩ := result
              obtain ⟨named, frames⟩ := FrameTable.frameAt?_remove removed
              have generations := FrameTable.generationAt_remove removed
              dsimp only
              rw [ih, frames, generations]
              by_cases here : slot = id.index
              · subst here
                have same : (record.frame id).id = id := rfl
                simp only [Function.update_self, named, same, List.mem_cons, true_or, if_true]
              · simp only [Function.update_of_ne here]
                cases resident : table.frameAt? slot with
                | none => rfl
                | some frame =>
                    have other : frame.id ≠ id := by
                      intro same
                      apply here
                      rw [← same, FrameTable.id_of_frameAt resident]
                    simp only [List.mem_cons, Option.some.injEq, other, false_or]

/-! ### One slot over one step -/

variable {bits : Type}

def Traffic.generation (traffic : Traffic bits) (slot : Nat) : UInt32 :=
  traffic.subsystem.frames.generationAt slot

theorem Traffic.generation_of_resident {traffic : Traffic bits} {slot : Nat} {frame : Frame}
    (resident : traffic.resident slot = some frame) :
    frame.id.generation = traffic.generation slot := by
  rw [FrameTable.id_of_frameAt resident]
  rfl

theorem Traffic.frame?_of_resident {traffic : Traffic bits} {slot : Nat} {frame : Frame}
    (resident : traffic.resident slot = some frame) :
    traffic.subsystem.frames.frame? frame.id = some frame := by
  apply FrameTable.frame?_eq_some_iff.mpr
  rw [Traffic.index_of_resident resident]
  exact ⟨resident, rfl⟩

def Event.issue? : Event → Option Frame
  | .went _ (.goesOn (.hand frame _)) => some frame
  | _ => none

theorem Event.issued?_of_issue {event : Event} {frame : Frame}
    (issue : event.issue? = some frame) : event.issued? = some frame.id := by
  unfold Event.issue? at issue
  split at issue
  · cases issue
    rfl
  · cases issue

/-- A free of the frame while it is not pinned, or a teardown with an entry that names it. -/
def Event.TakesOut (frame : Frame) : Event → Prop
  | .went (.free entry) (.goesOn _) => entry = some frame.id ∧ frame.pinned = false
  | .went (.tearDown _ table) (.goesOn (.release ..)) => some frame.id ∈ table
  | _ => False

inductive Moment.Turn (moment : Moment bits) (slot : Nat) : Prop
  | empty : moment.before.resident slot = none → moment.after.resident slot = none →
      moment.after.generation slot = moment.before.generation slot → Turn moment slot
  | stays {frame : Frame} {pinned : Bool} :
      moment.before.resident slot = some frame →
      moment.after.resident slot = some { frame with pinned } →
      moment.after.generation slot = moment.before.generation slot → Turn moment slot
  | comes {frame : Frame} :
      moment.event.issue? = some frame → moment.before.resident slot = none →
      moment.after.resident slot = some frame →
      moment.after.generation slot = moment.before.generation slot → Turn moment slot
  | leaves {frame : Frame} :
      moment.event.TakesOut frame → moment.before.resident slot = some frame →
      moment.after.resident slot = none →
      moment.after.generation slot = moment.before.generation slot + 1 → Turn moment slot
  | passes {flight : Flight} {old frame : Frame} {zero : Bool} :
      moment.event = .went (.finish flight true) (.goesOn (.hand frame zero)) →
      flight.eviction.slot = slot → moment.before.resident slot = some old →
      moment.after.resident slot = some frame → frame.kpage = old.kpage →
      moment.after.generation slot = moment.before.generation slot + 1 → Turn moment slot

section OneStep

variable {moment : Moment bits} {index slot : Nat}

private theorem turn_same (residents : moment.after.resident slot = moment.before.resident slot)
    (generations : moment.after.generation slot = moment.before.generation slot) :
    moment.Turn slot := by
  cases before : moment.before.resident slot with
  | none => exact .empty before (residents.trans before) generations
  | some frame => exact .stays before (residents.trans before) generations

private theorem turn_elsewhere {value : Option Frame} (elsewhere : slot ≠ index)
    (residents : moment.after.resident =
      Function.update moment.before.resident index value)
    (generations : moment.after.generation slot = moment.before.generation slot) :
    moment.Turn slot := by
  apply turn_same _ generations
  rw [residents, Function.update_of_ne elsewhere]

private theorem turn_pinned (index : Nat) (pinned : Bool)
    (residents : moment.after.resident = Function.update moment.before.resident index
      ((moment.before.resident index).map fun frame => { frame with pinned }))
    (generations : moment.after.generation slot = moment.before.generation slot) :
    moment.Turn slot := by
  by_cases here : slot = index
  · subst here
    have after := congrFun residents slot
    rw [Function.update_self] at after
    cases before : moment.before.resident slot with
    | none =>
        rw [before] at after
        exact .empty before after generations
    | some frame =>
        rw [before] at after
        exact .stays before after generations
  · exact turn_elsewhere here residents generations

private theorem turn_changed {frame : Frame} {pinned : Bool}
    (resident : moment.before.resident index = some frame)
    (residents : moment.after.resident =
      Function.update moment.before.resident index (some { frame with pinned }))
    (generations : moment.after.generation slot = moment.before.generation slot) :
    moment.Turn slot := by
  apply turn_pinned index pinned _ generations
  rw [resident]
  exact residents

private theorem turn_finish {before after : Subsystem bits} {calls rest : List Call}
    {flight : Flight} {written : Bool} {ending : EvictionEnd} {outcome : Outcome}
    (wellFormed : before.frames.WellFormed)
    (finished : before.frames.finishEviction flight.eviction flight.request.owner
      flight.request.uaddr written = .ok (ending, after.frames))
    (outcomeIs : ∀ frame, ending = .rebound frame → ∃ zero, outcome = .goesOn (.hand frame zero)) :
    Moment.Turn ⟨⟨before, calls⟩, .went (.finish flight written) outcome, ⟨after, rest⟩⟩ slot := by
  have generations := FrameTable.generationAt_finishEviction finished
  cases (FrameTable.finishEviction_spec wellFormed finished).1 with
  | @rebound old frame _ resident frameIs map =>
      obtain ⟨zero, rfl⟩ := outcomeIs frame rfl
      by_cases here : slot = flight.eviction.slot
      · subst here
        have generation := congrFun (generations.1 frame rfl) flight.eviction.slot
        have now := congrFun map flight.eviction.slot
        rw [Function.update_self] at generation now
        have kpage : frame.kpage = old.kpage := by rw [frameIs]
        exact .passes rfl rfl resident now kpage generation
      · have generation := congrFun (generations.1 frame rfl) slot
        rw [Function.update_of_ne here] at generation
        exact turn_elsewhere here map generation
  | vanished _ map => exact turn_same (congrFun map slot) (congrFun (generations.2 nofun) slot)
  | kept map => exact turn_pinned _ false map (congrFun (generations.2 nofun) slot)

private theorem turn_bind {before after : Subsystem bits} {calls rest : List Call}
    {request : Request} {kpage : Address} {frame : Frame} (wellFormed : before.frames.WellFormed)
    (enrolled : before.frames.enroll request.owner request.uaddr kpage = .ok (frame, after.frames)) :
    Moment.Turn ⟨⟨before, calls⟩, .went (.bind request kpage) (.goesOn (.hand frame false)),
      ⟨after, rest⟩⟩ slot := by
  have spec := FrameTable.enroll_spec wellFormed enrolled
  have generation := congrFun (FrameTable.generationAt_enroll wellFormed enrolled) slot
  by_cases here : slot = frame.id.index
  · subst here
    have now := congrFun spec.2.2.2.1 frame.id.index
    rw [Function.update_self] at now
    exact .comes rfl spec.2.1 now generation
  · exact turn_elsewhere here spec.2.2.2.1 generation

private theorem turn_free {before after : Subsystem bits} {calls rest : List Call} {id : FrameId}
    {record : FrameRecord} {pages : List Address} {answer : Answer}
    (wellFormed : before.frames.WellFormed)
    (detached : before.frames.detach id = (.removed record, after.frames)) :
    Moment.Turn ⟨⟨before, calls⟩, .went (.free (some id)) (.goesOn (.release pages answer)),
      ⟨after, rest⟩⟩ slot := by
  have removed := FrameTable.detach_removed detached
  have spec := FrameTable.remove_spec wellFormed removed.1
  by_cases here : slot = id.index
  · subst here
    have now := congrFun spec.2.1 id.index
    have generation := congrFun (FrameTable.generationAt_remove removed.1) id.index
    rw [Function.update_self] at now generation
    have takesOut : (Event.went (.free (some id)) (.goesOn (.release pages answer))).TakesOut
        (record.frame id) := ⟨rfl, removed.2⟩
    exact .leaves takesOut spec.1 now generation
  · have generation := congrFun (FrameTable.generationAt_remove removed.1) slot
    rw [Function.update_of_ne here] at generation
    exact turn_elsewhere here spec.2.1 generation

private theorem turn_tearDown {before after : Subsystem bits} {calls rest : List Call}
    {owner : ThreadId} {table : SupplementalTable} {pages : List Address} {answer : Answer}
    (removed : after.frames = (before.frames.removeNamed table).2) :
    Moment.Turn ⟨⟨before, calls⟩, .went (.tearDown owner table) (.goesOn (.release pages answer)),
      ⟨after, rest⟩⟩ slot := by
  have spec := FrameTable.removeNamed_slot table slot before.frames
  rw [← removed] at spec
  cases resident : before.frames.frameAt? slot with
  | none =>
      rw [resident] at spec
      exact .empty resident (congrArg Prod.fst spec) (congrArg Prod.snd spec)
  | some frame =>
      rw [resident] at spec
      dsimp only at spec
      split at spec
      · next named =>
        have takesOut : (Event.went (.tearDown owner table)
            (.goesOn (.release pages answer))).TakesOut frame := named
        exact .leaves takesOut resident (congrArg Prod.fst spec) (congrArg Prod.snd spec)
      · exact .stays resident (congrArg Prod.fst spec) (congrArg Prod.snd spec)

theorem Call.Proceeds.turn [AccessedBits bits] {before after : Subsystem bits}
    {calls rest : List Call} {call : Call} {outcome : Outcome}
    (proceeds : call.Proceeds before outcome after) (wellFormed : before.frames.WellFormed)
    (slot : Nat) : Moment.Turn ⟨⟨before, calls⟩, .went call outcome, ⟨after, rest⟩⟩ slot := by
  cases proceeds with
  | bound enrolled => exact turn_bind wellFormed enrolled
  | selected started _ =>
      obtain ⟨frame, resident, _, _, map, _⟩ := FrameTable.startEviction_spec wellFormed started
      have generation := congrFun (FrameTable.generationAt_startEviction started) slot
      exact turn_changed resident map generation
  | unselected started =>
      have spec := FrameTable.startEviction_failed wellFormed started
      exact turn_same (congrFun spec.1 slot)
        (congrFun (FrameTable.generationAt_startEviction started) slot)
  | rebound finished =>
      apply turn_finish wellFormed finished
      intro frame same
      cases same
      exact ⟨_, rfl⟩
  | kept finished | vanished finished =>
      apply turn_finish wellFormed finished
      nofun
  | freedStale detached | freedPinned detached =>
      have same := FrameTable.detach_kept detached (by simp)
      exact turn_same (congrArg (FrameTable.frameAt? · slot) same)
        (congrArg (FrameTable.generationAt · slot) same)
  | freed detached => exact turn_free wellFormed detached
  | unpinned unpinned =>
      obtain ⟨⟨frame, resident, _, _, map⟩, _⟩ := FrameTable.unpin_spec wellFormed unpinned
      have same := (FrameTable.unpin_ok unpinned).2
      have generation := congrArg (FrameTable.generationAt · slot) same
      exact turn_changed resident map
        (generation.trans (FrameTable.generationAt_setPinned _ _ _ _))
  | tornDown _ => exact turn_tearDown rfl
  | _ => exact turn_same rfl rfl

end OneStep

theorem Traffic.Step.turn [AccessedBits bits] {before after : Traffic bits} {event : Event}
    (step : before.Step event after) (wellFormed : before.subsystem.frames.WellFormed)
    (slot : Nat) : Moment.Turn ⟨before, event, after⟩ slot := by
  cases step with
  | begin _ => exact turn_same rfl rfl
  | outside same =>
      exact turn_same (congrArg (FrameTable.frameAt? · slot) same)
        (congrArg (FrameTable.generationAt · slot) same)
  | proceed proceeds => exact proceeds.turn wellFormed slot

/-- A frame is issued pinned, in an empty slot under the generation the slot has reached, or in the
place of a victim under the next one. -/
theorem Traffic.Step.issue [AccessedBits bits] {before after : Traffic bits} {event : Event}
    (step : before.Step event after) (wellFormed : before.subsystem.frames.WellFormed)
    {frame : Frame} (issue : event.issue? = some frame) :
    frame.pinned = true ∧ after.resident frame.id.index = some frame ∧
      (before.resident frame.id.index = none ∧
          frame.id.generation = before.generation frame.id.index ∨
        ∃ old, before.resident frame.id.index = some old ∧
          frame.id.generation = before.generation frame.id.index + 1) := by
  cases step with
  | begin _ => cases issue
  | outside _ => cases issue
  | @proceed subsystem later call outcome earlier rest proceeds =>
      cases proceeds with
      | bound enrolled =>
          cases issue
          have spec := FrameTable.enroll_spec wellFormed enrolled
          have now := congrFun spec.2.2.2.1 frame.id.index
          rw [Function.update_self] at now
          have generation := congrArg FrameId.generation (FrameTable.id_of_frameAt now)
          refine ⟨by rw [spec.2.2.1], now, .inl ⟨spec.2.1, ?_⟩⟩
          rw [generation]
          exact congrFun (FrameTable.generationAt_enroll wellFormed enrolled) _
      | @rebound flight _ _ _ finished =>
          cases issue
          cases (FrameTable.finishEviction_spec wellFormed finished).1 with
          | @rebound old _ _ resident frameIs map =>
              have index : frame.id.index = flight.eviction.slot := by rw [frameIs]
              have now := congrFun map frame.id.index
              rw [← index, Function.update_self] at now
              rw [← index] at resident
              refine ⟨by rw [frameIs], now, .inr ⟨old, resident, ?_⟩⟩
              have generation := congrArg FrameId.generation (FrameTable.id_of_frameAt resident)
              have next := congrArg (fun new => new.id.generation) frameIs
              exact next.trans (congrArg (· + 1) generation)
      | _ => cases issue

theorem Traffic.Step.issue_unnamed [AccessedBits bits] {before after : Traffic bits}
    {event : Event} (step : before.Step event after)
    (wellFormed : before.subsystem.frames.WellFormed) {frame : Frame}
    (issue : event.issue? = some frame) : before.subsystem.frames.frame? frame.id = none := by
  rw [Option.eq_none_iff_forall_ne_some]
  intro named found
  obtain ⟨resident, same⟩ := FrameTable.frame?_eq_some_iff.mp found
  cases (step.issue wellFormed issue).2.2 with
  | inl vacant => cases resident.symm.trans vacant.1
  | inr passes =>
      obtain ⟨_, _, next⟩ := passes
      have generation := Traffic.generation_of_resident resident
      rw [same, next] at generation
      simp at generation

end KernelPaging
