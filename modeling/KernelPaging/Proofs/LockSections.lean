import KernelPaging.Proofs.Residents

/-!
The sections that run under the table lock, each by what it does to the resident frames and to the
count of evictions in flight. All of them keep the table well formed.
-/

set_option autoImplicit false

namespace KernelPaging

theorem FrameTable.insert_barrier (table : FrameTable) (record : FrameRecord) :
    (table.insert record).2.barrier = table.barrier := by
  have linked : ∀ (middle : FrameTable) (index : Nat),
      (middle.linkLast index).2.barrier = middle.barrier := by
    intro middle index
    unfold FrameTable.linkLast
    cases middle.head <;> rfl
  rw [FrameTable.insert_table]
  refine (linked table.reserve.2 table.reserve.1).trans ?_
  unfold FrameTable.reserve
  cases table.vacant <;> rfl

theorem FrameTable.enroll_spec {table after : FrameTable} {owner : ThreadId}
    {uaddr kpage : Address} {frame : Frame} (wellFormed : table.WellFormed)
    (enrolled : table.enroll owner uaddr kpage = .ok (frame, after)) :
    table.isBound owner uaddr = false ∧ table.frameAt? frame.id.index = none ∧
      frame = { id := frame.id, owner, uaddr, kpage, pinned := true } ∧
      after.frameAt? = Function.update table.frameAt? frame.id.index (some frame) ∧
      after.barrier = table.barrier ∧ after.WellFormed := by
  unfold FrameTable.enroll at enrolled
  split at enrolled
  · cases enrolled
  · next unbound =>
    have inserted := wellFormed.frameAt?_insert { owner, uaddr, kpage, pinned := true }
    have kept := wellFormed.insert { owner, uaddr, kpage, pinned := true }
    have barrier := table.insert_barrier { owner, uaddr, kpage, pinned := true }
    rw [Except.ok.inj enrolled] at inserted kept barrier
    obtain ⟨empty, name, map⟩ := inserted
    dsimp only at name map
    have index : frame.id.index = table.reserve.1 := by rw [name]; rfl
    refine ⟨by simpa using unbound, ?_, ?_, ?_, barrier, kept.wellFormed⟩
    · rw [index]
      exact empty
    · rw [name]
      rfl
    · rw [index]
      exact map

theorem FrameTable.enroll_error_iff {table : FrameTable} {owner : ThreadId}
    {uaddr kpage : Address} {halt : Halt} :
    table.enroll owner uaddr kpage = .error halt ↔
      table.isBound owner uaddr = true ∧ halt = .alreadyResident owner uaddr := by
  unfold FrameTable.enroll
  cases table.isBound owner uaddr with
  | false => simp
  | true => simp [eq_comm]

section Selecting

variable {bits : Type} [AccessedBits bits] {table after : FrameTable} {marks left : bits}

theorem FrameTable.startEviction_failed {failure : AllocError} (wellFormed : table.WellFormed)
    (started : table.startEviction marks = .ok (.error failure, after, left)) :
    after.frameAt? = table.frameAt? ∧ after.barrier = table.barrier ∧ after.WellFormed := by
  unfold FrameTable.startEviction at started
  split at started
  · cases started
  · next selected =>
    cases started
    have spec := (FrameTable.selectVictim_spec selected).1
    refine ⟨spec.frameAt?, ?_, (spec.represents wellFormed).wellFormed⟩
    obtain ⟨hand, rfl, _⟩ := spec
    rfl
  · split at started
    · cases started
    · cases started

theorem FrameTable.startEviction_spec {eviction : Eviction} (wellFormed : table.WellFormed)
    (started : table.startEviction marks = .ok (.ok eviction, after, left)) :
    ∃ frame, table.frameAt? eviction.slot = some frame ∧ frame.pinned = false ∧
      eviction = ⟨frame.id.index, frame.owner, frame.uaddr⟩ ∧
      after.frameAt? = Function.update table.frameAt? eviction.slot
        (some { frame with pinned := true }) ∧
      after.barrier.inFlight = table.barrier.inFlight + 1 ∧ after.WellFormed := by
  unfold FrameTable.startEviction at started
  split at started
  · cases started
  · cases started
  · next slot middle _ selected =>
    have spec := FrameTable.selectVictim_spec selected
    obtain ⟨frame, resident, unpinned⟩ := FrameTable.unpinnedAt_iff_frame.mp (spec.2 slot rfl)
    have sameMap := spec.1.frameAt?
    have sameBarrier : middle.barrier = table.barrier := by
      obtain ⟨hand, rfl, _⟩ := spec.1
      rfl
    split at started
    · cases started
    · next occupant found =>
      cases started
      have name := FrameTable.id_of_frameAt resident
      rw [← sameMap] at resident
      obtain ⟨other, foundAgain, same⟩ := FrameTable.frameAt?_eq_some_iff.mp resident
      rw [found] at foundAgain
      cases foundAgain
      refine ⟨frame, ?_, unpinned, ?_, ?_, ?_, ?_⟩
      · rw [← sameMap]
        exact resident
      · rw [← same]
        rfl
      · change (middle.setPinned slot true).frameAt? = _
        rw [FrameTable.frameAt?_setPinned, resident, sameMap]
        rfl
      · change middle.barrier.inFlight + 1 = _
        rw [sameBarrier]
      · exact (((spec.1.represents wellFormed).setPinned slot true).setBarrier _).wellFormed

/-- The hand of the clock is never found on a vacant slot: nothing but the accessed bits can stop
the selection of a victim. -/
theorem FrameTable.startEviction_error {halt : Halt}
    (stopped : table.startEviction marks = .error halt) : AccessedBits.Stops bits halt := by
  unfold FrameTable.startEviction at stopped
  split at stopped
  · next selected =>
    cases stopped
    exact FrameTable.selectVictim_error selected
  · cases stopped
  · next slot middle _ selected =>
    have spec := FrameTable.selectVictim_spec selected
    have unpinned := spec.2 slot rfl
    rw [← spec.1.unpinnedAt, FrameTable.unpinnedAt_iff] at unpinned
    obtain ⟨occupant, found, _⟩ := unpinned
    rw [found] at stopped
    cases stopped

end Selecting

theorem Barrier.exit_ok {barrier after : Barrier} {last : Bool}
    (left : barrier.exit = .ok (last, after)) : barrier.inFlight = after.inFlight + 1 := by
  unfold Barrier.exit at left
  split at left
  · cases left
  · next one =>
    cases left
    exact one
  · next many =>
    cases left
    exact many

theorem Barrier.exit_exists {barrier : Barrier} (busy : 0 < barrier.inFlight) :
    ∃ last after, barrier.exit = .ok (last, after) := by
  unfold Barrier.exit
  split
  · next none => omega
  · exact ⟨_, _, rfl⟩
  · exact ⟨_, _, rfl⟩

theorem FrameTable.reassign_barrier {table after : FrameTable} {index : Nat} {owner : ThreadId}
    {uaddr : Address} {frame : Frame}
    (reassigned : table.reassign index owner uaddr = some (frame, after)) :
    after.barrier = table.barrier := by
  unfold FrameTable.reassign at reassigned
  cases found : table.occupant? index with
  | none => rw [found] at reassigned; cases reassigned
  | some occupant => rw [found] at reassigned; cases reassigned; rfl

section Finishing

variable {table after : FrameTable} {eviction : Eviction} {owner : ThreadId} {uaddr : Address}
  {written : Bool}

theorem FrameTable.finish_barrier {middle : FrameTable} {result ending : EvictionEnd}
    (finished : (match middle.barrier.exit with
      | .error halt => .error halt
      | .ok (_, barrier) => .ok (result, { middle with barrier }) : Except Halt _) =
        .ok (ending, after)) :
    result = ending ∧ middle.barrier.inFlight = after.barrier.inFlight + 1 ∧
      after = { middle with barrier := after.barrier } := by
  cases exited : middle.barrier.exit with
  | error halt => rw [exited] at finished; cases finished
  | ok left =>
      obtain ⟨last, barrier⟩ := left
      rw [exited] at finished
      cases finished
      exact ⟨rfl, Barrier.exit_ok exited, rfl⟩

/-- What an eviction may come to, with the residents it leaves behind. -/
inductive FrameTable.Finished (table : FrameTable) (eviction : Eviction) (owner : ThreadId)
    (uaddr : Address) : Bool → EvictionEnd → FrameTable → Prop
  | rebound {old frame : Frame} {after : FrameTable} :
      table.frameAt? eviction.slot = some old →
      frame = { old with
        id := ⟨eviction.slot, old.id.generation + 1⟩, owner, uaddr, pinned := true } →
      after.frameAt? = Function.update table.frameAt? eviction.slot (some frame) →
      Finished table eviction owner uaddr true (.rebound frame) after
  | vanished {after : FrameTable} :
      table.frameAt? eviction.slot = none → after.frameAt? = table.frameAt? →
      Finished table eviction owner uaddr true .vanished after
  | kept {after : FrameTable} :
      after.frameAt? = Function.update table.frameAt? eviction.slot
        ((table.frameAt? eviction.slot).map fun frame => { frame with pinned := false }) →
      Finished table eviction owner uaddr false .kept after

theorem FrameTable.finishEviction_spec {ending : EvictionEnd} (wellFormed : table.WellFormed)
    (finished : table.finishEviction eviction owner uaddr written = .ok (ending, after)) :
    table.Finished eviction owner uaddr written ending after ∧
      table.barrier.inFlight = after.barrier.inFlight + 1 ∧ after.WellFormed := by
  unfold FrameTable.finishEviction at finished
  cases written with
  | true =>
      cases reassigned : table.reassign eviction.slot owner uaddr with
      | none =>
          simp only [reassigned, if_true] at finished
          obtain ⟨rfl, count, same⟩ := FrameTable.finish_barrier finished
          have empty := FrameTable.reassign_eq_none_iff.mp reassigned
          rw [same]
          exact ⟨.vanished empty rfl, count, (wellFormed.setBarrier _).wellFormed⟩
      | some rebound =>
          obtain ⟨frame, middle⟩ := rebound
          simp only [reassigned, if_true] at finished
          obtain ⟨rfl, count, same⟩ := FrameTable.finish_barrier finished
          obtain ⟨⟨old, resident, frameIs⟩, map⟩ := FrameTable.frameAt?_reassign reassigned
          rw [FrameTable.reassign_barrier reassigned] at count
          rw [same]
          exact ⟨.rebound resident frameIs map, count,
            ((wellFormed.reassign reassigned).setBarrier _).wellFormed⟩
  | false =>
      simp only [Bool.false_eq_true, if_false] at finished
      obtain ⟨rfl, count, same⟩ := FrameTable.finish_barrier finished
      rw [same]
      exact ⟨.kept (table.frameAt?_setPinned eviction.slot false), count,
        ((wellFormed.setPinned eviction.slot false).setBarrier _).wellFormed⟩

theorem FrameTable.finishEviction_exists (busy : 0 < table.barrier.inFlight) :
    ∃ ending after, table.finishEviction eviction owner uaddr written = .ok (ending, after) := by
  unfold FrameTable.finishEviction
  cases written with
  | true =>
      cases reassigned : table.reassign eviction.slot owner uaddr with
      | none =>
          obtain ⟨last, barrier, left⟩ := Barrier.exit_exists busy
          simp [left]
      | some rebound =>
          obtain ⟨frame, middle⟩ := rebound
          obtain ⟨last, barrier, left⟩ := Barrier.exit_exists busy
          simp [FrameTable.reassign_barrier reassigned, left]
  | false =>
      obtain ⟨last, barrier, left⟩ := Barrier.exit_exists busy
      simp [FrameTable.setPinned, left]

end Finishing

theorem FrameTable.discard_barrier (table : FrameTable) (index : Nat) (occupant : Occupant) :
    (table.discard index occupant).barrier = table.barrier := by
  unfold FrameTable.discard FrameTable.vacate FrameTable.unlink
  split <;> rfl

theorem FrameTable.remove_spec {table after : FrameTable} {id : FrameId} {record : FrameRecord}
    (wellFormed : table.WellFormed) (removed : table.remove id = some (record, after)) :
    table.frameAt? id.index = some (record.frame id) ∧
      after.frameAt? = Function.update table.frameAt? id.index none ∧
      after.barrier = table.barrier ∧ after.WellFormed := by
  have map := FrameTable.frameAt?_remove removed
  have kept := wellFormed.remove removed
  obtain ⟨occupant, _, _, rfl⟩ := FrameTable.remove_eq_some_iff.mp removed
  exact ⟨map.1, map.2, table.discard_barrier id.index occupant, kept.2.wellFormed⟩

theorem FrameTable.id_ne_of_stale {table : FrameTable} {id : FrameId} {slot : Nat} {frame : Frame}
    (stale : table.remove id = none) (resident : table.frameAt? slot = some frame) :
    frame.id ≠ id := by
  rintro rfl
  have index : frame.id.index = slot := by rw [FrameTable.id_of_frameAt resident]
  rw [← index] at resident
  obtain ⟨occupant, resolved, _⟩ := FrameTable.resolve_iff_frameAt.mpr ⟨resident, rfl⟩
  rw [FrameTable.remove_eq_none_iff.mp stale] at resolved
  cases resolved

theorem FrameTable.detach_of_unnamed {table : FrameTable} {id : FrameId}
    (unnamed : table.frame? id = none) : table.detach id = (.stale, table) := by
  unfold FrameTable.detach
  rw [Option.map_eq_none_iff.mp unnamed]

theorem FrameTable.detach_of_pinned {table : FrameTable} {id : FrameId} {frame : Frame}
    (named : table.frame? id = some frame) (pinned : frame.pinned = true) :
    table.detach id = (.pinned, table) := by
  obtain ⟨occupant, resolved, rfl⟩ := Option.map_eq_some_iff.mp named
  unfold FrameTable.detach
  rw [resolved]
  exact if_pos pinned

theorem FrameTable.detach_removed {table after : FrameTable} {id : FrameId} {record : FrameRecord}
    (detached : table.detach id = (.removed record, after)) :
    table.remove id = some (record, after) ∧ record.pinned = false := by
  unfold FrameTable.detach at detached
  unfold FrameTable.remove
  cases resolved : table.resolve id with
  | none => rw [resolved] at detached; cases detached
  | some occupant =>
      rw [resolved] at detached
      dsimp only at detached
      split at detached
      · cases detached
      · next unpinned =>
        cases detached
        exact ⟨rfl, by simpa using unpinned⟩

theorem FrameTable.detach_kept {table after : FrameTable} {id : FrameId} {outcome : Detachment}
    (detached : table.detach id = (outcome, after)) (kept : ∀ record, outcome ≠ .removed record) :
    after = table := by
  unfold FrameTable.detach at detached
  split at detached
  · exact (congrArg Prod.snd detached).symm
  · split at detached
    · exact (congrArg Prod.snd detached).symm
    · exact absurd (congrArg Prod.fst detached).symm (kept _)

theorem FrameTable.removeNamed_spec (entries : List (Option FrameId)) :
    ∀ table : FrameTable, table.WellFormed →
      (∀ index, (table.removeNamed entries).2.frameAt? index = table.frameAt? index ∨
        (table.removeNamed entries).2.frameAt? index = none) ∧
      (table.removeNamed entries).2.barrier = table.barrier ∧
      (table.removeNamed entries).2.WellFormed := by
  induction entries with
  | nil =>
      intro table wellFormed
      exact ⟨fun _ => .inl rfl, rfl, wellFormed⟩
  | cons entry entries ih =>
      intro table wellFormed
      cases entry with
      | none => exact ih table wellFormed
      | some id =>
          unfold FrameTable.removeNamed
          cases removed : table.remove id with
          | none => exact ih table wellFormed
          | some result =>
              obtain ⟨record, middle⟩ := result
              have first := FrameTable.remove_spec wellFormed removed
              have rest := ih middle first.2.2.2
              refine ⟨?_, rest.2.1.trans first.2.2.1, rest.2.2⟩
              intro index
              rcases rest.1 index with same | gone
              · by_cases here : index = id.index
                · right
                  refine same.trans ?_
                  rw [first.2.1, here, Function.update_self]
                · left
                  refine same.trans ?_
                  rw [first.2.1, Function.update_of_ne here]
              · exact .inr gone

theorem FrameTable.unpin_ok {table after : FrameTable} {id : FrameId}
    (unpinned : table.unpin id = .ok after) :
    (∃ frame, table.frameAt? id.index = some frame ∧ frame.id = id ∧ frame.pinned = true) ∧
      after = table.setPinned id.index false := by
  unfold FrameTable.unpin at unpinned
  split at unpinned
  · cases unpinned
  · next occupant resolved =>
    split at unpinned
    · next pinned =>
      have resident := FrameTable.resolve_iff_frameAt.mp ⟨occupant, resolved, rfl⟩
      exact ⟨⟨_, resident.1, resident.2, pinned⟩, (Except.ok.inj unpinned).symm⟩
    · cases unpinned

theorem FrameTable.unpin_ok_iff {table : FrameTable} {id : FrameId} :
    (∃ after, table.unpin id = .ok after) ↔
      ∃ frame, table.frameAt? id.index = some frame ∧ frame.id = id ∧ frame.pinned = true := by
  constructor
  · rintro ⟨after, unpinned⟩
    exact (FrameTable.unpin_ok unpinned).1
  · rintro ⟨frame, resident, named, pinned⟩
    obtain ⟨occupant, resolved, rfl⟩ := FrameTable.resolve_iff_frameAt.mpr ⟨resident, named⟩
    have occupantPinned : occupant.pinned = true := pinned
    unfold FrameTable.unpin
    rw [resolved]
    exact ⟨_, if_pos occupantPinned⟩

theorem FrameTable.unpin_spec {table after : FrameTable} {id : FrameId}
    (wellFormed : table.WellFormed) (unpinned : table.unpin id = .ok after) :
    (∃ frame, table.frameAt? id.index = some frame ∧ frame.id = id ∧ frame.pinned = true ∧
      after.frameAt? = Function.update table.frameAt? id.index
        (some { frame with pinned := false })) ∧
      after.barrier = table.barrier ∧ after.WellFormed := by
  obtain ⟨⟨frame, resident, named, pinned⟩, rfl⟩ := FrameTable.unpin_ok unpinned
  refine ⟨⟨frame, resident, named, pinned, ?_⟩, rfl,
    (wellFormed.setPinned id.index false).wellFormed⟩
  rw [FrameTable.frameAt?_setPinned, resident]
  rfl

theorem FrameTable.unpin_error {table : FrameTable} {id : FrameId} {halt : Halt}
    (refused : table.unpin id = .error halt) :
    halt = .unpinOfUnpinned id ∨ halt = .unpinOfStale id := by
  unfold FrameTable.unpin at refused
  cases resolved : table.resolve id with
  | none => rw [resolved] at refused; cases refused; exact .inr rfl
  | some occupant =>
      rw [resolved] at refused
      dsimp only at refused
      split at refused
      · cases refused
      · cases refused
        exact .inl rfl

end KernelPaging
