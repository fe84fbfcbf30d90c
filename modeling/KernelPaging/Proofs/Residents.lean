import Mathlib.Logic.Function.Basic
import KernelPaging.Proofs.Selection

/-!
The table as a map from slots to the frames resident there. Links, head, hand and stack are out of
sight: each change of the table alters the map at one slot, and moving the hand does not alter it.
-/

set_option autoImplicit false

namespace KernelPaging

/-- The frame in a slot, under its current name. -/
def FrameTable.frameAt? (table : FrameTable) (index : Nat) : Option Frame :=
  (table.occupant? index).map fun occupant => occupant.frame ⟨index, table.generationAt index⟩

theorem FrameTable.frameAt?_eq_some_iff {table : FrameTable} {index : Nat} {frame : Frame} :
    table.frameAt? index = some frame ↔
      ∃ occupant, table.occupant? index = some occupant ∧
        occupant.frame ⟨index, table.generationAt index⟩ = frame :=
  Option.map_eq_some_iff

theorem FrameTable.frameAt?_eq_none_iff {table : FrameTable} {index : Nat} :
    table.frameAt? index = none ↔ table.occupant? index = none :=
  Option.map_eq_none_iff

theorem FrameTable.id_of_frameAt {table : FrameTable} {index : Nat} {frame : Frame}
    (resident : table.frameAt? index = some frame) :
    frame.id = ⟨index, table.generationAt index⟩ := by
  obtain ⟨occupant, _, rfl⟩ := FrameTable.frameAt?_eq_some_iff.mp resident
  rfl

theorem FrameTable.resolve_iff_frameAt {table : FrameTable} {id : FrameId} {frame : Frame} :
    (∃ occupant, table.resolve id = some occupant ∧ occupant.frame id = frame) ↔
      table.frameAt? id.index = some frame ∧ frame.id = id := by
  constructor
  · rintro ⟨occupant, resolved, rfl⟩
    have found := FrameTable.resolve_eq_some_iff.mp resolved
    refine ⟨FrameTable.frameAt?_eq_some_iff.mpr ⟨occupant, found.1, ?_⟩, rfl⟩
    rw [found.2]
  · rintro ⟨resident, rfl⟩
    have named := FrameTable.id_of_frameAt resident
    obtain ⟨occupant, found, same⟩ := FrameTable.frameAt?_eq_some_iff.mp resident
    refine ⟨occupant, FrameTable.resolve_eq_some_iff.mpr ⟨found, ?_⟩, ?_⟩
    · exact (congrArg FrameId.generation named).symm
    · rw [← named] at same
      exact same

theorem FrameTable.frame?_eq_some_iff {table : FrameTable} {id : FrameId} {frame : Frame} :
    table.frame? id = some frame ↔ table.frameAt? id.index = some frame ∧ frame.id = id := by
  rw [← FrameTable.resolve_iff_frameAt]
  exact Option.map_eq_some_iff

theorem FrameTable.isBound_iff {table : FrameTable} {owner : ThreadId} {uaddr : Address} :
    table.isBound owner uaddr = true ↔
      ∃ index frame, table.frameAt? index = some frame ∧ frame.owner = owner ∧
        frame.uaddr = uaddr := by
  unfold FrameTable.isBound
  rw [Array.any_eq_true]
  constructor
  · rintro ⟨index, within, bound⟩
    cases holds : table.slots[index].occupant with
    | none => simp [holds] at bound
    | some occupant =>
        simp only [holds, Bool.and_eq_true, decide_eq_true_eq] at bound
        have found : table.occupant? index = some occupant := by
          rw [FrameTable.occupant?_eq_bind, Array.getElem?_eq_getElem within]
          exact holds
        exact ⟨index, _, FrameTable.frameAt?_eq_some_iff.mpr ⟨occupant, found, rfl⟩, bound⟩
  · rintro ⟨index, frame, resident, sameOwner, sameAddress⟩
    obtain ⟨occupant, found, rfl⟩ := FrameTable.frameAt?_eq_some_iff.mp resident
    have slot := FrameTable.slot_of_occupant found
    obtain ⟨within, value⟩ := Array.getElem?_eq_some_iff.mp slot
    refine ⟨index, within, ?_⟩
    rw [value]
    simp only [Bool.and_eq_true, decide_eq_true_eq]
    exact ⟨sameOwner, sameAddress⟩

theorem FrameTable.unpinnedAt_iff_frame {table : FrameTable} {index : Nat} :
    table.unpinnedAt index = true ↔
      ∃ frame, table.frameAt? index = some frame ∧ frame.pinned = false := by
  rw [FrameTable.unpinnedAt_iff]
  constructor
  · rintro ⟨occupant, found, unpinned⟩
    exact ⟨_, FrameTable.frameAt?_eq_some_iff.mpr ⟨occupant, found, rfl⟩, unpinned⟩
  · rintro ⟨frame, resident, unpinned⟩
    obtain ⟨occupant, found, rfl⟩ := FrameTable.frameAt?_eq_some_iff.mp resident
    exact ⟨occupant, found, unpinned⟩

theorem FrameTable.HandMoved.frameAt? {table after : FrameTable} (moved : table.HandMoved after) :
    after.frameAt? = table.frameAt? := by
  obtain ⟨hand, rfl, _⟩ := moved
  rfl

theorem FrameTable.frameAt?_updateOccupant (table : FrameTable) (index : Nat)
    (change : Occupant → Occupant) (record : ∀ occupant,
      (change occupant).toFrameRecord = occupant.toFrameRecord) :
    (table.updateOccupant index change).frameAt? = table.frameAt? := by
  funext other
  unfold FrameTable.frameAt?
  rw [FrameTable.occupant?_updateOccupant, FrameTable.generationAt_updateOccupant]
  split
  · rw [Option.map_map]
    congr 1
    funext occupant
    exact congrArg (FrameRecord.frame · _) (record occupant)
  · rfl

@[simp] theorem FrameTable.frameAt?_setNext (table : FrameTable) (index next : Nat) :
    (table.setNext index next).frameAt? = table.frameAt? :=
  table.frameAt?_updateOccupant index _ fun _ => rfl

@[simp] theorem FrameTable.frameAt?_setPrevious (table : FrameTable) (index previous : Nat) :
    (table.setPrevious index previous).frameAt? = table.frameAt? :=
  table.frameAt?_updateOccupant index _ fun _ => rfl

theorem FrameTable.frameAt?_linkLast (table : FrameTable) (index : Nat) :
    (table.linkLast index).2.frameAt? = table.frameAt? := by
  unfold FrameTable.linkLast
  cases table.head with
  | none => rfl
  | some head => rw [FrameTable.frameAt?_setPrevious, FrameTable.frameAt?_setNext]

theorem FrameTable.frameAt?_unlink (table : FrameTable) (index previous next : Nat) :
    (table.unlink index previous next).frameAt? = table.frameAt? := by
  unfold FrameTable.unlink
  split
  · rfl
  · change ((table.setNext previous next).setPrevious next previous).frameAt? = _
    rw [FrameTable.frameAt?_setPrevious, FrameTable.frameAt?_setNext]

/-! ### Changes of one slot -/

theorem FrameTable.frameAt?_setPinned (table : FrameTable) (index : Nat) (pinned : Bool) :
    (table.setPinned index pinned).frameAt? =
      Function.update table.frameAt? index
        ((table.frameAt? index).map fun frame => { frame with pinned }) := by
  funext other
  unfold FrameTable.setPinned
  rw [Function.update_apply]
  unfold FrameTable.frameAt?
  rw [FrameTable.occupant?_updateOccupant, FrameTable.generationAt_updateOccupant]
  by_cases same : index = other
  · subst same
    rw [if_pos rfl, if_pos rfl, Option.map_map, Option.map_map]
    rfl
  · rw [if_neg same, if_neg (Ne.symm same)]

theorem FrameTable.frameAt?_vacate (table : FrameTable) (index : Nat) :
    (table.vacate index).frameAt? = Function.update table.frameAt? index none := by
  funext other
  rw [Function.update_apply]
  unfold FrameTable.frameAt?
  rw [FrameTable.occupant?_vacate]
  by_cases same : index = other
  · rw [if_pos same, if_pos same.symm]
    rfl
  · rw [if_neg same, if_neg (Ne.symm same)]
    congr 1
    funext occupant
    congr 2
    change (table.updateSlot index _).generationAt other = _
    exact table.generationAt_updateSlot_of_ne same _

theorem FrameTable.frameAt?_discard (table : FrameTable) (index : Nat) (occupant : Occupant) :
    (table.discard index occupant).frameAt? = Function.update table.frameAt? index none := by
  unfold FrameTable.discard
  rw [FrameTable.frameAt?_vacate, FrameTable.frameAt?_unlink]

theorem FrameTable.frameAt?_reassign {table after : FrameTable} {index : Nat} {owner : ThreadId}
    {uaddr : Address} {frame : Frame}
    (reassigned : table.reassign index owner uaddr = some (frame, after)) :
    (∃ old, table.frameAt? index = some old ∧
      frame = { old with
        id := ⟨index, old.id.generation + 1⟩, owner, uaddr, pinned := true }) ∧
      after.frameAt? = Function.update table.frameAt? index (some frame) := by
  unfold FrameTable.reassign at reassigned
  cases found : table.occupant? index with
  | none => rw [found] at reassigned; cases reassigned
  | some occupant =>
      rw [found] at reassigned
      have slot := FrameTable.slot_of_occupant found
      cases reassigned
      have generation : ∀ change : Slot → Slot,
          (table.updateSlot index change).generationAt index =
            (change ⟨table.generationAt index, some occupant⟩).generation := by
        intro change
        rw [FrameTable.generationAt_updateSlot, if_pos rfl, slot]
        rfl
      constructor
      · refine ⟨_, FrameTable.frameAt?_eq_some_iff.mpr ⟨occupant, found, rfl⟩, ?_⟩
        rw [generation]
        rfl
      · funext other
        rw [Function.update_apply]
        by_cases same : index = other
        · subst same
          rw [if_pos rfl]
          refine FrameTable.frameAt?_eq_some_iff.mpr ⟨_, ?_, rfl⟩
          rw [FrameTable.occupant?_updateSlot, if_pos rfl, slot]
          rfl
        · rw [if_neg (Ne.symm same)]
          unfold FrameTable.frameAt?
          rw [FrameTable.occupant?_updateSlot_of_ne _ same,
            FrameTable.generationAt_updateSlot_of_ne _ same]

theorem FrameTable.reassign_eq_none_iff {table : FrameTable} {index : Nat} {owner : ThreadId}
    {uaddr : Address} :
    table.reassign index owner uaddr = none ↔ table.frameAt? index = none := by
  rw [FrameTable.frameAt?_eq_none_iff]
  unfold FrameTable.reassign
  cases table.occupant? index with
  | none => simp
  | some occupant => simp

theorem FrameTable.generationAt_linkLast (table : FrameTable) (index other : Nat) :
    (table.linkLast index).2.generationAt other = table.generationAt other := by
  unfold FrameTable.linkLast
  cases table.head with
  | none => rfl
  | some head =>
      exact (FrameTable.generationAt_updateOccupant _ _ _ _).trans
        (FrameTable.generationAt_updateOccupant _ _ _ _)

theorem FrameTable.linkLast_size (table : FrameTable) (index : Nat) :
    (table.linkLast index).2.slots.size = table.slots.size := by
  unfold FrameTable.linkLast
  cases table.head with
  | none => rfl
  | some head =>
      exact (FrameTable.updateOccupant_size _ _ _).trans (FrameTable.updateOccupant_size _ _ _)

theorem FrameTable.frameAt?_fill {table : FrameTable} {index : Nat}
    (within : index < table.slots.size) (occupant : Occupant) :
    (table.fill index occupant).frameAt? =
      Function.update table.frameAt? index
        (some (occupant.frame ⟨index, table.generationAt index⟩)) := by
  funext other
  rw [Function.update_apply]
  unfold FrameTable.frameAt?
  rw [FrameTable.occupant?_fill within, FrameTable.generationAt_fill]
  by_cases same : index = other
  · subst same
    rw [if_pos rfl, if_pos rfl]
    rfl
  · rw [if_neg same, if_neg (Ne.symm same)]

theorem FrameTable.Represents.frameAt?_insert {table : FrameTable} {ring : List Nat}
    (represents : table.Represents ring) (record : FrameRecord) :
    table.frameAt? table.reserve.1 = none ∧
      (table.insert record).1 =
        record.frame ⟨table.reserve.1, table.generationAt table.reserve.1⟩ ∧
      (table.insert record).2.frameAt? =
        Function.update table.frameAt? table.reserve.1 (some (table.insert record).1) := by
  have reserved := represents.reserve
  have name : (table.insert record).1 =
      record.frame ⟨table.reserve.1, table.generationAt table.reserve.1⟩ := by
    have current : (table.insert record).1 = record.frame
        ⟨table.reserve.1, (table.insert record).2.generationAt table.reserve.1⟩ := rfl
    rw [current, FrameTable.insert_table, FrameTable.generationAt_fill,
      FrameTable.generationAt_linkLast, reserved.generation]
  refine ⟨FrameTable.frameAt?_eq_none_iff.mpr reserved.empty, name, ?_⟩
  have within : table.reserve.1 < (table.reserve.2.linkLast table.reserve.1).2.slots.size := by
    rw [FrameTable.linkLast_size]
    exact reserved.within
  rw [name, FrameTable.insert_table, FrameTable.frameAt?_fill within,
    FrameTable.frameAt?_linkLast, FrameTable.generationAt_linkLast, reserved.generation]
  congr 1
  funext other
  unfold FrameTable.frameAt?
  rw [reserved.occupant, reserved.generation]

theorem FrameTable.frameAt?_remove {table after : FrameTable} {id : FrameId}
    {record : FrameRecord} (removed : table.remove id = some (record, after)) :
    table.frameAt? id.index = some (record.frame id) ∧
      after.frameAt? = Function.update table.frameAt? id.index none := by
  obtain ⟨occupant, resolved, rfl, rfl⟩ := FrameTable.remove_eq_some_iff.mp removed
  have resident := FrameTable.resolve_iff_frameAt.mp ⟨occupant, resolved, rfl⟩
  exact ⟨resident.1, table.frameAt?_discard id.index occupant⟩

end KernelPaging
