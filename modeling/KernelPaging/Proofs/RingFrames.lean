import KernelPaging.Proofs.LockSections
import KernelPaging.Proofs.SecondChance

/-!
The resident frames in the order of the ring, each under its current name. A fresh frame comes last,
a frame that is handed over is replaced where it stands, and one that leaves is missing afterwards;
the others keep their order.
-/

set_option autoImplicit false

namespace KernelPaging

def FrameTable.residents (table : FrameTable) : List Frame :=
  table.ring.filterMap table.frameAt?

section

variable {table after : FrameTable} {ring : List Nat} {index : Nat}

theorem FrameTable.Represents.residents_eq (represents : table.Represents ring) :
    table.residents = ring.filterMap table.frameAt? := by
  unfold FrameTable.residents
  rw [represents.ring_eq]

theorem FrameTable.Represents.mem_of_frameAt (represents : table.Represents ring) {frame : Frame}
    (resident : table.frameAt? index = some frame) : index ∈ ring := by
  obtain ⟨occupant, found, _⟩ := FrameTable.frameAt?_eq_some_iff.mp resident
  exact represents.mem_of_occupant found

theorem FrameTable.WellFormed.mem_residents (wellFormed : table.WellFormed) {frame : Frame} :
    frame ∈ table.residents ↔ table.frameAt? frame.id.index = some frame := by
  unfold FrameTable.residents
  rw [List.mem_filterMap]
  constructor
  · rintro ⟨slot, _, resident⟩
    rw [FrameTable.id_of_frameAt resident]
    exact resident
  · intro resident
    exact ⟨_, FrameTable.Represents.mem_of_frameAt wellFormed resident, resident⟩

theorem FrameTable.WellFormed.allPinned_iff (wellFormed : table.WellFormed) :
    table.AllPinned ↔ ∀ frame ∈ table.residents, frame.pinned = true := by
  constructor
  · intro allPinned frame member
    exact allPinned _ frame (wellFormed.mem_residents.mp member)
  · intro allPinned slot frame resident
    apply allPinned
    rw [wellFormed.mem_residents, FrameTable.id_of_frameAt resident]
    exact resident

theorem FrameTable.WellFormed.residents_length (wellFormed : table.WellFormed) :
    table.residents.length = table.count := by
  rw [FrameTable.Represents.count wellFormed, FrameTable.residents, List.length_filterMap_eq_countP,
    List.countP_eq_length]
  intro slot member
  unfold FrameTable.frameAt?
  rw [Option.isSome_map]
  exact (FrameTable.Represents.occupied wellFormed slot).mp member

theorem FrameTable.WellFormed.residents_eq_nil_iff (wellFormed : table.WellFormed) :
    table.residents = [] ↔ table.count = 0 := by
  rw [← wellFormed.residents_length, List.length_eq_zero_iff]

theorem FrameTable.Represents.residents_insert (represents : table.Represents ring)
    (record : FrameRecord) :
    (table.insert record).2.residents = table.residents ++ [(table.insert record).1] := by
  obtain ⟨empty, _, map⟩ := represents.frameAt?_insert record
  have others : ring.filterMap (table.insert record).2.frameAt? =
      ring.filterMap table.frameAt? := by
    apply List.filterMap_congr
    intro slot member
    rw [map, Function.update_of_ne]
    intro same
    have occupied := (represents.occupied slot).mp member
    rw [same, FrameTable.frameAt?_eq_none_iff.mp empty] at occupied
    cases occupied
  rw [(represents.insert record).residents_eq, represents.residents_eq, List.filterMap_append,
    others, List.filterMap_cons_some (by rw [map, Function.update_self]), List.filterMap_nil]

theorem FrameTable.Represents.residents_replaced (represents : table.Represents ring)
    (afterRepresents : after.Represents ring) {old frame : Frame}
    (resident : table.frameAt? index = some old)
    (map : after.frameAt? = Function.update table.frameAt? index (some frame)) :
    after.residents = table.residents.map fun other => if other.id = old.id then frame else other := by
  rw [afterRepresents.residents_eq, represents.residents_eq, List.map_filterMap]
  apply List.filterMap_congr
  intro slot _
  rw [map, Function.update_apply]
  by_cases same : slot = index
  · rw [if_pos same, same, resident, Option.map_some, if_pos rfl]
  · rw [if_neg same]
    cases other : table.frameAt? slot with
    | none => rfl
    | some frame =>
        have different : frame.id ≠ old.id := by
          rw [FrameTable.id_of_frameAt other, FrameTable.id_of_frameAt resident]
          intro sameId
          exact same (congrArg FrameId.index sameId)
        rw [Option.map_some, if_neg different]

/-- A frame that leaves leaves the others in their order. -/
theorem FrameTable.WellFormed.residents_remove (wellFormed : table.WellFormed) {id : FrameId}
    {record : FrameRecord} (removed : table.remove id = some (record, after)) :
    after.residents = table.residents.filter fun frame => frame.id ≠ id := by
  obtain ⟨resident, map⟩ := FrameTable.frameAt?_remove removed
  have represents : table.Represents table.ring := wellFormed
  have distinct := represents.distinct
  rw [(represents.remove removed).2.residents_eq, distinct.erase_eq_filter, FrameTable.residents,
    List.filterMap_filter, List.filter_filterMap]
  apply List.filterMap_congr
  intro slot _
  rw [map, Function.update_apply]
  by_cases same : slot = id.index
  · subst same
    rw [resident]
    simp [FrameRecord.frame, Option.filter]
  · cases other : table.frameAt? slot with
    | none => simp [same]
    | some frame =>
        have different : frame.id ≠ id := by
          rw [FrameTable.id_of_frameAt other]
          intro sameId
          exact same (congrArg FrameId.index sameId)
        simp [same, different, Option.filter]

end

end KernelPaging
