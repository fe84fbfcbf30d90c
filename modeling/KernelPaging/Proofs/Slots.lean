import KernelPaging.Frame.Sections

/-!
Reading the arena slot by slot. Every change of the table is a few updates of single slots; what an
update does to the occupants and to the generations is said here once, and no later proof looks at
the array of slots again.
-/

set_option autoImplicit false

namespace KernelPaging

theorem FrameTable.occupant?_eq_bind (table : FrameTable) (index : Nat) :
    table.occupant? index = table.slots[index]?.bind Slot.occupant := by
  unfold FrameTable.occupant?
  cases table.slots[index]? <;> rfl

theorem FrameTable.lt_size_of_occupant {table : FrameTable} {index : Nat} {occupant : Occupant}
    (found : table.occupant? index = some occupant) : index < table.slots.size := by
  rw [FrameTable.occupant?_eq_bind] at found
  obtain ⟨slot, present, _⟩ := Option.bind_eq_some_iff.mp found
  exact (Array.getElem?_eq_some_iff.mp present).1

theorem FrameTable.slot_of_occupant {table : FrameTable} {index : Nat} {occupant : Occupant}
    (found : table.occupant? index = some occupant) :
    table.slots[index]? = some ⟨table.generationAt index, some occupant⟩ := by
  unfold FrameTable.occupant? at found
  unfold FrameTable.generationAt
  cases present : table.slots[index]? with
  | none => rw [present] at found; cases found
  | some slot =>
      rw [present] at found
      change slot.occupant = some occupant at found
      rw [← found]

theorem FrameTable.resolve_eq_some_iff {table : FrameTable} {id : FrameId} {occupant : Occupant} :
    table.resolve id = some occupant ↔
      table.occupant? id.index = some occupant ∧ table.generationAt id.index = id.generation := by
  unfold FrameTable.resolve FrameTable.occupant? FrameTable.generationAt
  cases table.slots[id.index]? with
  | none => simp
  | some slot =>
      change (if slot.generation = id.generation then slot.occupant else none) = some occupant ↔
        slot.occupant = some occupant ∧ slot.generation = id.generation
      by_cases current : slot.generation = id.generation
      · rw [if_pos current, and_iff_left current]
      · rw [if_neg current]
        simp [current]

variable (table : FrameTable) (index other : Nat)

@[simp] theorem FrameTable.updateSlot_size (change : Slot → Slot) :
    (table.updateSlot index change).slots.size = table.slots.size :=
  Array.size_modify

theorem FrameTable.slot_updateSlot (change : Slot → Slot) :
    (table.updateSlot index change).slots[other]? =
      if index = other then table.slots[other]?.map change else table.slots[other]? :=
  Array.getElem?_modify

theorem FrameTable.occupant?_updateSlot (change : Slot → Slot) :
    (table.updateSlot index change).occupant? other =
      if index = other then table.slots[other]?.bind fun slot => (change slot).occupant
      else table.occupant? other := by
  rw [FrameTable.occupant?_eq_bind, FrameTable.slot_updateSlot]
  by_cases same : index = other
  · rw [if_pos same, if_pos same, Option.bind_map]
    rfl
  · rw [if_neg same, if_neg same, FrameTable.occupant?_eq_bind]

theorem FrameTable.occupant?_updateSlot_of_ne {index other : Nat} (different : index ≠ other)
    (change : Slot → Slot) :
    (table.updateSlot index change).occupant? other = table.occupant? other := by
  rw [FrameTable.occupant?_updateSlot, if_neg different]

theorem FrameTable.generationAt_eq (table : FrameTable) (index : Nat) :
    table.generationAt index = (table.slots[index]?.map Slot.generation).getD 0 := by
  unfold FrameTable.generationAt
  cases table.slots[index]? <;> rfl

theorem FrameTable.generationAt_updateSlot (change : Slot → Slot) :
    (table.updateSlot index change).generationAt other =
      if index = other then (table.slots[other]?.map fun slot => (change slot).generation).getD 0
      else table.generationAt other := by
  rw [FrameTable.generationAt_eq, FrameTable.slot_updateSlot]
  by_cases same : index = other
  · rw [if_pos same, if_pos same, Option.map_map]
    rfl
  · rw [if_neg same, if_neg same, FrameTable.generationAt_eq]

theorem FrameTable.generationAt_updateSlot_of_ne {index other : Nat} (different : index ≠ other)
    (change : Slot → Slot) :
    (table.updateSlot index change).generationAt other = table.generationAt other := by
  rw [FrameTable.generationAt_updateSlot, if_neg different]

@[simp] theorem FrameTable.updateOccupant_size (change : Occupant → Occupant) :
    (table.updateOccupant index change).slots.size = table.slots.size :=
  table.updateSlot_size index _

@[simp] theorem FrameTable.updateOccupant_barrier (change : Occupant → Occupant) :
    (table.updateOccupant index change).barrier = table.barrier := rfl

theorem FrameTable.occupant?_updateOccupant (change : Occupant → Occupant) :
    (table.updateOccupant index change).occupant? other =
      if index = other then (table.occupant? other).map change else table.occupant? other := by
  unfold FrameTable.updateOccupant
  rw [FrameTable.occupant?_updateSlot, FrameTable.occupant?_eq_bind]
  cases table.slots[other]? <;> rfl

@[simp] theorem FrameTable.generationAt_updateOccupant (change : Occupant → Occupant) :
    (table.updateOccupant index change).generationAt other = table.generationAt other := by
  unfold FrameTable.updateOccupant
  rw [FrameTable.generationAt_updateSlot, FrameTable.generationAt_eq]
  cases table.slots[other]? <;> simp

end KernelPaging
