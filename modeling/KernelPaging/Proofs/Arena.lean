import KernelPaging.Proofs.Selection

/-!
The arena as a whole, over any sequence of changes from the empty table. The table always represents
its ring, each kind of change acts on the ring as a list in its own way, and the arena is never
larger than the number of frames that were once resident together.
-/

set_option autoImplicit false

namespace KernelPaging

inductive FrameTable.Change
  | insert (record : FrameRecord)
  | remove (id : FrameId)
  | reassign (index : Nat) (owner : ThreadId) (uaddr : Address)
  | select
  | setPinned (index : Nat) (pinned : Bool)

/-- The selection may consult any record of accessed bits, in any state, and may have any outcome. -/
inductive FrameTable.Changes : FrameTable → FrameTable.Change → FrameTable → Prop
  | insert (table : FrameTable) (record : FrameRecord) :
      Changes table (.insert record) (table.insert record).2
  | remove {table after : FrameTable} {id : FrameId} {record : FrameRecord} :
      table.remove id = some (record, after) → Changes table (.remove id) after
  | removeStale {table : FrameTable} {id : FrameId} :
      table.remove id = none → Changes table (.remove id) table
  | reassign {table after : FrameTable} {index : Nat} {owner : ThreadId} {uaddr : Address}
      {frame : Frame} : table.reassign index owner uaddr = some (frame, after) →
      Changes table (.reassign index owner uaddr) after
  | reassignVacant {table : FrameTable} {index : Nat} {owner : ThreadId} {uaddr : Address} :
      table.reassign index owner uaddr = none → Changes table (.reassign index owner uaddr) table
  | select {bits : Type} [AccessedBits bits] {table after : FrameTable} {marks left : bits}
      {outcome : Except AllocError Nat} :
      table.selectVictim marks = .ok (outcome, after, left) → Changes table .select after
  | setPinned (table : FrameTable) (index : Nat) (pinned : Bool) :
      Changes table (.setPinned index pinned) (table.setPinned index pinned)

/-- What a change does to the list of the ring. -/
def FrameTable.Change.ActsOnRing (change : FrameTable.Change) (table after : FrameTable) : Prop :=
  match change with
  | .insert _ => ∃ slot, slot ∉ table.ring ∧ after.ring = table.ring ++ [slot]
  | .remove id =>
      if (table.resolve id).isSome then
        id.index ∈ table.ring ∧ after.ring = table.ring.erase id.index
      else
        after = table
  | .reassign .. | .select | .setPinned .. => after.ring = table.ring

/-- A table that changes led to from the empty one, with the largest number of frames that were
resident on the way. -/
inductive FrameTable.Evolved : FrameTable → (peak : Nat) → Prop
  | start : Evolved {} 0
  | step {table after : FrameTable} {peak : Nat} {change : FrameTable.Change} :
      Evolved table peak → table.Changes change after → Evolved after (max peak after.count)

theorem FrameTable.insert_vacant (table : FrameTable) (record : FrameRecord) :
    (table.insert record).2.vacant = table.vacant.tail := by
  have linked : ∀ (middle : FrameTable) (index : Nat),
      (middle.linkLast index).2.vacant = middle.vacant := by
    intro middle index
    unfold FrameTable.linkLast
    cases middle.head <;> rfl
  rw [FrameTable.insert_table]
  refine (linked table.reserve.2 table.reserve.1).trans ?_
  cases stack : table.vacant with
  | nil => rw [FrameTable.reserve_of_nil stack]; exact stack
  | cons index rest => rw [FrameTable.reserve_of_cons stack]; rfl

theorem FrameTable.discard_vacant (table : FrameTable) (index : Nat) (occupant : Occupant) :
    (table.discard index occupant).vacant = index :: table.vacant := by
  unfold FrameTable.discard FrameTable.vacate FrameTable.unlink
  split <;> rfl

theorem FrameTable.reassign_vacant {table after : FrameTable} {index : Nat} {owner : ThreadId}
    {uaddr : Address} {frame : Frame}
    (reassigned : table.reassign index owner uaddr = some (frame, after)) :
    after.vacant = table.vacant := by
  unfold FrameTable.reassign at reassigned
  cases found : table.occupant? index with
  | none => rw [found] at reassigned; cases reassigned
  | some occupant => rw [found] at reassigned; cases reassigned; rfl

/-- What a change makes of a well-formed table. The arena only grows to hold the frames. -/
structure FrameTable.Keeps (table : FrameTable) (change : FrameTable.Change) (after : FrameTable) :
    Prop where
  wellFormed : after.WellFormed
  acts : change.ActsOnRing table after
  size : after.slots.size ≤ max table.slots.size after.count

theorem FrameTable.Represents.size_le {table after : FrameTable} {ring later : List Nat}
    (represents : table.Represents ring) (afterwards : after.Represents later)
    (total : later.length + after.vacant.length ≤ max (ring.length + table.vacant.length)
      later.length) : after.slots.size ≤ max table.slots.size after.count := by
  rw [represents.size_eq, afterwards.size_eq, afterwards.count]
  exact total

theorem FrameTable.Changes.keeps {table after : FrameTable} {change : FrameTable.Change}
    (changes : table.Changes change after) (represents : table.WellFormed) :
    table.Keeps change after := by
  cases changes with
  | insert _ record =>
      have inserted := represents.insert record
      refine ⟨inserted.wellFormed, ?_, ?_⟩
      · refine ⟨table.reserve.1, ?_, inserted.ring_eq⟩
        intro member
        have distinct := inserted.distinct
        rw [List.nodup_append] at distinct
        exact distinct.2.2 _ member _ List.mem_cons_self rfl
      · refine represents.size_le inserted ?_
        rw [FrameTable.insert_vacant, List.length_append, List.length_singleton, List.length_tail]
        omega
  | remove removed =>
      have left := represents.remove removed
      obtain ⟨occupant, resolved, _, discarded⟩ := FrameTable.remove_eq_some_iff.mp removed
      refine ⟨left.2.wellFormed, ?_, ?_⟩
      · unfold FrameTable.Change.ActsOnRing
        simp only [resolved, Option.isSome_some, if_true]
        exact ⟨left.1, left.2.ring_eq⟩
      · have positive := List.length_pos_of_mem left.1
        refine represents.size_le left.2 ?_
        rw [← discarded, FrameTable.discard_vacant, List.length_erase_of_mem left.1,
          List.length_cons]
        omega
  | removeStale stale =>
      refine ⟨represents, ?_, Nat.le_max_left _ _⟩
      unfold FrameTable.Change.ActsOnRing
      simp [FrameTable.remove_eq_none_iff.mp stale]
  | reassign reassigned =>
      have kept := represents.reassign reassigned
      refine ⟨kept.wellFormed, kept.ring_eq, ?_⟩
      refine represents.size_le kept ?_
      rw [FrameTable.reassign_vacant reassigned]
      exact Nat.le_max_left _ _
  | reassignVacant => exact ⟨represents, rfl, Nat.le_max_left _ _⟩
  | select selected =>
      have moved := (FrameTable.selectVictim_spec selected).1
      have kept := moved.represents represents
      refine ⟨kept.wellFormed, kept.ring_eq, ?_⟩
      refine represents.size_le kept ?_
      obtain ⟨hand, same, _⟩ := moved
      rw [same]
      exact Nat.le_max_left _ _
  | setPinned _ index pinned =>
      have kept := represents.setPinned index pinned
      refine ⟨kept.wellFormed, kept.ring_eq, ?_⟩
      exact represents.size_le kept (Nat.le_max_left _ _)

theorem FrameTable.Evolved.wellFormed {table : FrameTable} {peak : Nat}
    (evolved : table.Evolved peak) :
    table.WellFormed ∧ table.slots.size ≤ peak := by
  induction evolved with
  | start => exact ⟨FrameTable.wellFormed_empty, Nat.le_refl 0⟩
  | step evolved changes ih =>
      have kept := changes.keeps ih.1
      have size := kept.size
      exact ⟨kept.wellFormed, by omega⟩

/-- The arena refines a list of slots. -/
theorem FrameTable.Evolved.refines_ring {table : FrameTable} {peak : Nat}
    (evolved : table.Evolved peak) :
    table.Represents table.ring ∧
      (table.head = none ↔ table.ring = []) ∧ (table.ring = [] → table.hand = none) ∧
      table.slots.size = table.ring.length + table.vacant.length ∧ table.slots.size ≤ peak ∧
      ∀ change after, table.Changes change after → change.ActsOnRing table after := by
  have held := evolved.wellFormed
  refine ⟨held.1, held.1.head_eq_none_iff, ?_, held.1.size_eq, held.2, ?_⟩
  · intro empty
    cases hand : table.hand with
    | none => rfl
    | some index =>
        have member := held.1.hand index hand
        rw [empty] at member
        cases member
  · intro change after changes
    exact (changes.keeps held.1).acts

def FrameTable.three : FrameTable :=
  let record : FrameRecord := { owner := ⟨1⟩, uaddr := default, kpage := default, pinned := true }
  (((({} : FrameTable).insert record).2.insert record).2.insert record).2

theorem FrameTable.evolved_three : FrameTable.three.Evolved 3 :=
  .step (.step (.step .start (.insert _ _)) (.insert _ _)) (.insert _ _)

/-- The second of three frames goes and another one comes in, in the slot that became vacant. -/
theorem FrameTable.three_recycled : ∃ record emptied,
    FrameTable.three.remove ⟨1, 0⟩ = some (record, emptied) ∧
      (emptied.insert record).2.Represents [0, 2, 1] ∧
      (emptied.insert record).2.slots.size ≤ 3 := by
  have again : (FrameTable.three.remove ⟨1, 0⟩).map
      (fun left => (left.2.count, (left.2.insert left.1).2.ring)) = some (2, [0, 2, 1]) := by
    decide +kernel
  obtain ⟨⟨record, emptied⟩, removed, same⟩ := Option.map_eq_some_iff.mp again
  have emptiedCount : emptied.count = 2 := congrArg Prod.fst same
  have ring : (emptied.insert record).2.ring = [0, 2, 1] := congrArg Prod.snd same
  have evolved := (FrameTable.evolved_three.step (.remove removed)).step (.insert _ record)
  have refines := evolved.refines_ring
  rw [ring] at refines
  have count : (emptied.insert record).2.count = 3 := refines.1.count
  have size := refines.2.2.2.2.1
  rw [count, emptiedCount] at size
  exact ⟨record, emptied, removed, refines.1, size⟩

end KernelPaging
