import KernelPaging.Proofs.SecondChance

/-!
The sweep order outlives every change of the table. A frame that leaves is missing from it, a frame
that comes in stands somewhere in it, and the others keep their places; handing a slot to another
page and looking for a victim in vain change nothing. Only a victim turns it, until it comes last.
-/

set_option autoImplicit false

namespace KernelPaging

variable {table : FrameTable}

theorem FrameTable.WellFormed.sweepOrder_starts (wellFormed : table.WellFormed) :
    table.sweepOrder.head? = table.advance table.hand := by
  by_cases empty : table.count = 0
  · have nobody := wellFormed.sweepOrder_eq_nil_iff.mpr empty
    have represents : table.Represents table.ring := wellFormed
    rw [nobody, wellFormed.hand_of_empty empty]
    have headless : table.head = none := by
      rw [represents.head_eq_none_iff, ← List.length_eq_zero_iff, ← represents.count]
      exact empty
    exact headless.symm
  · exact table.sweepOrder_head? empty

theorem FrameTable.WellFormed.mem_sweepOrder_iff (wellFormed : table.WellFormed) {slot : Nat} :
    slot ∈ table.sweepOrder ↔ (table.frameAt? slot).isSome := by
  have turned := FrameTable.Represents.turned wellFormed
  rw [← turned.mem_iff, FrameTable.Represents.occupied wellFormed]
  unfold FrameTable.frameAt?
  rw [Option.isSome_map]

theorem FrameTable.WellFormed.remove_erases (wellFormed : table.WellFormed) {id : FrameId}
    {frame : Frame} (named : table.frame? id = some frame) :
    ∃ record after, table.remove id = some (record, after) ∧ record.frame id = frame ∧
      after.WellFormed ∧ after.sweepOrder = table.sweepOrder.erase id.index := by
  obtain ⟨occupant, resolved, same⟩ := Option.map_eq_some_iff.mp named
  have removed : table.remove id =
      some (occupant.toFrameRecord, table.discard id.index occupant) := by
    rw [FrameTable.remove_eq_some_iff]
    exact ⟨occupant, resolved, rfl, rfl⟩
  have left := FrameTable.Represents.remove wellFormed removed
  exact ⟨_, _, removed, same, left.2.wellFormed, wellFormed.sweepOrder_remove removed⟩

theorem FrameTable.WellFormed.insert_erased (wellFormed : table.WellFormed)
    (record : FrameRecord) :
    (table.insert record).2.WellFormed ∧
      (table.insert record).1.id.index ∉ table.sweepOrder ∧
      (table.insert record).1.id.index ∈ (table.insert record).2.sweepOrder ∧
      (table.insert record).2.sweepOrder.erase (table.insert record).1.id.index =
        table.sweepOrder := by
  have inserted := FrameTable.Represents.insert wellFormed record
  obtain ⟨before, behind, old, new⟩ := wellFormed.sweepOrder_insert record
  have distinct := inserted.sweepOrder_nodup
  generalize (table.insert record).1.id.index = slot at new
  rw [new] at distinct ⊢
  have outside := (List.nodup_cons.mp (List.nodup_middle.mp distinct)).1
  rw [old]
  refine ⟨inserted.wellFormed, outside, List.mem_append_right _ List.mem_cons_self, ?_⟩
  have notBefore : slot ∉ before := fun inside => outside (List.mem_append_left _ inside)
  rw [List.erase_append_right _ notBefore, List.erase_cons_head]

theorem FrameTable.WellFormed.reassign_keeps (wellFormed : table.WellFormed) {slot : Nat}
    (occupied : slot ∈ table.sweepOrder) (owner : ThreadId) (uaddr : Address) :
    ∃ frame after, table.reassign slot owner uaddr = some (frame, after) ∧ after.WellFormed ∧
      after.sweepOrder = table.sweepOrder := by
  cases reassigned : table.reassign slot owner uaddr with
  | none =>
      rw [wellFormed.mem_sweepOrder_iff, FrameTable.reassign_eq_none_iff.mp reassigned] at occupied
      cases occupied
  | some result =>
      have kept := FrameTable.Represents.reassign wellFormed reassigned
      exact ⟨_, _, rfl, kept.wellFormed, wellFormed.sweepOrder_reassign reassigned⟩

/-- What a selection makes of the order. The frames up to the victim have had their turn. -/
def SelectionTurns (order : List Nat) (outcome : Except AllocError Nat) (after : List Nat) : Prop :=
  match outcome with
  | .error _ => after = order
  | .ok victim => ∃ front back, order = front ++ victim :: back ∧
      after = back ++ front ++ [victim]

theorem FrameTable.WellFormed.selectVictim_turns {bits : Type} [AccessedBits bits]
    {after : FrameTable} {marks left : bits} {outcome : Except AllocError Nat}
    (wellFormed : table.WellFormed)
    (selected : table.selectVictim marks = .ok (outcome, after, left)) :
    after.WellFormed ∧ SelectionTurns table.sweepOrder outcome after.sweepOrder := by
  have kept := (FrameTable.selectVictim_spec selected).1.represents wellFormed
  refine ⟨kept.wellFormed, ?_⟩
  rcases wellFormed.selectVictim_cases marks with
    ⟨_, failed⟩ | ⟨_, _, failed⟩ | ⟨_, _, ⟨victim, _, chosen, unpinned⟩ | ⟨_, stopped⟩⟩
  · rw [failed] at selected
    cases selected
    rfl
  · rw [failed] at selected
    cases selected
    exact wellFormed.trails_around.order
  · rw [chosen] at selected
    cases selected
    obtain ⟨frame, resident, _⟩ := FrameTable.unpinnedAt_iff_frame.mp unpinned
    obtain ⟨front, back, order⟩ := List.append_of_mem (wellFormed.mem_sweepOrder resident)
    exact ⟨front, back, order, wellFormed.sweepOrder_setHand order⟩
  · rw [stopped] at selected
    cases selected

/-- The order is that of all frames around the ring, from the successor of the hand on. Taking out a
frame erases its slot, without a new frame it is the old one, a slot that is handed on stays where it
is, and a selection that fails leaves all where they are. A victim comes last. -/
theorem FrameTable.WellFormed.sweepOrder_survives (wellFormed : table.WellFormed) :
    (table.ring ~r table.sweepOrder ∧ table.sweepOrder.Nodup ∧
      table.sweepOrder.head? = table.advance table.hand ∧
      ∀ slot, slot ∈ table.sweepOrder ↔ (table.frameAt? slot).isSome) ∧
    (∀ id frame, table.frame? id = some frame →
      ∃ record after, table.remove id = some (record, after) ∧ record.frame id = frame ∧
        after.WellFormed ∧ after.sweepOrder = table.sweepOrder.erase id.index) ∧
    (∀ record, (table.insert record).2.WellFormed ∧
      (table.insert record).1.id.index ∉ table.sweepOrder ∧
      (table.insert record).1.id.index ∈ (table.insert record).2.sweepOrder ∧
      (table.insert record).2.sweepOrder.erase (table.insert record).1.id.index =
        table.sweepOrder) ∧
    (∀ slot ∈ table.sweepOrder, ∀ owner uaddr,
      ∃ frame after, table.reassign slot owner uaddr = some (frame, after) ∧ after.WellFormed ∧
        after.sweepOrder = table.sweepOrder) ∧
    ∀ (bits : Type) [AccessedBits bits] (marks left : bits) after outcome,
      table.selectVictim marks = .ok (outcome, after, left) →
        after.WellFormed ∧ SelectionTurns table.sweepOrder outcome after.sweepOrder := by
  have represents : table.Represents table.ring := wellFormed
  refine ⟨⟨represents.turned, represents.sweepOrder_nodup, wellFormed.sweepOrder_starts, ?_⟩,
    ?_, wellFormed.insert_erased, ?_, ?_⟩
  · intro slot
    exact wellFormed.mem_sweepOrder_iff
  · intro id frame named
    exact wellFormed.remove_erases named
  · intro slot occupied
    exact wellFormed.reassign_keeps occupied
  · intro bits _ marks left after outcome selected
    exact wellFormed.selectVictim_turns selected

def FrameTable.onHead : FrameTable :=
  { FrameTable.fourOwners with hand := some 0 }

theorem FrameTable.onHead_wellFormed : FrameTable.onHead.WellFormed := by
  have represents : FrameTable.fourOwners.Represents FrameTable.fourOwners.ring :=
    FrameTable.fourOwners_wellFormed
  have moved : FrameTable.onHead.Represents FrameTable.fourOwners.ring :=
    represents.setHand (by decide +kernel)
  exact moved.wellFormed

/-- The frame under the hand, which is also the head of the ring, leaves, and the sweep goes on with
the same frame as before. If a victim is selected instead, it comes last. -/
theorem FrameTable.onHead_survives :
    FrameTable.onHead.sweepOrder = [1, 2, 3, 0] ∧
      (∃ record after, FrameTable.onHead.remove ⟨0, 0⟩ = some (record, after) ∧
        after.sweepOrder = [1, 2, 3]) ∧
      ∃ after left, FrameTable.onHead.selectVictim (⟨[(⟨3⟩, default)]⟩ : TouchedSet) =
          .ok (.ok 3, after, left) ∧ after.sweepOrder.getLast? = some 3 := by
  have order : FrameTable.onHead.sweepOrder = [1, 2, 3, 0] := by decide +kernel
  have named : FrameTable.onHead.frame? ⟨0, 0⟩ =
      some ((ownedRecord 1 false).frame ⟨0, 0⟩) := by decide +kernel
  have selected : FrameTable.onHead.selectVictim (⟨[(⟨3⟩, default)]⟩ : TouchedSet) =
      .ok (.ok 3, { FrameTable.onHead with hand := some 3 }, ⟨[]⟩) := by decide +kernel
  obtain ⟨_, removes, _, _, selects⟩ := FrameTable.onHead_wellFormed.sweepOrder_survives
  refine ⟨order, ?_, _, _, selected, ?_⟩
  · obtain ⟨record, after, removed, _, _, left⟩ := removes _ _ named
    rw [order] at left
    exact ⟨record, after, removed, left⟩
  · obtain ⟨_, front, back, _, turned⟩ := selects _ _ _ _ _ selected
    rw [turned, List.getLast?_concat]

end KernelPaging
