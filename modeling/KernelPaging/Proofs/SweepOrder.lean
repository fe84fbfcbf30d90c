import KernelPaging.Proofs.RingChanges

/-!
The order in which a sweep meets the frames, from the one behind the hand round to the hand. A frame
that comes in joins the order just before the head of the ring, a frame that leaves is erased from
it, also when the hand rests on that frame, and moving the hand turns it.
-/

set_option autoImplicit false

namespace KernelPaging

def FrameTable.sweepOrder (table : FrameTable) : List Nat :=
  table.ringFrom table.count (table.advance table.hand)

theorem FrameTable.Represents.sweepOrder_of_none {table : FrameTable} {ring : List Nat}
    (represents : table.Represents ring) (unset : table.hand = none) :
    table.sweepOrder = ring := by
  unfold FrameTable.sweepOrder
  rw [unset]
  exact represents.ring_eq

/-- The ring turned so that the hand comes last. -/
theorem FrameTable.Represents.sweepOrder_of_turned {table : FrameTable} {ring front : List Nat}
    {hand : Nat} (represents : table.Represents ring) (onHand : table.hand = some hand)
    (turned : ring ~r (front ++ [hand])) : table.sweepOrder = front ++ [hand] := by
  have linked := represents.linked
  rw [Cycle.coe_eq_coe.mpr turned] at linked
  have length : table.count = (front ++ [hand]).length := by
    rw [represents.count, turned.perm.length_eq]
  unfold FrameTable.sweepOrder
  rw [onHand, length]
  cases front with
  | nil =>
      have alone : table.Adjacent hand hand := List.isChain_pair.mp linked
      have onward : table.advance (some hand) = some hand := alone.1
      rw [onward]
      rfl
  | cons first rest =>
      rw [List.cons_append, Cycle.chain_coe_cons] at linked
      have last : table.Adjacent hand first := by
        rw [List.append_assoc, ← List.cons_append] at linked
        exact List.isChain_pair.mp (List.IsChain.right_of_append linked)
      have onward : table.advance (some hand) = some first := last.1
      rw [onward, List.cons_append, List.length_cons]
      exact table.ringFrom_of_chain first (rest ++ [hand]) first linked

theorem isRotated_past (earlier later : List Nat) (index : Nat) :
    (earlier ++ index :: later) ~r (later ++ earlier ++ [index]) := by
  have cut : earlier ++ index :: later = earlier ++ [index] ++ later := by simp
  rw [cut, List.append_assoc later]
  exact List.isRotated_append

theorem FrameTable.Represents.sweepOrder_of_hand {table : FrameTable} {earlier later : List Nat}
    {hand : Nat} (represents : table.Represents (earlier ++ hand :: later))
    (onHand : table.hand = some hand) : table.sweepOrder = later ++ earlier ++ [hand] :=
  represents.sweepOrder_of_turned onHand (isRotated_past earlier later hand)

theorem FrameTable.Represents.turned {table : FrameTable} {ring : List Nat}
    (represents : table.Represents ring) : ring ~r table.sweepOrder := by
  cases onHand : table.hand with
  | none =>
      rw [represents.sweepOrder_of_none onHand]
  | some hand =>
      obtain ⟨earlier, later, rfl⟩ := List.append_of_mem (represents.hand hand onHand)
      rw [represents.sweepOrder_of_hand onHand]
      exact isRotated_past earlier later hand

theorem FrameTable.Represents.sweepOrder_nodup {table : FrameTable} {ring : List Nat}
    (represents : table.Represents ring) : table.sweepOrder.Nodup :=
  represents.turned.nodup_iff.mp represents.distinct

theorem FrameTable.Represents.sweepOrder_length {table : FrameTable} {ring : List Nat}
    (represents : table.Represents ring) : table.sweepOrder.length = table.count := by
  rw [represents.count, represents.turned.perm.length_eq]

theorem FrameTable.Represents.sweepOrder_same {table changed : FrameTable} {ring : List Nat}
    (represents : table.Represents ring) (changedRepresents : changed.Represents ring)
    (hand : changed.hand = table.hand) : changed.sweepOrder = table.sweepOrder := by
  cases onHand : table.hand with
  | none =>
      rw [represents.sweepOrder_of_none onHand,
        changedRepresents.sweepOrder_of_none (hand.trans onHand)]
  | some index =>
      obtain ⟨earlier, later, rfl⟩ := List.append_of_mem (represents.hand index onHand)
      rw [represents.sweepOrder_of_hand onHand,
        changedRepresents.sweepOrder_of_hand (hand.trans onHand)]

/-! ### Changes of the table -/

theorem FrameTable.WellFormed.sweepOrder_setPinned {table : FrameTable}
    (wellFormed : table.WellFormed) (index : Nat) (pinned : Bool) :
    (table.setPinned index pinned).sweepOrder = table.sweepOrder :=
  FrameTable.Represents.sweepOrder_same wellFormed
    (FrameTable.Represents.setPinned wellFormed index pinned) rfl

theorem FrameTable.WellFormed.sweepOrder_setBarrier {table : FrameTable}
    (wellFormed : table.WellFormed) (barrier : Barrier) :
    FrameTable.sweepOrder { table with barrier } = table.sweepOrder :=
  FrameTable.Represents.sweepOrder_same wellFormed
    (FrameTable.Represents.setBarrier wellFormed barrier) rfl

theorem FrameTable.reassign_hand {table after : FrameTable} {index : Nat} {owner : ThreadId}
    {uaddr : Address} {frame : Frame}
    (reassigned : table.reassign index owner uaddr = some (frame, after)) :
    after.hand = table.hand := by
  unfold FrameTable.reassign at reassigned
  split at reassigned
  · cases reassigned
  · cases reassigned
    rfl

theorem FrameTable.WellFormed.sweepOrder_reassign {table after : FrameTable}
    (wellFormed : table.WellFormed) {index : Nat} {owner : ThreadId} {uaddr : Address}
    {frame : Frame} (reassigned : table.reassign index owner uaddr = some (frame, after)) :
    after.sweepOrder = table.sweepOrder := by
  have represents := FrameTable.Represents.reassign wellFormed reassigned
  exact FrameTable.Represents.sweepOrder_same wellFormed represents
    (FrameTable.reassign_hand reassigned)

theorem FrameTable.insert_hand (table : FrameTable) (record : FrameRecord) :
    (table.insert record).2.hand = table.hand := by
  have linked : ∀ (middle : FrameTable) (index : Nat),
      (middle.linkLast index).2.hand = middle.hand := by
    intro middle index
    unfold FrameTable.linkLast
    cases middle.head <;> rfl
  rw [FrameTable.insert_table]
  refine (linked table.reserve.2 table.reserve.1).trans ?_
  unfold FrameTable.reserve
  cases table.vacant <;> rfl

/-- A new frame stands in front of nobody, or in front of those from the head of the ring on. -/
theorem FrameTable.WellFormed.sweepOrder_insert {table : FrameTable}
    (wellFormed : table.WellFormed) (record : FrameRecord) :
    ∃ before behind, table.sweepOrder = before ++ behind ∧
      (table.insert record).2.sweepOrder =
        before ++ (table.insert record).1.id.index :: behind := by
  have represents : table.Represents table.ring := wellFormed
  have inserted := represents.insert record
  have hand := table.insert_hand record
  generalize table.ring = ring at represents inserted
  cases onHand : table.hand with
  | none =>
      refine ⟨ring, [], ?_, ?_⟩
      · rw [represents.sweepOrder_of_none onHand, List.append_nil]
      · exact inserted.sweepOrder_of_none (hand.trans onHand)
  | some index =>
      obtain ⟨earlier, later, rfl⟩ := List.append_of_mem (represents.hand index onHand)
      rw [List.append_assoc, List.cons_append] at inserted
      refine ⟨later, earlier ++ [index], ?_, ?_⟩
      · rw [represents.sweepOrder_of_hand onHand, List.append_assoc]
      · have slot : (table.insert record).1.id.index = table.reserve.1 := rfl
        rw [inserted.sweepOrder_of_hand (hand.trans onHand), slot]
        simp

theorem FrameTable.discard_hand (table : FrameTable) (index : Nat) (occupant : Occupant) :
    (table.discard index occupant).hand =
      if table.count = 1 then none
      else if table.hand = some index then some occupant.previous else table.hand := by
  unfold FrameTable.discard FrameTable.unlink
  split
  · rfl
  · rfl

theorem isRotated_erase {ring order : List Nat} (turned : ring ~r order) (distinct : ring.Nodup)
    (index : Nat) : ring.erase index ~r order.erase index := by
  have orderDistinct := turned.nodup_iff.mp distinct
  obtain ⟨turns, within, rfl⟩ := List.isRotated_iff_mod.mp turned
  rw [distinct.erase_eq_filter, orderDistinct.erase_eq_filter,
    List.rotate_eq_drop_append_take within, List.filter_append]
  conv_lhs => rw [← List.take_append_drop turns ring, List.filter_append]
  exact List.isRotated_append

theorem FrameTable.Represents.sweepOrder_discard_hand {table : FrameTable}
    {earlier later : List Nat} {index : Nat} {occupant : Occupant}
    (represents : table.Represents (earlier ++ index :: later))
    (onHand : table.hand = some index) (found : table.occupant? index = some occupant) :
    (table.discard index occupant).sweepOrder = later ++ earlier := by
  have after := represents.discard found
  have hand := table.discard_hand index occupant
  rw [if_pos onHand, represents.around.2.2.previous_eq found, represents.count] at hand
  cases List.eq_nil_or_concat (later ++ earlier) with
  | inl alone =>
      obtain ⟨noLater, noEarlier⟩ := List.append_eq_nil_iff.mp alone
      subst noLater noEarlier
      exact after.sweepOrder_of_none (hand.trans (if_pos rfl))
  | inr others =>
      obtain ⟨front, last, others⟩ := others
      rw [List.concat_eq_append] at others
      have shared : (earlier ++ index :: later).length ≠ 1 := by
        have length := congrArg List.length others
        simp only [List.length_append, List.length_cons, List.length_nil] at length ⊢
        omega
      have turned : (earlier ++ later : List Nat) ~r (later ++ earlier) := List.isRotated_append
      rw [if_neg shared, others, List.getLastD_concat] at hand
      rw [others] at turned ⊢
      exact after.sweepOrder_of_turned hand turned

theorem FrameTable.Represents.sweepOrder_discard_other {table : FrameTable} {ring : List Nat}
    {index : Nat} {occupant : Occupant} (represents : table.Represents ring)
    (notOnHand : table.hand ≠ some index) (found : table.occupant? index = some occupant)
    (after : (table.discard index occupant).Represents (ring.erase index)) :
    (table.discard index occupant).sweepOrder = table.sweepOrder.erase index := by
  have hand := table.discard_hand index occupant
  rw [if_neg notOnHand] at hand
  have turned := isRotated_erase represents.turned represents.distinct index
  cases onHand : table.hand with
  | none =>
      rw [represents.sweepOrder_of_none onHand]
      apply after.sweepOrder_of_none
      rw [hand, onHand]
      exact ite_self none
  | some resting =>
      have member := represents.turned.mem_iff.mp (represents.mem_of_occupant found)
      have length := represents.sweepOrder_length
      obtain ⟨earlier, later, rfl⟩ := List.append_of_mem (represents.hand resting onHand)
      rw [represents.sweepOrder_of_hand onHand] at turned member length ⊢
      have different : index ≠ resting := by
        intro same
        subst same
        exact notOnHand onHand
      have inFront : index ∈ later ++ earlier := by
        rw [List.mem_append, List.mem_singleton] at member
        exact member.resolve_right different
      have shared : table.count ≠ 1 := by
        have others := List.length_pos_of_mem inFront
        rw [List.length_append, List.length_singleton] at length
        omega
      rw [if_neg shared, onHand] at hand
      rw [List.erase_append_left _ inFront] at turned ⊢
      exact after.sweepOrder_of_turned hand turned

theorem FrameTable.WellFormed.sweepOrder_remove {table after : FrameTable}
    (wellFormed : table.WellFormed) {id : FrameId} {record : FrameRecord}
    (removed : table.remove id = some (record, after)) :
    after.sweepOrder = table.sweepOrder.erase id.index := by
  have represents : table.Represents table.ring := wellFormed
  have left := (represents.remove removed).2
  obtain ⟨occupant, resolved, _, rfl⟩ := FrameTable.remove_eq_some_iff.mp removed
  have found := (FrameTable.resolve_eq_some_iff.mp resolved).1
  by_cases onHand : table.hand = some id.index
  · have distinct := represents.sweepOrder_nodup
    generalize table.ring = ring at represents
    obtain ⟨earlier, later, rfl⟩ := List.append_of_mem (represents.hand id.index onHand)
    rw [represents.sweepOrder_of_hand onHand] at distinct ⊢
    have outside : id.index ∉ later ++ earlier := by
      intro inside
      have apart := (List.nodup_append.mp distinct).2.2
      exact apart id.index inside id.index List.mem_cons_self rfl
    rw [represents.sweepOrder_discard_hand onHand found, List.erase_append_right _ outside,
      List.erase_cons_head, List.append_nil]
  · exact represents.sweepOrder_discard_other onHand found left

/-- Moving the hand to a frame brings it to the end of the order. -/
theorem FrameTable.WellFormed.sweepOrder_setHand {table : FrameTable}
    (wellFormed : table.WellFormed) {front back : List Nat} {index : Nat}
    (order : table.sweepOrder = front ++ index :: back) :
    FrameTable.sweepOrder { table with hand := some index } = back ++ front ++ [index] := by
  have turned := FrameTable.Represents.turned wellFormed
  rw [order] at turned
  have represents : FrameTable.Represents { table with hand := some index } table.ring := by
    apply FrameTable.Represents.setHand wellFormed
    intro other same
    cases same
    rw [turned.mem_iff]
    simp
  apply represents.sweepOrder_of_turned rfl
  exact turned.trans (isRotated_past front back index)

end KernelPaging
