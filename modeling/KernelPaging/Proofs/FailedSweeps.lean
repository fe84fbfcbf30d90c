import KernelPaging.Proofs.ColdFrames

/-!
Sweeps that find nobody. They take the hand once around the ring, so that the next sweep begins with
the same frame. The hand stays where it was if it rested on a frame; if it stood before the head, it
rests on the tail afterwards. Two tables that differ in no more than this are told apart by a new
frame alone, which comes in between the tail and the head.
-/

set_option autoImplicit false

namespace KernelPaging

section

variable {table : FrameTable}

theorem FrameTable.sweepOrder_head? (nonempty : table.count ≠ 0) :
    table.sweepOrder.head? = table.advance table.hand := by
  unfold FrameTable.sweepOrder
  cases count : table.count with
  | zero => exact absurd count nonempty
  | succ turns => cases table.advance table.hand <;> rfl

theorem FrameTable.WellFormed.sweepOrder_eq_nil_iff (wellFormed : table.WellFormed) :
    table.sweepOrder = [] ↔ table.count = 0 := by
  rw [← FrameTable.Represents.sweepOrder_length wellFormed, List.length_eq_zero_iff]

theorem FrameTable.WellFormed.hand_of_empty (wellFormed : table.WellFormed)
    (empty : table.count = 0) : table.hand = none := by
  have nobody : table.ring = [] := by
    rw [← List.length_eq_zero_iff, ← FrameTable.Represents.count wellFormed]
    exact empty
  cases onHand : table.hand with
  | none => rfl
  | some index =>
      have member := FrameTable.Represents.hand wellFormed index onHand
      rw [nobody] at member
      cases member

theorem FrameTable.seekUnpinned_eq_find? (path : List Nat) : ∀ position,
    table.Leads position path →
      FrameTable.seekUnpinned path.length { table with hand := position } =
        match path.find? table.unpinnedAt with
        | some start => (some start, { table with hand := some start })
        | none => (none, { table with hand := path.getLast?.or position }) := by
  induction path with
  | nil =>
      intro position _
      rfl
  | cons first path ih =>
      intro position leads
      have onward : FrameTable.advance { table with hand := position } position = some first :=
        leads.1
      have here : FrameTable.unpinnedAt { table with hand := some first } first =
          table.unpinnedAt first := rfl
      rw [List.length_cons, FrameTable.seekUnpinned, List.find?_cons]
      simp only [onward, here]
      cases table.unpinnedAt first with
      | true => rfl
      | false =>
          simp only [Bool.false_eq_true, if_false]
          rw [ih (some first) leads.2, List.getLast?_cons]
          cases path <;> simp

theorem FrameTable.WellFormed.seekUnpinned_eq (wellFormed : table.WellFormed) :
    table.seekUnpinned table.count =
      match table.sweepOrder.find? table.unpinnedAt with
      | some start => (some start, { table with hand := some start })
      | none => (none, { table with hand := table.sweepOrder.getLast? }) := by
  have last : table.sweepOrder.getLast?.or table.hand = table.sweepOrder.getLast? := by
    cases order : table.sweepOrder.getLast? with
    | some index => rfl
    | none =>
        have nobody := List.getLast?_eq_none_iff.mp order
        rw [wellFormed.hand_of_empty (wellFormed.sweepOrder_eq_nil_iff.mp nobody)]
        rfl
  have sought := FrameTable.seekUnpinned_eq_find? table.sweepOrder table.hand
    (table.leads_ringFrom table.count table.hand)
  rw [FrameTable.Represents.sweepOrder_length wellFormed, last] at sought
  exact sought

end

/-! ### Tables that differ in the hand -/

/-- The other table is this one but for its hand, and a sweep meets the frames in the same order
there. Where the hands differ, that of this table stands before the head. -/
structure FrameTable.Trails (loose : Prop) (one other : FrameTable) : Prop where
  handOnly : other = { one with hand := other.hand }
  order : other.sweepOrder = one.sweepOrder
  apart : other.hand = one.hand ∨ loose ∧ one.hand = none

section

variable {loose : Prop} {one other : FrameTable}

theorem FrameTable.Trails.refl (loose : Prop) (table : FrameTable) : table.Trails loose table :=
  ⟨rfl, rfl, .inl rfl⟩

theorem FrameTable.Trails.eq_of_hand (trails : one.Trails loose other)
    (hand : other.hand = one.hand) : other = one := by
  rw [trails.handOnly, hand]

theorem FrameTable.Trails.count (trails : one.Trails loose other) : other.count = one.count := by
  rw [trails.handOnly]

theorem FrameTable.Trails.barrier (trails : one.Trails loose other) :
    other.barrier = one.barrier := by
  rw [trails.handOnly]

theorem FrameTable.Trails.resolve (trails : one.Trails loose other) (id : FrameId) :
    other.resolve id = one.resolve id := by
  rw [trails.handOnly]
  rfl

theorem FrameTable.Trails.isBound (trails : one.Trails loose other) (owner : ThreadId)
    (uaddr : Address) : other.isBound owner uaddr = one.isBound owner uaddr := by
  rw [trails.handOnly]
  rfl

theorem FrameTable.Trails.eq_of_empty (trails : one.Trails loose other)
    (oneWell : one.WellFormed) (otherWell : other.WellFormed) (empty : one.count = 0) :
    other = one := by
  apply trails.eq_of_hand
  rw [oneWell.hand_of_empty empty, otherWell.hand_of_empty (trails.count.trans empty)]

/-- The table holds frames, and the hand has not set out among them yet. -/
def FrameTable.Unswept (table : FrameTable) : Prop :=
  table.hand = none ∧ table.count ≠ 0

instance (table : FrameTable) : Decidable table.Unswept :=
  inferInstanceAs (Decidable (_ ∧ _))

theorem FrameTable.Trails.eq_of_swept (trails : one.Trails loose other)
    (oneWell : one.WellFormed) (otherWell : other.WellFormed) (swept : ¬ one.Unswept) :
    other = one := by
  by_cases empty : one.count = 0
  · exact trails.eq_of_empty oneWell otherWell empty
  · rcases trails.apart with same | ⟨_, unset⟩
    · exact trails.eq_of_hand same
    · exact absurd ⟨unset, empty⟩ swept

theorem FrameTable.Trails.seekUnpinned (trails : one.Trails loose other)
    (oneWell : one.WellFormed) (nonempty : one.count ≠ 0) :
    other.seekUnpinned other.count = one.seekUnpinned one.count := by
  have first := other.sweepOrder_head? (by rw [trails.count]; exact nonempty)
  rw [trails.order, one.sweepOrder_head? nonempty] at first
  rw [trails.count]
  cases count : one.count with
  | zero => exact absurd count nonempty
  | succ turns =>
      cases onward : one.advance one.hand with
      | none =>
          have nobody := one.sweepOrder_head? nonempty
          rw [onward, List.head?_eq_none_iff, oneWell.sweepOrder_eq_nil_iff] at nobody
          exact absurd nobody nonempty
      | some index =>
          have moved : { other with hand := some index } = { one with hand := some index } := by
            rw [trails.handOnly]
          rw [FrameTable.seekUnpinned, FrameTable.seekUnpinned, ← first, onward]
          simp only [moved]

theorem FrameTable.Trails.startEviction {bits : Type} [AccessedBits bits]
    (trails : one.Trails loose other) (oneWell : one.WellFormed) (otherWell : other.WellFormed)
    (marks : bits) : other.startEviction marks = one.startEviction marks := by
  by_cases empty : one.count = 0
  · rw [trails.eq_of_empty oneWell otherWell empty]
  · have selected : other.selectVictim marks = one.selectVictim marks := by
      unfold FrameTable.selectVictim
      rw [trails.seekUnpinned oneWell empty, trails.count]
      simp only [if_neg empty]
    unfold FrameTable.startEviction
    rw [selected]

theorem FrameTable.Trails.setPinned (trails : one.Trails loose other) (oneWell : one.WellFormed)
    (otherWell : other.WellFormed) (index : Nat) (pinned : Bool) :
    (one.setPinned index pinned).Trails loose (other.setPinned index pinned) := by
  constructor
  · conv_lhs => rw [trails.handOnly]
    rfl
  · rw [oneWell.sweepOrder_setPinned, otherWell.sweepOrder_setPinned, trails.order]
  · exact trails.apart

theorem FrameTable.Trails.setBarrier (trails : one.Trails loose other) (oneWell : one.WellFormed)
    (otherWell : other.WellFormed) (barrier : Barrier) :
    FrameTable.Trails loose { one with barrier } { other with barrier } := by
  constructor
  · conv_lhs => rw [trails.handOnly]
  · rw [oneWell.sweepOrder_setBarrier, otherWell.sweepOrder_setBarrier, trails.order]
  · exact trails.apart

theorem FrameTable.discard_handOnly (table : FrameTable) (hand : Option Nat) (index : Nat)
    (occupant : Occupant) :
    FrameTable.discard { table with hand } index occupant =
      { table.discard index occupant with
        hand := (FrameTable.discard { table with hand } index occupant).hand } := by
  unfold FrameTable.discard FrameTable.unlink
  split <;> rfl

theorem FrameTable.Trails.remove (trails : one.Trails loose other) (oneWell : one.WellFormed)
    (otherWell : other.WellFormed) {id : FrameId} {record : FrameRecord} {oneAfter : FrameTable}
    (removed : one.remove id = some (record, oneAfter)) :
    ∃ otherAfter, other.remove id = some (record, otherAfter) ∧
      oneAfter.Trails loose otherAfter ∧ oneAfter.WellFormed ∧ otherAfter.WellFormed := by
  obtain ⟨occupant, resolved, same, discarded⟩ := FrameTable.remove_eq_some_iff.mp removed
  have removed' : other.remove id = some (record, other.discard id.index occupant) := by
    rw [FrameTable.remove_eq_some_iff]
    exact ⟨occupant, (trails.resolve id).trans resolved, same, rfl⟩
  refine ⟨_, removed', ?_, (FrameTable.Represents.remove oneWell removed).2.wellFormed,
    (FrameTable.Represents.remove otherWell removed').2.wellFormed⟩
  constructor
  · have moved := one.discard_handOnly other.hand id.index occupant
    rw [← trails.handOnly, discarded] at moved
    exact moved
  · rw [oneWell.sweepOrder_remove removed, otherWell.sweepOrder_remove removed', trails.order]
  · rw [← discarded, FrameTable.discard_hand, FrameTable.discard_hand, trails.count]
    rcases trails.apart with same | ⟨isLoose, unset⟩
    · rw [same]
      exact .inl rfl
    · rw [unset]
      right
      simp [isLoose]

theorem FrameTable.Trails.remove_none (trails : one.Trails loose other) {id : FrameId}
    (stale : one.remove id = none) : other.remove id = none := by
  rw [FrameTable.remove_eq_none_iff] at stale ⊢
  exact (trails.resolve id).trans stale

theorem FrameTable.Trails.removeNamed (trails : one.Trails loose other)
    (oneWell : one.WellFormed) (otherWell : other.WellFormed) (entries : List (Option FrameId)) :
    (other.removeNamed entries).1 = (one.removeNamed entries).1 ∧
      (one.removeNamed entries).2.Trails loose (other.removeNamed entries).2 := by
  induction entries generalizing one other with
  | nil => exact ⟨rfl, trails⟩
  | cons entry entries ih =>
      cases entry with
      | none => exact ih trails oneWell otherWell
      | some id =>
          cases removed : one.remove id with
          | none =>
              have removed' := trails.remove_none removed
              simp only [FrameTable.removeNamed, removed, removed']
              exact ih trails oneWell otherWell
          | some result =>
              obtain ⟨record, oneAfter⟩ := result
              obtain ⟨otherAfter, removed', later, oneLater, otherLater⟩ :=
                trails.remove oneWell otherWell removed
              have rest := ih later oneLater otherLater
              simp only [FrameTable.removeNamed, removed, removed', rest.1]
              exact ⟨trivial, rest.2⟩

theorem FrameTable.Trails.detach (trails : one.Trails loose other) (oneWell : one.WellFormed)
    (otherWell : other.WellFormed) (id : FrameId) :
    (other.detach id).1 = (one.detach id).1 ∧
      (one.detach id).2.Trails loose (other.detach id).2 := by
  unfold FrameTable.detach
  rw [trails.resolve]
  cases resolved : one.resolve id with
  | none => exact ⟨rfl, trails⟩
  | some occupant =>
      have removed : one.remove id =
          some (occupant.toFrameRecord, one.discard id.index occupant) := by
        rw [FrameTable.remove, resolved]
      obtain ⟨otherAfter, removed', later, _⟩ := trails.remove oneWell otherWell removed
      rw [FrameTable.remove, trails.resolve, resolved] at removed'
      cases removed'
      simp only
      split
      · exact ⟨rfl, trails⟩
      · exact ⟨rfl, later⟩

/-- Both tables stop for the same cause, or both go on with the same value. -/
def Alike {value : Type} (loose : Prop)
    (one other : Except Halt (value × FrameTable)) : Prop :=
  match one with
  | .error halt => other = .error halt
  | .ok (result, oneAfter) => ∃ otherAfter, other = .ok (result, otherAfter) ∧
      oneAfter.Trails loose otherAfter

theorem FrameTable.unpin_refused {table changed : FrameTable} {id : FrameId} {halt : Halt}
    (same : changed.resolve id = table.resolve id) (refused : table.unpin id = .error halt) :
    changed.unpin id = .error halt := by
  unfold FrameTable.unpin at refused ⊢
  rw [same]
  cases resolved : table.resolve id with
  | none =>
      rw [resolved] at refused
      exact refused
  | some occupant =>
      rw [resolved] at refused
      simp only at refused ⊢
      split at refused
      · cases refused
      · next unpinned =>
          rw [if_neg unpinned]
          exact refused

theorem FrameTable.Trails.unpin (trails : one.Trails loose other) (oneWell : one.WellFormed)
    (otherWell : other.WellFormed) {id : FrameId} {oneAfter : FrameTable}
    (unpinned : one.unpin id = .ok oneAfter) :
    ∃ otherAfter, other.unpin id = .ok otherAfter ∧ oneAfter.Trails loose otherAfter := by
  cases unpinned' : other.unpin id with
  | error halt =>
      have refused := FrameTable.unpin_refused (trails.resolve id).symm unpinned'
      rw [unpinned] at refused
      cases refused
  | ok otherAfter =>
      rw [(FrameTable.unpin_ok unpinned).2, (FrameTable.unpin_ok unpinned').2]
      exact ⟨_, rfl, trails.setPinned oneWell otherWell id.index false⟩

theorem FrameTable.Trails.reassign_none (trails : one.Trails loose other) {index : Nat}
    {owner : ThreadId} {uaddr : Address} (vacant : one.reassign index owner uaddr = none) :
    other.reassign index owner uaddr = none := by
  rw [FrameTable.reassign_eq_none_iff] at vacant ⊢
  rw [trails.handOnly]
  exact vacant

theorem FrameTable.Trails.reassign (trails : one.Trails loose other) (oneWell : one.WellFormed)
    (otherWell : other.WellFormed) {index : Nat} {owner : ThreadId} {uaddr : Address}
    {frame : Frame} {oneAfter : FrameTable}
    (reassigned : one.reassign index owner uaddr = some (frame, oneAfter)) :
    ∃ otherAfter, other.reassign index owner uaddr = some (frame, otherAfter) ∧
      oneAfter.Trails loose otherAfter ∧ oneAfter.WellFormed ∧ otherAfter.WellFormed := by
  have reassigned' : other.reassign index owner uaddr =
      some (frame, { oneAfter with hand := other.hand }) := by
    rw [trails.handOnly]
    unfold FrameTable.reassign at reassigned ⊢
    cases found : one.occupant? index with
    | none =>
        rw [found] at reassigned
        cases reassigned
    | some occupant =>
        have found' : FrameTable.occupant? { one with hand := other.hand } index =
            some occupant := found
        rw [found] at reassigned
        rw [found']
        cases reassigned
        rfl
  have hand : oneAfter.hand = one.hand := by
    unfold FrameTable.reassign at reassigned
    split at reassigned
    · cases reassigned
    · cases reassigned
      rfl
  refine ⟨_, reassigned', ⟨rfl, ?_, ?_⟩,
    (FrameTable.Represents.reassign oneWell reassigned).wellFormed,
    (FrameTable.Represents.reassign otherWell reassigned').wellFormed⟩
  · rw [otherWell.sweepOrder_reassign reassigned', oneWell.sweepOrder_reassign reassigned,
      trails.order]
  · rw [hand]
    exact trails.apart

def FrameTable.leave {value : Type} (result : value) (table : FrameTable) :
    Except Halt (value × FrameTable) :=
  match table.barrier.exit with
  | .error halt => .error halt
  | .ok (_, barrier) => .ok (result, { table with barrier })

theorem FrameTable.Trails.leave {value : Type} (trails : one.Trails loose other)
    (oneWell : one.WellFormed) (otherWell : other.WellFormed) (result : value) :
    Alike loose (one.leave result) (other.leave result) := by
  unfold FrameTable.leave
  rw [trails.barrier]
  cases one.barrier.exit with
  | error halt => rfl
  | ok left => exact ⟨_, rfl, trails.setBarrier oneWell otherWell left.2⟩

theorem FrameTable.finishEviction_leave (table : FrameTable) (eviction : Eviction)
    (owner : ThreadId) (uaddr : Address) (written : Bool) :
    table.finishEviction eviction owner uaddr written =
      if written then
        match table.reassign eviction.slot owner uaddr with
        | some (frame, after) => after.leave (.rebound frame)
        | none => table.leave .vanished
      else
        (table.setPinned eviction.slot false).leave .kept := by
  unfold FrameTable.finishEviction FrameTable.leave
  cases written with
  | false => rfl
  | true => cases table.reassign eviction.slot owner uaddr <;> rfl

theorem FrameTable.Trails.finishEviction (trails : one.Trails loose other)
    (oneWell : one.WellFormed) (otherWell : other.WellFormed) (eviction : Eviction)
    (owner : ThreadId) (uaddr : Address) (written : Bool) :
    Alike loose (one.finishEviction eviction owner uaddr written)
      (other.finishEviction eviction owner uaddr written) := by
  rw [FrameTable.finishEviction_leave, FrameTable.finishEviction_leave]
  cases written with
  | false =>
      have unpinned := trails.setPinned oneWell otherWell eviction.slot false
      exact unpinned.leave (FrameTable.Represents.setPinned oneWell _ _).wellFormed
        (FrameTable.Represents.setPinned otherWell _ _).wellFormed EvictionEnd.kept
  | true =>
      cases reassigned : one.reassign eviction.slot owner uaddr with
      | none =>
          rw [trails.reassign_none reassigned]
          exact trails.leave oneWell otherWell EvictionEnd.vanished
      | some rebound =>
          obtain ⟨otherAfter, reassigned', later, oneLater, otherLater⟩ :=
            trails.reassign oneWell otherWell reassigned
          rw [reassigned']
          exact later.leave oneLater otherLater (EvictionEnd.rebound rebound.1)

theorem FrameTable.Trails.enroll (trails : one.Trails loose other) (owner : ThreadId)
    (uaddr kpage : Address)
    (settled : one.isBound owner uaddr = false → other.hand = one.hand) :
    Alike loose (one.enroll owner uaddr kpage) (other.enroll owner uaddr kpage) := by
  unfold FrameTable.enroll
  rw [trails.isBound]
  cases bound : one.isBound owner uaddr with
  | true => rfl
  | false =>
      rw [trails.eq_of_hand (settled bound)]
      exact ⟨_, rfl, .refl loose _⟩

end

theorem FrameTable.Represents.getLast?_sweepOrder {table : FrameTable} {ring : List Nat}
    (represents : table.Represents ring) {index : Nat} (onHand : table.hand = some index) :
    table.sweepOrder.getLast? = some index := by
  obtain ⟨earlier, later, rfl⟩ := List.append_of_mem (represents.hand index onHand)
  rw [represents.sweepOrder_of_hand onHand, List.getLast?_concat]

theorem FrameTable.WellFormed.trails_around {table : FrameTable}
    (wellFormed : table.WellFormed) :
    table.Trails True { table with hand := table.sweepOrder.getLast? } := by
  cases last : table.sweepOrder.getLast? with
  | none =>
      have nobody := List.getLast?_eq_none_iff.mp last
      rw [← wellFormed.hand_of_empty (wellFormed.sweepOrder_eq_nil_iff.mp nobody)]
      exact .refl True table
  | some index =>
      have order : table.sweepOrder = table.sweepOrder.dropLast ++ [index] :=
        (List.dropLast_append_getLast? index last).symm
      constructor
      · rfl
      · rw [wellFormed.sweepOrder_setHand order, List.nil_append, ← order]
      · cases onHand : table.hand with
        | none => exact .inr ⟨trivial, rfl⟩
        | some resting =>
            have same := FrameTable.Represents.getLast?_sweepOrder wellFormed onHand
            rw [last] at same
            exact .inl same

/-- A selection that fails changes nothing but the hand. -/
theorem FrameTable.WellFormed.startEviction_trails {bits : Type} [AccessedBits bits]
    {table after : FrameTable} {marks left : bits} {failure : AllocError}
    (wellFormed : table.WellFormed)
    (started : table.startEviction marks = .ok (.error failure, after, left)) :
    left = marks ∧ table.Trails True after := by
  have selected : table.selectVictim marks = .ok (.error failure, after, left) := by
    unfold FrameTable.startEviction at started
    split at started
    · cases started
    · next failed =>
        cases started
        exact failed
    · split at started <;> cases started
  unfold FrameTable.selectVictim at selected
  split at selected
  · cases selected
    exact ⟨rfl, .refl True table⟩
  · split at selected
    · next moved sought =>
        cases selected
        rw [wellFormed.seekUnpinned_eq] at sought
        split at sought
        · cases sought
        · cases sought
          exact ⟨rfl, wellFormed.trails_around⟩
    · split at selected <;> cases selected

end KernelPaging
