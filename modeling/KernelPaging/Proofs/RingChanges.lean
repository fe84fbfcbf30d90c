import KernelPaging.Proofs.Ring

/-!
What the changes of the table do to the ring. A frame comes in at the end of the list, a frame that
leaves is erased from it, and nothing else touches it.
-/

set_option autoImplicit false

namespace KernelPaging

theorem FrameTable.Represents.of_same_links {table changed : FrameTable} {ring : List Nat}
    (represents : table.Represents ring)
    (next : ∀ index, changed.next? index = table.next? index)
    (previous : ∀ index, changed.previous? index = table.previous? index)
    (size : changed.slots.size = table.slots.size) (vacant : changed.vacant = table.vacant)
    (head : changed.head = table.head) (hand : changed.hand = table.hand)
    (count : changed.count = table.count) : changed.Represents ring := by
  have present : ∀ index,
      (changed.occupant? index).isSome = (table.occupant? index).isSome := by
    intro index
    have sameNext := congrArg Option.isSome (next index)
    simpa only [FrameTable.next?, Option.isSome_map] using sameNext
  have adjacent : changed.Adjacent = table.Adjacent := by
    funext left right
    unfold FrameTable.Adjacent
    rw [next, previous]
  refine
    { distinct := represents.distinct
      occupied := ?_
      linked := ?_
      head := head.trans represents.head
      hand := ?_
      count := count.trans represents.count
      vacantDistinct := ?_
      vacated := ?_ }
  · intro index
    rw [present]
    exact represents.occupied index
  · rw [adjacent]
    exact represents.linked
  · intro index onHand
    rw [hand] at onHand
    exact represents.hand index onHand
  · rw [vacant]
    exact represents.vacantDistinct
  · intro index
    rw [vacant, size, represents.vacated, ← Option.isNone_iff_eq_none, ← Option.isNone_iff_eq_none,
      ← Option.not_isSome, ← Option.not_isSome, present]

theorem FrameTable.Represents.updateOccupant {table : FrameTable} {ring : List Nat}
    (represents : table.Represents ring) (index : Nat) (change : Occupant → Occupant)
    (next : ∀ occupant, (change occupant).next = occupant.next)
    (previous : ∀ occupant, (change occupant).previous = occupant.previous) :
    (table.updateOccupant index change).Represents ring := by
  refine represents.of_same_links ?_ ?_ (by simp) rfl rfl rfl rfl
  · intro other
    unfold FrameTable.next?
    rw [FrameTable.occupant?_updateOccupant]
    split
    · rw [Option.map_map]
      exact congrArg (Option.map · _) (funext next)
    · rfl
  · intro other
    unfold FrameTable.previous?
    rw [FrameTable.occupant?_updateOccupant]
    split
    · rw [Option.map_map]
      exact congrArg (Option.map · _) (funext previous)
    · rfl

theorem FrameTable.Represents.setPinned {table : FrameTable} {ring : List Nat}
    (represents : table.Represents ring) (index : Nat) (pinned : Bool) :
    (table.setPinned index pinned).Represents ring :=
  represents.updateOccupant index _ (fun _ => rfl) (fun _ => rfl)

theorem FrameTable.Represents.reassign {table changed : FrameTable} {ring : List Nat}
    (represents : table.Represents ring) {index : Nat} {owner : ThreadId} {uaddr : Address}
    {frame : Frame} (reassigned : table.reassign index owner uaddr = some (frame, changed)) :
    changed.Represents ring := by
  unfold FrameTable.reassign at reassigned
  cases found : table.occupant? index with
  | none => rw [found] at reassigned; cases reassigned
  | some occupant =>
      rw [found] at reassigned
      cases reassigned
      refine represents.of_same_links ?_ ?_ (table.updateSlot_size index _) rfl rfl rfl rfl
      · intro other
        unfold FrameTable.next?
        rw [FrameTable.occupant?_updateSlot]
        split
        · next same =>
          rw [← same, FrameTable.slot_of_occupant found, found]
          rfl
        · rfl
      · intro other
        unfold FrameTable.previous?
        rw [FrameTable.occupant?_updateSlot]
        split
        · next same =>
          rw [← same, FrameTable.slot_of_occupant found, found]
          rfl
        · rfl

theorem FrameTable.Represents.setBarrier {table : FrameTable} {ring : List Nat}
    (represents : table.Represents ring) (barrier : Barrier) :
    FrameTable.Represents { table with barrier } ring :=
  { represents with }

theorem FrameTable.Represents.setHand {table : FrameTable} {ring : List Nat}
    (represents : table.Represents ring) {hand : Option Nat}
    (onRing : ∀ index, hand = some index → index ∈ ring) :
    FrameTable.Represents { table with hand } ring :=
  { represents with hand := onRing }

/-! ### Relinking the two ends of a stretch -/

def FrameTable.relink (table : FrameTable) (last first next previous : Nat) : FrameTable :=
  (table.setNext last next).setPrevious first previous

theorem FrameTable.isSome_relink (table : FrameTable) (last first next previous other : Nat) :
    ((table.relink last first next previous).occupant? other).isSome =
      (table.occupant? other).isSome :=
  (FrameTable.isSome_updateOccupant _ _ _ _).trans (FrameTable.isSome_updateOccupant _ _ _ _)

@[simp] theorem FrameTable.relink_size (table : FrameTable) (last first next previous : Nat) :
    (table.relink last first next previous).slots.size = table.slots.size :=
  (FrameTable.updateOccupant_size _ _ _).trans (FrameTable.updateOccupant_size _ _ _)

theorem FrameTable.relink_others (table : FrameTable) (last first next previous : Nat) :
    (table.relink last first next previous).vacant = table.vacant ∧
      (table.relink last first next previous).head = table.head ∧
      (table.relink last first next previous).hand = table.hand ∧
      (table.relink last first next previous).count = table.count := by
  unfold FrameTable.relink FrameTable.setPrevious FrameTable.setNext
  exact ⟨rfl, rfl, rfl, rfl⟩

theorem FrameTable.next?_relink (table : FrameTable) (last first next previous other : Nat) :
    (table.relink last first next previous).next? other =
      if last = other then (table.next? other).map fun _ => next else table.next? other := by
  unfold FrameTable.relink
  rw [FrameTable.next?_setPrevious, FrameTable.next?_setNext]

theorem FrameTable.previous?_relink (table : FrameTable) (last first next previous other : Nat) :
    (table.relink last first next previous).previous? other =
      if first = other then (table.previous? other).map fun _ => previous
      else table.previous? other := by
  unfold FrameTable.relink
  rw [FrameTable.previous?_setPrevious, FrameTable.previous?_setNext]

/-- The links inside a stretch of the ring survive when its last slot is led elsewhere and its first
slot is reached from elsewhere, if the last slot did not lead into the stretch. -/
theorem FrameTable.chain_relink {table : FrameTable} {first last : Nat} {rest : List Nat}
    (chained : List.IsChain table.Adjacent (first :: rest)) (distinct : (first :: rest).Nodup)
    (leaves : ∀ onward, table.next? last = some onward → onward ∉ rest) (next previous : Nat) :
    List.IsChain (table.relink last first next previous).Adjacent (first :: rest) := by
  refine chained.imp_of_mem_tail_imp ?_
  intro left right _ later adjacent
  rw [List.tail_cons] at later
  have notLast : last ≠ left := by
    intro same
    subst same
    exact leaves right adjacent.1 later
  have notFirst : first ≠ right := by
    intro same
    subst same
    exact (List.nodup_cons.mp distinct).1 later
  constructor
  · rw [FrameTable.next?_relink, if_neg notLast]
    exact adjacent.1
  · rw [FrameTable.previous?_relink, if_neg notFirst]
    exact adjacent.2

theorem FrameTable.Adjacent.updateSlot {table : FrameTable} {left right index : Nat}
    (adjacent : table.Adjacent left right) (notLeft : index ≠ left) (notRight : index ≠ right)
    (change : Slot → Slot) : (table.updateSlot index change).Adjacent left right := by
  unfold FrameTable.Adjacent FrameTable.next? FrameTable.previous?
  rw [FrameTable.occupant?_updateSlot_of_ne _ notLeft,
    FrameTable.occupant?_updateSlot_of_ne _ notRight]
  exact adjacent

theorem FrameTable.chain_updateSlot {table : FrameTable} {stretch : List Nat} {index : Nat}
    (chained : List.IsChain table.Adjacent stretch) (outside : index ∉ stretch)
    (change : Slot → Slot) :
    List.IsChain (table.updateSlot index change).Adjacent stretch := by
  refine chained.imp_of_mem_imp ?_
  intro left right leftMember rightMember adjacent
  exact adjacent.updateSlot (ne_of_mem_of_not_mem leftMember outside).symm
    (ne_of_mem_of_not_mem rightMember outside).symm change

/-! ### A frame comes in -/

/-- What reserving a slot leaves behind: the slot is empty and off the stack, and nobody noticed. -/
structure FrameTable.Reserved (table : FrameTable) (index : Nat) (reserved : FrameTable) :
    Prop where
  within : index < reserved.slots.size
  empty : table.occupant? index = none
  occupant : ∀ other, reserved.occupant? other = table.occupant? other
  generation : ∀ other, reserved.generationAt other = table.generationAt other
  head : reserved.head = table.head
  hand : reserved.hand = table.hand
  count : reserved.count = table.count
  vacantDistinct : reserved.vacant.Nodup
  vacated : ∀ other, other ∈ reserved.vacant ↔
    other < reserved.slots.size ∧ table.occupant? other = none ∧ other ≠ index

theorem FrameTable.reserve_of_cons {table : FrameTable} {index : Nat} {rest : List Nat}
    (stack : table.vacant = index :: rest) :
    table.reserve = (index, { table with vacant := rest }) := by
  unfold FrameTable.reserve
  rw [stack]

theorem FrameTable.reserve_of_nil {table : FrameTable} (stack : table.vacant = []) :
    table.reserve = (table.slots.size, { table with slots := table.slots.push {} }) := by
  unfold FrameTable.reserve
  rw [stack]

private theorem reserved_of_cons {table : FrameTable} {ring : List Nat} {index : Nat}
    {rest : List Nat} (represents : table.Represents ring) (stack : table.vacant = index :: rest) :
    table.Reserved index { table with vacant := rest } := by
  have top : index < table.slots.size ∧ table.occupant? index = none := by
    rw [← represents.vacated, stack]
    exact List.mem_cons_self
  have distinct := represents.vacantDistinct
  rw [stack, List.nodup_cons] at distinct
  refine ⟨top.1, top.2, fun _ => rfl, fun _ => rfl, rfl, rfl, rfl, distinct.2, ?_⟩
  intro other
  have member := represents.vacated other
  rw [stack, List.mem_cons] at member
  constructor
  · intro later
    have old := member.mp (.inr later)
    refine ⟨old.1, old.2, ?_⟩
    intro same
    subst same
    exact distinct.1 later
  · rintro ⟨within, empty, different⟩
    exact (member.mpr ⟨within, empty⟩).resolve_left different

private theorem reserved_of_nil {table : FrameTable} {ring : List Nat}
    (represents : table.Represents ring) (stack : table.vacant = []) :
    table.Reserved table.slots.size { table with slots := table.slots.push {} } := by
  have full : ∀ other, other < table.slots.size → table.occupant? other ≠ none := by
    intro other within empty
    have member := (represents.vacated other).mpr ⟨within, empty⟩
    rw [stack] at member
    cases member
  have slot : ∀ other, (table.slots.push {})[other]? =
      if other = table.slots.size then some {} else table.slots[other]? := by
    intro other
    exact Array.getElem?_push
  refine
    { within := by rw [Array.size_push]; exact Nat.lt_succ_self _
      empty := ?_
      occupant := ?_
      generation := ?_
      head := rfl
      hand := rfl
      count := rfl
      vacantDistinct := represents.vacantDistinct
      vacated := ?_ }
  · rw [FrameTable.occupant?_eq_bind, Array.getElem?_size]
    rfl
  · intro other
    rw [FrameTable.occupant?_eq_bind, FrameTable.occupant?_eq_bind, slot]
    split
    · next same => rw [same, Array.getElem?_size]; rfl
    · rfl
  · intro other
    rw [FrameTable.generationAt_eq, FrameTable.generationAt_eq, slot]
    split
    · next same => rw [same, Array.getElem?_size]; rfl
    · rfl
  · intro other
    rw [stack, Array.size_push]
    constructor
    · intro impossible
      cases impossible
    · rintro ⟨within, empty, different⟩
      exact absurd empty (full other (by omega))

theorem FrameTable.Represents.reserve {table : FrameTable} {ring : List Nat}
    (represents : table.Represents ring) :
    table.Reserved table.reserve.1 table.reserve.2 := by
  cases stack : table.vacant with
  | cons index rest =>
      rw [FrameTable.reserve_of_cons stack]
      exact reserved_of_cons represents stack
  | nil =>
      rw [FrameTable.reserve_of_nil stack]
      exact reserved_of_nil represents stack

def FrameTable.fill (table : FrameTable) (index : Nat) (occupant : Occupant) : FrameTable :=
  { table.updateSlot index (fun slot => { slot with occupant := some occupant }) with
    count := table.count + 1 }

theorem FrameTable.occupant?_fill {table : FrameTable} {index : Nat}
    (within : index < table.slots.size) (occupant : Occupant) (other : Nat) :
    (table.fill index occupant).occupant? other =
      if index = other then some occupant else table.occupant? other := by
  change (table.updateSlot index _).occupant? other = _
  rw [FrameTable.occupant?_updateSlot]
  split
  · next same =>
    subst same
    rw [Array.getElem?_eq_getElem within]
    rfl
  · rfl

theorem FrameTable.next?_fill {table : FrameTable} {index : Nat}
    (within : index < table.slots.size) (occupant : Occupant) (other : Nat) :
    (table.fill index occupant).next? other =
      if index = other then some occupant.next else table.next? other := by
  unfold FrameTable.next?
  rw [FrameTable.occupant?_fill within]
  split <;> rfl

theorem FrameTable.previous?_fill {table : FrameTable} {index : Nat}
    (within : index < table.slots.size) (occupant : Occupant) (other : Nat) :
    (table.fill index occupant).previous? other =
      if index = other then some occupant.previous else table.previous? other := by
  unfold FrameTable.previous?
  rw [FrameTable.occupant?_fill within]
  split <;> rfl

@[simp] theorem FrameTable.generationAt_fill (table : FrameTable) (index other : Nat)
    (occupant : Occupant) :
    (table.fill index occupant).generationAt other = table.generationAt other := by
  change (table.updateSlot index _).generationAt other = _
  rw [FrameTable.generationAt_updateSlot, FrameTable.generationAt_eq]
  split <;> rfl

theorem FrameTable.insert_table (table : FrameTable) (record : FrameRecord) :
    (table.insert record).2 =
      let linked := table.reserve.2.linkLast table.reserve.1
      linked.2.fill table.reserve.1
        { record with previous := linked.1.1, next := linked.1.2 } := rfl

theorem FrameTable.linkLast_of_none {table : FrameTable} (index : Nat) (empty : table.head = none) :
    table.linkLast index = ((index, index), { table with head := some index }) := by
  unfold FrameTable.linkLast
  rw [empty]

theorem FrameTable.linkLast_of_some {table : FrameTable} (index : Nat) {first last : Nat}
    (head : table.head = some first) (tail : table.previous? first = some last) :
    table.linkLast index = ((last, first), table.relink last first index index) := by
  unfold FrameTable.linkLast
  unfold FrameTable.previous? at tail
  rw [head]
  simp only [tail, Option.getD_some]
  rfl

theorem FrameTable.Represents.previous_first {table : FrameTable} {first : Nat} {rest : List Nat}
    (represents : table.Represents (first :: rest)) :
    table.previous? first = some (rest.getLastD first) ∧
      table.next? (rest.getLastD first) = some first := by
  have closing := @FrameTable.Represents.around table [] rest first represents
  rw [List.append_nil] at closing
  exact ⟨closing.2.2.2, closing.2.2.1⟩

/-- The parts of the table that do not depend on where the links lead. -/
private theorem represents_fill {table middle linked : FrameTable} {ring : List Nat} {index : Nat}
    {occupant : Occupant} (represents : table.Represents ring)
    (reserved : table.Reserved index middle)
    (present : ∀ other, (linked.occupant? other).isSome = (middle.occupant? other).isSome)
    (size : linked.slots.size = middle.slots.size) (vacant : linked.vacant = middle.vacant)
    (hand : linked.hand = middle.hand) (count : linked.count = middle.count)
    (head : linked.head = (ring ++ [index]).head?)
    (chained : Cycle.Chain (linked.fill index occupant).Adjacent (ring ++ [index] : List Nat)) :
    (linked.fill index occupant).Represents (ring ++ [index]) := by
  have within : index < linked.slots.size := by rw [size]; exact reserved.within
  have outside : index ∉ ring := by
    rw [represents.occupied, reserved.empty]
    exact Bool.false_ne_true
  refine
    { distinct := ?_
      occupied := ?_
      linked := chained
      head := head
      hand := ?_
      count := ?_
      vacantDistinct := ?_
      vacated := ?_ }
  · rw [List.nodup_append]
    refine ⟨represents.distinct, List.nodup_singleton index, ?_⟩
    intro other member last isLast same
    rw [List.mem_singleton.mp isLast] at same
    exact outside (same ▸ member)
  · intro other
    rw [List.mem_append, List.mem_singleton, FrameTable.occupant?_fill within,
      represents.occupied, ← reserved.occupant, ← present]
    by_cases same : index = other
    · rw [if_pos same]
      exact ⟨fun _ => rfl, fun _ => .inr same.symm⟩
    · rw [if_neg same]
      exact or_iff_left (Ne.symm same)
  · intro other onHand
    change linked.hand = some other at onHand
    rw [hand, reserved.hand] at onHand
    exact List.mem_append_left _ (represents.hand other onHand)
  · change linked.count + 1 = _
    rw [count, reserved.count, represents.count, List.length_append, List.length_singleton]
  · change linked.vacant.Nodup
    rw [vacant]
    exact reserved.vacantDistinct
  · intro other
    change other ∈ linked.vacant ↔ other < (linked.updateSlot index _).slots.size ∧ _
    rw [vacant, FrameTable.updateSlot_size, size, reserved.vacated,
      FrameTable.occupant?_fill within, ← Option.isNone_iff_eq_none, ← Option.isNone_iff_eq_none,
      ← reserved.occupant, ← Option.not_isSome, ← Option.not_isSome, ← present]
    by_cases same : index = other
    · rw [if_pos same]
      simp [same]
    · rw [if_neg same]
      simp [Ne.symm same]

/-- The two ends of the ring lead to the slot that is linked last, and inside nothing changes. -/
private theorem ends_relink {table middle : FrameTable} {first : Nat} {rest : List Nat}
    (represents : table.Represents (first :: rest))
    (occupant : ∀ other, middle.occupant? other = table.occupant? other) (index : Nat) :
    let linked := middle.relink (rest.getLastD first) first index index
    List.IsChain linked.Adjacent (first :: rest) ∧
      linked.next? (rest.getLastD first) = some index ∧ linked.previous? first = some index := by
  have closing := represents.previous_first
  have sameNext : middle.next? = table.next? := by
    funext other
    unfold FrameTable.next?
    rw [occupant]
  have samePrevious : middle.previous? = table.previous? := by
    funext other
    unfold FrameTable.previous?
    rw [occupant]
  refine ⟨FrameTable.chain_relink ?_ represents.distinct ?_ index index, ?_, ?_⟩
  · unfold FrameTable.Adjacent
    rw [sameNext, samePrevious]
    exact represents.chain
  · intro onward leads inRest
    rw [sameNext, closing.2] at leads
    cases leads
    exact (List.nodup_cons.mp represents.distinct).1 inRest
  · rw [FrameTable.next?_relink, if_pos rfl, sameNext, closing.2]
    rfl
  · rw [FrameTable.previous?_relink, if_pos rfl, samePrevious, closing.1]
    rfl

/-- A stretch whose ends lead to one slot is a ring once that slot leads back to them. -/
private theorem chain_fill {linked : FrameTable} {first index : Nat} {rest : List Nat}
    {occupant : Occupant} (within : index < linked.slots.size) (outside : index ∉ first :: rest)
    (chained : List.IsChain linked.Adjacent (first :: rest))
    (lastNext : linked.next? (rest.getLastD first) = some index)
    (firstPrevious : linked.previous? first = some index)
    (previous : occupant.previous = rest.getLastD first) (next : occupant.next = first) :
    Cycle.Chain (linked.fill index occupant).Adjacent (first :: rest ++ [index] : List Nat) := by
  have notFirst : index ≠ first := fun same => outside (same ▸ List.mem_cons_self)
  have notLast : index ≠ rest.getLastD first :=
    fun same => outside (same ▸ List.getLastD_mem_cons)
  rw [List.cons_append, Cycle.chain_coe_cons, List.append_assoc, ← List.cons_append,
    List.isChain_append]
  refine ⟨FrameTable.chain_updateSlot chained outside _, List.isChain_pair.mpr ?_, ?_⟩
  · constructor
    · rw [FrameTable.next?_fill within, if_pos rfl, next]
    · rw [FrameTable.previous?_fill within, if_neg notFirst]
      exact firstPrevious
  · intro ending isEnding beginning isBeginning
    rw [List.getLast?_cons, ← List.getLastD_eq_getLast?] at isEnding
    cases isEnding
    cases isBeginning
    constructor
    · rw [FrameTable.next?_fill within, if_neg notLast]
      exact lastNext
    · rw [FrameTable.previous?_fill within, if_pos rfl, previous]

theorem FrameTable.Represents.insert {table : FrameTable} {ring : List Nat}
    (represents : table.Represents ring) (record : FrameRecord) :
    (table.insert record).2.Represents (ring ++ [table.reserve.1]) := by
  have reserved := represents.reserve
  rw [FrameTable.insert_table]
  generalize table.reserve.1 = index at reserved ⊢
  generalize table.reserve.2 = middle at reserved ⊢
  have head := reserved.head.trans represents.head
  cases ring with
  | nil =>
      rw [FrameTable.linkLast_of_none index head]
      refine represents_fill represents reserved ?_ rfl rfl rfl rfl rfl ?_
      · intro other
        rfl
      · rw [List.nil_append, Cycle.chain_singleton]
        constructor
        · rw [FrameTable.next?_fill (by exact reserved.within), if_pos rfl]
        · rw [FrameTable.previous?_fill (by exact reserved.within), if_pos rfl]
  | cons first rest =>
      have tail : middle.previous? first = some (rest.getLastD first) := by
        unfold FrameTable.previous?
        rw [reserved.occupant]
        exact represents.previous_first.1
      have outside : index ∉ first :: rest := by
        rw [represents.occupied, reserved.empty]
        exact Bool.false_ne_true
      obtain ⟨chained, lastNext, firstPrevious⟩ := ends_relink represents reserved.occupant index
      have size := middle.relink_size (rest.getLastD first) first index index
      obtain ⟨vacant, sameHead, hand, count⟩ :=
        middle.relink_others (rest.getLastD first) first index index
      rw [FrameTable.linkLast_of_some index head tail]
      refine represents_fill represents reserved (middle.isSome_relink _ _ _ _) size vacant hand
        count (sameHead.trans head) (chain_fill ?_ outside chained lastNext firstPrevious rfl rfl)
      rw [size]
      exact reserved.within

/-! ### A frame leaves -/

theorem FrameTable.occupant?_vacate (table : FrameTable) (index other : Nat) :
    (table.vacate index).occupant? other =
      if index = other then none else table.occupant? other := by
  change (table.updateSlot index _).occupant? other = _
  rw [FrameTable.occupant?_updateSlot]
  split
  · cases table.slots[other]? <;> rfl
  · rfl

private theorem represents_vacate {table unlinked : FrameTable} {earlier later : List Nat}
    {index : Nat} (represents : table.Represents (earlier ++ index :: later))
    (present : ∀ other, (unlinked.occupant? other).isSome = (table.occupant? other).isSome)
    (size : unlinked.slots.size = table.slots.size) (vacant : unlinked.vacant = table.vacant)
    (count : unlinked.count = table.count) (head : unlinked.head = (earlier ++ later).head?)
    (hand : ∀ other, unlinked.hand = some other → other ∈ earlier ++ later)
    (chained : Cycle.Chain (unlinked.vacate index).Adjacent (earlier ++ later : List Nat)) :
    (unlinked.vacate index).Represents (earlier ++ later) := by
  have apart := List.nodup_middle.mp represents.distinct
  have occupied : (table.occupant? index).isSome := by
    rw [← represents.occupied]
    simp
  have member : ∀ other, other ∈ earlier ++ later ↔
      other ≠ index ∧ other ∈ earlier ++ index :: later := by
    intro other
    rw [List.perm_middle.mem_iff, List.mem_cons]
    constructor
    · intro present
      refine ⟨?_, .inr present⟩
      intro same
      subst same
      exact (List.nodup_cons.mp apart).1 present
    · rintro ⟨different, present⟩
      exact present.resolve_left different
  refine
    { distinct := (List.nodup_cons.mp apart).2
      occupied := ?_
      linked := chained
      head := head
      hand := hand
      count := ?_
      vacantDistinct := ?_
      vacated := ?_ }
  · intro other
    rw [member, represents.occupied, FrameTable.occupant?_vacate, ← present]
    by_cases same : index = other
    · rw [if_pos same]
      simp [same]
    · rw [if_neg same, and_iff_right (Ne.symm same)]
  · change unlinked.count - 1 = _
    rw [count, represents.count, List.length_append, List.length_append, List.length_cons]
    omega
  · change (index :: unlinked.vacant).Nodup
    rw [vacant, List.nodup_cons, represents.vacated]
    refine ⟨?_, represents.vacantDistinct⟩
    rintro ⟨_, empty⟩
    rw [empty] at occupied
    cases occupied
  · intro other
    change other ∈ index :: unlinked.vacant ↔
      other < (unlinked.updateSlot index _).slots.size ∧ _
    rw [List.mem_cons, vacant, FrameTable.updateSlot_size, size, represents.vacated,
      FrameTable.occupant?_vacate]
    by_cases same : index = other
    · subst same
      obtain ⟨occupant, found⟩ := Option.isSome_iff_exists.mp occupied
      rw [if_pos rfl]
      simp [table.lt_size_of_occupant found]
    · have samePresence := present other
      rw [if_neg same, ← Option.isNone_iff_eq_none, ← Option.isNone_iff_eq_none,
        ← Option.not_isSome, ← Option.not_isSome, present]
      exact or_iff_right (Ne.symm same)

theorem FrameTable.unlink_last {table : FrameTable} (index previous next : Nat)
    (alone : table.count = 1) :
    table.unlink index previous next = { table with head := none, hand := none } := by
  unfold FrameTable.unlink
  rw [if_pos alone]

theorem FrameTable.unlink_shared {table : FrameTable} (index previous next : Nat)
    (shared : table.count ≠ 1) :
    table.unlink index previous next =
      { table.relink previous next next previous with
        head := if table.head = some index then some next else table.head
        hand := if table.hand = some index then some previous else table.hand } := by
  unfold FrameTable.unlink
  rw [if_neg shared]
  rfl

theorem FrameTable.Represents.head_discard {table : FrameTable} {earlier later rest : List Nat}
    {index first : Nat} (represents : table.Represents (earlier ++ index :: later))
    (others : later ++ earlier = first :: rest) :
    (if table.head = some index then some first else table.head) = (earlier ++ later).head? := by
  rw [represents.head]
  cases earlier with
  | nil =>
      rw [List.append_nil] at others
      rw [others]
      exact if_pos rfl
  | cons front earlier =>
      have apart := List.nodup_middle.mp represents.distinct
      have different : front ≠ index := by
        intro same
        subst same
        exact (List.nodup_cons.mp apart).1 List.mem_cons_self
      exact if_neg fun same => different (Option.some.inj same)

theorem FrameTable.Represents.hand_discard {table : FrameTable} {earlier later : List Nat}
    {index last other : Nat} (represents : table.Represents (earlier ++ index :: later))
    (lastMember : last ∈ earlier ++ later)
    (onHand : (if table.hand = some index then some last else table.hand) = some other) :
    other ∈ earlier ++ later := by
  split at onHand
  · cases onHand
    exact lastMember
  · next elsewhere =>
    have different : other ≠ index := by
      intro same
      subst same
      exact elsewhere onHand
    have member := represents.hand other onHand
    rw [List.perm_middle.mem_iff, List.mem_cons] at member
    exact member.resolve_left different

private theorem ends_joined {table : FrameTable} {index first : Nat} {rest : List Nat}
    (chained : List.IsChain table.Adjacent (first :: rest)) (distinct : (first :: rest).Nodup)
    (outside : index ∉ first :: rest) (lastNext : table.next? (rest.getLastD first) = some index)
    (firstPrevious : table.previous? first = some index) :
    let relinked := table.relink (rest.getLastD first) first first (rest.getLastD first)
    List.IsChain relinked.Adjacent (first :: rest) ∧
      relinked.Adjacent (rest.getLastD first) first := by
  refine ⟨FrameTable.chain_relink chained distinct ?_ _ _, ?_, ?_⟩
  · intro onward leads inRest
    rw [lastNext] at leads
    cases leads
    exact outside (List.mem_cons_of_mem _ inRest)
  · rw [FrameTable.next?_relink, if_pos rfl, lastNext]
    rfl
  · rw [FrameTable.previous?_relink, if_pos rfl, firstPrevious]
    rfl

/-- A stretch whose ends lead to each other is a ring, whatever happens to a slot outside. -/
private theorem chain_closed {table : FrameTable} {index first : Nat} {rest : List Nat}
    (outside : index ∉ first :: rest) (chained : List.IsChain table.Adjacent (first :: rest))
    (closing : table.Adjacent (rest.getLastD first) first) (change : Slot → Slot) :
    Cycle.Chain (table.updateSlot index change).Adjacent (first :: rest : List Nat) := by
  rw [Cycle.chain_coe_cons, ← List.cons_append, List.isChain_append]
  refine ⟨FrameTable.chain_updateSlot chained outside _, List.isChain_singleton _, ?_⟩
  intro ending isEnding beginning isBeginning
  rw [List.getLast?_cons, ← List.getLastD_eq_getLast?] at isEnding
  cases isEnding
  cases isBeginning
  exact closing.updateSlot (ne_of_mem_of_not_mem List.getLastD_mem_cons outside).symm
    (ne_of_mem_of_not_mem List.mem_cons_self outside).symm _

theorem FrameTable.Represents.discard {table : FrameTable} {earlier later : List Nat} {index : Nat}
    {occupant : Occupant} (represents : table.Represents (earlier ++ index :: later))
    (found : table.occupant? index = some occupant) :
    (table.discard index occupant).Represents (earlier ++ later) := by
  have around := represents.around
  have nextIs := around.1.next_eq found
  have previousIs := around.2.2.previous_eq found
  have apart := List.nodup_middle.mp represents.distinct
  have turned : (later ++ earlier : List Nat) ~r (earlier ++ later) := List.isRotated_append
  unfold FrameTable.discard
  cases others : later ++ earlier with
  | nil =>
      obtain ⟨noLater, noEarlier⟩ := List.append_eq_nil_iff.mp others
      subst noLater noEarlier
      rw [FrameTable.unlink_last index _ _ represents.count]
      refine represents_vacate represents ?_ rfl rfl rfl rfl ?_ (Cycle.Chain.nil _)
      · intro other
        rfl
      · intro other impossible
        cases impossible
  | cons first rest =>
      have shared : table.count ≠ 1 := by
        have length := congrArg List.length others
        rw [List.length_append, List.length_cons] at length
        rw [represents.count, List.length_append, List.length_cons]
        omega
      have outside : index ∉ first :: rest := by
        rw [← others, List.mem_append, or_comm, ← List.mem_append]
        exact (List.nodup_cons.mp apart).1
      have distinct : (first :: rest).Nodup := by
        rw [← others]
        exact (List.nodup_append_comm.mp (List.nodup_cons.mp apart).2)
      rw [others] at around nextIs previousIs turned
      rw [List.headD_cons] at around nextIs
      rw [List.getLastD_cons] at around previousIs
      rw [nextIs, previousIs, FrameTable.unlink_shared index _ _ shared]
      obtain ⟨chained, closing⟩ :=
        ends_joined around.2.1 distinct outside around.2.2.1 around.1.2
      have lastMember := turned.mem_iff.mp (List.getLastD_mem_cons : rest.getLastD first ∈ _)
      obtain ⟨vacant, _, _, count⟩ :=
        table.relink_others (rest.getLastD first) first first (rest.getLastD first)
      refine represents_vacate represents (table.isSome_relink _ _ _ _) (table.relink_size _ _ _ _)
        vacant count (represents.head_discard others) ?_ ?_
      · intro other onHand
        exact represents.hand_discard lastMember onHand
      · rw [← Cycle.coe_eq_coe.mpr turned]
        exact chain_closed outside chained closing _

theorem FrameTable.remove_eq_some_iff {table after : FrameTable} {id : FrameId}
    {record : FrameRecord} :
    table.remove id = some (record, after) ↔
      ∃ occupant, table.resolve id = some occupant ∧ occupant.toFrameRecord = record ∧
        table.discard id.index occupant = after := by
  unfold FrameTable.remove
  cases table.resolve id with
  | none => simp
  | some occupant => simp

theorem FrameTable.remove_eq_none_iff {table : FrameTable} {id : FrameId} :
    table.remove id = none ↔ table.resolve id = none := by
  unfold FrameTable.remove
  cases table.resolve id with
  | none => simp
  | some occupant => simp

theorem FrameTable.Represents.remove {table after : FrameTable} {ring : List Nat} {id : FrameId}
    {record : FrameRecord} (represents : table.Represents ring)
    (removed : table.remove id = some (record, after)) :
    id.index ∈ ring ∧ after.Represents (ring.erase id.index) := by
  obtain ⟨occupant, resolved, _, rfl⟩ := FrameTable.remove_eq_some_iff.mp removed
  have found := (FrameTable.resolve_eq_some_iff.mp resolved).1
  have member := represents.mem_of_occupant found
  refine ⟨member, ?_⟩
  obtain ⟨earlier, later, rfl⟩ := List.append_of_mem member
  have apart := List.nodup_middle.mp represents.distinct
  have notEarlier : id.index ∉ earlier := by
    intro inEarlier
    exact (List.nodup_cons.mp apart).1 (List.mem_append_left _ inEarlier)
  rw [List.erase_append_right _ notEarlier, List.erase_cons_head]
  exact represents.discard found

end KernelPaging
