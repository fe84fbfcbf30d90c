import KernelPaging.Proofs.RingFrames

/-!
The table while a victim is held for its eviction, and what the eviction makes of it: a failed
writeback gives the table back as the selection left it, and a successful one puts the frame of the
request in the place of the victim.
-/

set_option autoImplicit false

namespace KernelPaging

/-- The table while the frame in a slot is the victim of an eviction. -/
def FrameTable.holding (table : FrameTable) (slot : Nat) : FrameTable :=
  { FrameTable.setPinned { table with hand := some slot } slot true with
    barrier := table.barrier.enter }

/-- A frame as the page of another thread finds it: the same physical page under the next name. -/
def Frame.handedTo (frame : Frame) (owner : ThreadId) (uaddr : Address) : Frame :=
  { frame with
    id := ⟨frame.id.index, frame.id.generation + 1⟩
    owner
    uaddr
    pinned := true }

theorem Barrier.exit_enter (barrier : Barrier) :
    ∃ last after, barrier.enter.exit = .ok (last, after) ∧ after.inFlight = barrier.inFlight := by
  have busy : 0 < barrier.enter.inFlight := Nat.succ_pos barrier.inFlight
  obtain ⟨last, after, left⟩ := Barrier.exit_exists busy
  exact ⟨last, after, left, (Nat.succ.inj (Barrier.exit_ok left)).symm⟩

section Pinning

variable {table : FrameTable} {slot : Nat}

theorem FrameTable.setPinned_twice (table : FrameTable) (slot : Nat) (first second : Bool) :
    (table.setPinned slot first).setPinned slot second = table.setPinned slot second := by
  have slots : ((table.setPinned slot first).setPinned slot second).slots =
      (table.setPinned slot second).slots := by
    apply Array.ext_getElem?
    intro index
    simp only [FrameTable.setPinned, FrameTable.updateOccupant, FrameTable.updateSlot,
      Array.getElem?_modify]
    by_cases same : slot = index
    · simp only [if_pos same, Option.map_map]
      congr 1
      funext held
      simp only [Function.comp_apply, Option.map_map]
      rfl
    · simp only [if_neg same]
  change { table with slots := _ } = { table with slots := _ }
  exact congrArg (fun slots => { table with slots }) slots

theorem FrameTable.setPinned_same {frame : Frame} (resident : table.frameAt? slot = some frame) :
    table.setPinned slot frame.pinned = table := by
  obtain ⟨occupant, found, rfl⟩ := FrameTable.frameAt?_eq_some_iff.mp resident
  have slots : (table.setPinned slot occupant.pinned).slots = table.slots := by
    apply Array.ext_getElem?
    intro index
    simp only [FrameTable.setPinned, FrameTable.updateOccupant, FrameTable.updateSlot,
      Array.getElem?_modify]
    by_cases same : slot = index
    · subst same
      rw [if_pos rfl, FrameTable.slot_of_occupant found]
      rfl
    · rw [if_neg same]
  change { table with slots := _ } = table
  exact congrArg (fun slots => { table with slots }) slots

end Pinning

section Eviction

variable {table : FrameTable} {slot : Nat} {victim : Frame}

theorem FrameTable.startEviction_of_selected {bits : Type} [AccessedBits bits] {marks left : bits}
    (selected : table.selectVictim marks = .ok (.ok slot, { table with hand := some slot }, left))
    (resident : table.frameAt? slot = some victim) :
    table.startEviction marks =
      .ok (.ok ⟨slot, victim.owner, victim.uaddr⟩, table.holding slot, left) := by
  obtain ⟨occupant, found, rfl⟩ := FrameTable.frameAt?_eq_some_iff.mp resident
  have here : FrameTable.occupant? { table with hand := some slot } slot = some occupant := found
  unfold FrameTable.startEviction
  rw [selected]
  dsimp only
  rw [here]
  rfl

theorem FrameTable.startEviction_of_refused {bits : Type} [AccessedBits bits] {marks left : bits}
    {failure : AllocError} {after : FrameTable}
    (selected : table.selectVictim marks = .ok (.error failure, after, left)) :
    table.startEviction marks = .ok (.error failure, after, left) := by
  unfold FrameTable.startEviction
  rw [selected]

theorem FrameTable.finishEviction_holding_kept (resident : table.frameAt? slot = some victim)
    (unpinned : victim.pinned = false) (owner other : ThreadId) (uaddr place : Address) :
    ∃ barrier, (table.holding slot).finishEviction ⟨slot, owner, uaddr⟩ other place false =
        .ok (.kept, { table with hand := some slot, barrier }) ∧
      barrier.inFlight = table.barrier.inFlight := by
  obtain ⟨last, barrier, left, count⟩ := table.barrier.exit_enter
  have here : FrameTable.frameAt? { table with hand := some slot } slot = some victim := resident
  have same := FrameTable.setPinned_same here
  rw [unpinned] at same
  have back : (table.holding slot).setPinned slot false =
      { table with hand := some slot, barrier := table.barrier.enter } := by
    have twice := FrameTable.setPinned_twice { table with hand := some slot } slot true false
    rw [same] at twice
    exact congrArg (fun table => { table with barrier := table.barrier.enter }) twice
  refine ⟨barrier, ?_, count⟩
  unfold FrameTable.finishEviction
  simp only [Bool.false_eq_true, if_false]
  rw [back]
  dsimp only
  rw [left]

theorem FrameTable.Represents.holding {ring : List Nat} (represents : table.Represents ring)
    (resident : table.frameAt? slot = some victim) : (table.holding slot).Represents ring := by
  have onRing : ∀ index, some slot = some index → index ∈ ring := by
    intro index same
    cases same
    exact represents.mem_of_frameAt resident
  exact ((represents.setHand onRing).setPinned slot true).setBarrier _

theorem FrameTable.frameAt?_holding (resident : table.frameAt? slot = some victim) :
    (table.holding slot).frameAt? =
      Function.update table.frameAt? slot (some { victim with pinned := true }) := by
  have pinned := FrameTable.frameAt?_setPinned { table with hand := some slot } slot true
  have here : FrameTable.frameAt? { table with hand := some slot } slot = some victim := resident
  rw [here] at pinned
  exact pinned

theorem FrameTable.reassign_holding (resident : table.frameAt? slot = some victim)
    (owner : ThreadId) (uaddr : Address) :
    ∃ after, (table.holding slot).reassign slot owner uaddr =
        some (victim.handedTo owner uaddr, after) ∧
      after.frameAt? =
        Function.update table.frameAt? slot (some (victim.handedTo owner uaddr)) := by
  have held := FrameTable.frameAt?_holding resident
  cases reassigned : (table.holding slot).reassign slot owner uaddr with
  | none =>
      rw [FrameTable.reassign_eq_none_iff, held, Function.update_self] at reassigned
      cases reassigned
  | some rebound =>
      obtain ⟨frame, after⟩ := rebound
      obtain ⟨⟨old, oldResident, frameIs⟩, map⟩ := FrameTable.frameAt?_reassign reassigned
      rw [held, Function.update_self] at oldResident
      cases oldResident
      have index : victim.id.index = slot := by rw [FrameTable.id_of_frameAt resident]
      have handed : frame = victim.handedTo owner uaddr := by
        rw [frameIs, Frame.handedTo, index]
      subst handed
      refine ⟨after, rfl, ?_⟩
      rw [map, held, Function.update_idem]

theorem FrameTable.WellFormed.finishEviction_holding_rebound (wellFormed : table.WellFormed)
    (resident : table.frameAt? slot = some victim) (owner other : ThreadId)
    (uaddr place : Address) :
    ∃ after, (table.holding slot).finishEviction ⟨slot, owner, uaddr⟩ other place true =
        .ok (.rebound (victim.handedTo other place), after) ∧
      after.residents = (table.residents.map fun frame =>
        if frame.id = victim.id then victim.handedTo other place else frame) ∧
      after.hand = some slot ∧ after.barrier.inFlight = table.barrier.inFlight := by
  have represents : table.Represents table.ring := wellFormed
  obtain ⟨middle, reassigned, map⟩ := FrameTable.reassign_holding resident other place
  have barrier := FrameTable.reassign_barrier reassigned
  have hand : middle.hand = some slot := FrameTable.reassign_hand reassigned
  obtain ⟨last, after, left, count⟩ := table.barrier.exit_enter
  have exits : (table.holding slot).barrier.exit = .ok (last, after) := left
  have rung := ((represents.holding resident).reassign reassigned).setBarrier after
  refine ⟨{ middle with barrier := after }, ?_, ?_, hand, count⟩
  · unfold FrameTable.finishEviction
    simp only [if_true, reassigned, barrier, exits]
  · exact represents.residents_replaced rung resident map

end Eviction

end KernelPaging
