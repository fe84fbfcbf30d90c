import KernelPaging.Proofs.FailedReclaims
import KernelPaging.Proofs.HeldVictims
import KernelPaging.Proofs.OpenLogs
import KernelPaging.Proofs.Overlaps
import KernelPaging.Proofs.PageContents
import KernelPaging.Proofs.RegionsInUse

/-!
What an allocation comes to. The pool, the pins and the answer of the writeback decide which of its
outcomes it has, and whatever it did before it failed is undone but for the hand and the marks of
the frames that were passed over.
-/

set_option autoImplicit false

namespace KernelPaging

variable {bits : Type}

structure Subsystem.Supplied (before : Subsystem bits) (request : Request) (frame : Frame)
    (after : Subsystem bits) : Prop where
  bound : frame.owner = request.owner ∧ frame.uaddr = request.uaddr ∧ frame.pinned = true
  fresh : ¬ (before.supply.serving .user).Taken frame.kpage
  taken : ∀ page, (after.supply.serving .user).Taken page ↔
    page = frame.kpage ∨ (before.supply.serving .user).Taken page
  kernelPool : after.supply.kernelPool? = before.supply.kernelPool?
  residents : after.frames.residents = before.frames.residents ++ [frame]
  hand : after.frames.hand = before.frames.hand
  barrier : after.frames.barrier = before.frames.barrier
  rest : after = { before with
    log := after.log
    supply := after.supply
    frames := after.frames
    memory :=
      if request.flags.zero then before.memory.zeroPage frame.kpage else before.memory }

/-- Nothing has happened, except that the hand may have gone once around. -/
structure Subsystem.Refused (before after : Subsystem bits) : Prop where
  handOnly : after =
    { before with log := after.log, frames := { before.frames with hand := after.frames.hand } }
  order : after.frames.sweepOrder = before.frames.sweepOrder

/-- The victim was written back, and its slot holds the frame of the request. `left` is the state
that the writeback has left. -/
structure Subsystem.Replaced (before : Subsystem bits) (request : Request) (victim : Frame)
    (left after : Subsystem bits) : Prop where
  residents : after.frames.residents = before.frames.residents.map fun frame =>
    if frame.id = victim.id then victim.handedTo request.owner request.uaddr else frame
  hand : after.frames.hand = some victim.id.index
  inFlight : after.frames.barrier.inFlight = before.frames.barrier.inFlight
  rest : after = { left with
    frames := after.frames
    memory := if request.flags.zero then left.memory.zeroPage victim.kpage else left.memory }

/-- The victim could not be written back, and everything in the table is as it was, but for the
hand. -/
structure Subsystem.Restored (before : Subsystem bits) (victim : Frame)
    (left after : Subsystem bits) : Prop where
  inFlight : after.frames.barrier.inFlight = before.frames.barrier.inFlight
  rest : after = { left with
    log := after.log
    frames := { before.frames with
      hand := some victim.id.index
      barrier := after.frames.barrier } }

/-- The allocation has selected a victim: it comes to one call of the writeback for it, in the state
`called`, and to the second half of the allocation, which goes by the answer. -/
structure Subsystem.Evicts [AccessedBits bits] (before : Subsystem bits) (request : Request)
    (passed : List Frame) (victim : Frame) (called : Subsystem bits) : Prop where
  calls : ∀ writeback, allocate request writeback before =
    (writeback victim.owner victim.uaddr >>=
      finishAllocation request ⟨victim.id.index, victim.owner, victim.uaddr⟩) called
  resident : victim ∈ before.frames.residents ∧ victim.pinned = false
  picks : before.frames.Picks before.accessed passed victim called.accessed
  cleared : ∀ frame ∈ passed, Untouched frame.owner frame.uaddr called.accessed
  rest : called = { before with
    log := called.log
    accessed := called.accessed
    frames := called.frames }
  accepts : called.log.Accepts
  succeeds : ∀ left : Subsystem bits, left.frames = called.frames → ∃ after,
    finishAllocation request ⟨victim.id.index, victim.owner, victim.uaddr⟩ true left =
        .ok (.ok (victim.handedTo request.owner request.uaddr)) after ∧
      before.Replaced request victim left after
  fails : ∀ left : Subsystem bits, left.frames = called.frames → left.log.Accepts → ∃ after,
    finishAllocation request ⟨victim.id.index, victim.owner, victim.uaddr⟩ false left =
        .ok (.error .writebackFailed) after ∧
      before.Restored victim left after

section Pieces

variable {state : Subsystem bits} {flags : PageFlags} {request : Request}

theorem obtainPage_of_none (supplied : state.supply.obtain flags = .ok none) :
    obtainPage flags state = .ok none state := by
  have read : (get : Kernel bits (Subsystem bits)) state = .ok state state := rfl
  unfold obtainPage
  rw [bind_of_ok read, supplied]
  rfl

theorem obtainPage_of_some {page : Address} {supply : PageSupply}
    (supplied : state.supply.obtain flags = .ok (some (page, supply))) :
    obtainPage flags state = .ok (some page)
      { state with
        supply
        memory := if flags.zero then state.memory.zeroPage page else state.memory } := by
  have read : (get : Kernel bits (Subsystem bits)) state = .ok state state := rfl
  unfold obtainPage
  rw [bind_of_ok read, supplied]
  cases flags.zero <;> rfl

theorem bindFresh_of_unbound (state : Subsystem bits) (accepts : state.log.Accepts)
    (unbound : state.frames.isBound request.owner request.uaddr = false) (kpage : Address) :
    ∃ log, log.Accepts ∧
      let inserted := state.frames.insert
        { owner := request.owner, uaddr := request.uaddr, kpage, pinned := true }
      bindFresh request kpage state = .ok inserted.1 { state with log, frames := inserted.2 } := by
  have read : (get : Kernel bits (Subsystem bits)) state = .ok state state := rfl
  have enrolled : state.frames.enroll request.owner request.uaddr kpage =
      .ok (state.frames.insert
        { owner := request.owner, uaddr := request.uaddr, kpage, pinned := true }) := by
    unfold FrameTable.enroll
    rw [unbound]
    rfl
  generalize state.frames.insert _ = inserted at enrolled
  obtain ⟨frame, frames⟩ := inserted
  obtain ⟨log, still, announced⟩ := announce_of_accepts { state with frames } accepts
    (.frameBound frame.id request.owner request.uaddr)
  refine ⟨log, still, ?_⟩
  unfold bindFresh
  rw [bind_of_ok read, enrolled]
  change (announce _ >>= fun _ => pure frame : Kernel bits Frame) { state with frames } = _
  rw [bind_of_ok announced]
  rfl

theorem concludeAllocation_rebound (request : Request) (state : Subsystem bits)
    (eviction : Eviction) (frame : Frame) :
    concludeAllocation request eviction (.rebound frame) state = .ok (.ok frame)
      { state with
        memory := if request.flags.zero then state.memory.zeroPage frame.kpage
          else state.memory } := by
  unfold concludeAllocation
  cases request.flags.zero <;> rfl

theorem concludeAllocation_kept (request : Request) (state : Subsystem bits)
    (accepts : state.log.Accepts) (eviction : Eviction) :
    ∃ log, concludeAllocation request eviction .kept state =
      .ok (.error .writebackFailed) { state with log } := by
  obtain ⟨log, _, announced⟩ := announce_of_accepts state accepts
    (.writebackFailed eviction.owner eviction.uaddr)
  refine ⟨log, ?_⟩
  unfold concludeAllocation
  dsimp only
  rw [bind_of_ok announced]
  rfl

variable [AccessedBits bits]

def Allocation.ofSelection : Except AllocError Eviction → Allocation
  | .error failure => .finished (.error failure)
  | .ok eviction => .writing eviction

theorem beginEviction_of_started (state : Subsystem bits) (accepts : state.log.Accepts)
    {outcome : Except AllocError Eviction} {frames : FrameTable} {accessed : bits}
    (started : state.frames.startEviction state.accessed = .ok (outcome, frames, accessed)) :
    ∃ log, log.Accepts ∧ beginEviction request state =
      .ok (Allocation.ofSelection outcome) { state with log, frames, accessed } := by
  have read : (get : Kernel bits (Subsystem bits)) state = .ok state state := rfl
  have announces := announce_of_accepts { state with frames, accessed } accepts
  unfold beginEviction
  rw [bind_of_ok read, started]
  cases outcome with
  | error failure =>
      obtain ⟨log, still, announced⟩ := announces (.noVictim frames.count failure)
      refine ⟨log, still, ?_⟩
      change (announce _ >>= fun _ => pure _ : Kernel bits Allocation)
        { state with frames, accessed } = _
      rw [bind_of_ok announced]
      rfl
  | ok eviction =>
      obtain ⟨log, still, announced⟩ := announces
        (.evicting eviction.owner eviction.uaddr request.owner request.uaddr)
      refine ⟨log, still, ?_⟩
      change (announce _ >>= fun _ => pure _ : Kernel bits Allocation)
        { state with frames, accessed } = _
      rw [bind_of_ok announced]
      rfl

theorem beginAllocation_of_none (accepts : state.log.Accepts)
    (supplied : state.supply.obtain request.flags.withUser = .ok none)
    {outcome : Except AllocError Eviction} {frames : FrameTable} {accessed : bits}
    (started : state.frames.startEviction state.accessed = .ok (outcome, frames, accessed)) :
    ∃ log, log.Accepts ∧ beginAllocation request state =
      .ok (Allocation.ofSelection outcome) { state with log, frames, accessed } := by
  obtain ⟨noted, stillNoted, announced⟩ := announce_of_accepts state accepts
    (.reclaiming request.owner request.uaddr)
  obtain ⟨log, still, begun⟩ := beginEviction_of_started { state with log := noted } stillNoted
    started
  refine ⟨log, still, ?_⟩
  unfold beginAllocation
  rw [bind_of_ok (obtainPage_of_none supplied)]
  dsimp only
  rw [bind_of_ok announced]
  exact begun

theorem beginAllocation_of_some (accepts : state.log.Accepts) {kpage : Address}
    {supply : PageSupply}
    (supplied : state.supply.obtain request.flags.withUser = .ok (some (kpage, supply)))
    (unbound : state.frames.isBound request.owner request.uaddr = false) :
    ∃ log,
      let inserted := state.frames.insert
        { owner := request.owner, uaddr := request.uaddr, kpage, pinned := true }
      beginAllocation request state = .ok (.finished (.ok inserted.1))
        { state with
          log
          supply
          frames := inserted.2
          memory := if request.flags.zero then state.memory.zeroPage kpage else state.memory } := by
  have obtained := obtainPage_of_some supplied
  rw [PageFlags.withUser_zero] at obtained
  obtain ⟨log, _, bound⟩ := bindFresh_of_unbound
    { state with
      supply
      memory := if request.flags.zero then state.memory.zeroPage kpage else state.memory }
    accepts unbound kpage
  refine ⟨log, ?_⟩
  unfold beginAllocation
  rw [bind_of_ok obtained]
  dsimp only
  rw [bind_of_ok bound]
  rfl

theorem allocate_of_finished {result : Except AllocError Frame} {after : Subsystem bits}
    (begun : beginAllocation request state = .ok (.finished result) after)
    (writeback : ThreadId → Address → Kernel bits Bool) :
    allocate request writeback state = .ok result after := by
  unfold allocate
  rw [bind_of_ok begun]
  rfl

theorem allocate_of_writing {eviction : Eviction} {middle : Subsystem bits}
    (begun : beginAllocation request state = .ok (.writing eviction) middle)
    (writeback : ThreadId → Address → Kernel bits Bool) :
    allocate request writeback state =
      (writeback eviction.owner eviction.uaddr >>= finishAllocation request eviction) middle := by
  unfold allocate
  rw [bind_of_ok begun]

end Pieces

section Outcomes

variable [AccessedBits bits] {before : Subsystem bits} {request : Request}

theorem allocate_supplied (wellFormed : before.frames.WellFormed)
    (inUse : (before.supply.serving .user).InUse) (accepts : before.log.Accepts)
    (unbound : before.frames.isBound request.owner request.uaddr = false)
    (free : (before.supply.serving .user).HasFree) :
    ∃ frame after, (∀ writeback, allocate request writeback before = .ok (.ok frame) after) ∧
      before.Supplied request frame after := by
  obtain ⟨kpage, region, obtained, fresh, taken⟩ := inUse.obtain_some free
  have supplied := before.supply.obtain_withUser request.flags
  rw [obtained] at supplied
  obtain ⟨log, begun⟩ := beginAllocation_of_some accepts supplied unbound
  have represents : before.frames.Represents before.frames.ring := wellFormed
  have named := (represents.frameAt?_insert
    { owner := request.owner, uaddr := request.uaddr, kpage, pinned := true }).2.1
  refine ⟨_, _, fun writeback => allocate_of_finished begun writeback, ?_⟩
  constructor
  · rw [named]
    exact ⟨rfl, rfl, rfl⟩
  · rw [named]
    exact fresh
  · intro page
    rw [named, PageSupply.serving_setServing]
    exact taken page
  · exact before.supply.kernelPool?_setServing region
  · exact represents.residents_insert _
  · exact before.frames.insert_hand _
  · exact before.frames.insert_barrier _
  · rw [named]
    rfl

theorem allocate_refused {failure : AllocError} {frames : FrameTable} {accessed : bits}
    (wellFormed : before.frames.WellFormed) (accepts : before.log.Accepts)
    (supplied : before.supply.obtain request.flags.withUser = .ok none)
    (started : before.frames.startEviction before.accessed =
      .ok (.error failure, frames, accessed)) :
    ∃ after, (∀ writeback, allocate request writeback before = .ok (.error failure) after) ∧
      before.Refused after := by
  obtain ⟨log, _, begun⟩ := beginAllocation_of_none accepts supplied started
  obtain ⟨rfl, trails⟩ := wellFormed.startEviction_trails started
  refine ⟨_, fun writeback => allocate_of_finished begun writeback, ?_, trails.order⟩
  change ({ before with log, frames } : Subsystem bits) =
    { before with log, frames := { before.frames with hand := frames.hand } }
  rw [← trails.handOnly]

theorem allocate_evicts [AccessedBits.OnlyClears bits] {valid : bits → Prop}
    (faithful : AccessedBits.Faithful valid) (wellFormed : before.frames.WellFormed)
    (sound : valid before.accessed) (accepts : before.log.Accepts)
    (supplied : before.supply.obtain request.flags.withUser = .ok none)
    (takes : ¬ before.frames.AllPinned) :
    ∃ passed victim called, before.Evicts request passed victim called := by
  obtain ⟨passed, victim, accessed, selected, picks⟩ :=
    wellFormed.selectVictim_picks faithful takes sound
  obtain ⟨resident, unpinned⟩ := wellFormed.mem_candidates.mp picks.candidate
  have started := FrameTable.startEviction_of_selected selected resident
  obtain ⟨log, still, begun⟩ := beginAllocation_of_none accepts supplied started
  refine ⟨passed, victim,
    { before with log, accessed, frames := before.frames.holding victim.id.index }, ?_⟩
  constructor
  · exact fun writeback => allocate_of_writing begun writeback
  · exact ⟨wellFormed.mem_residents.mpr resident, unpinned⟩
  · exact picks
  · exact fun frame member => (picks.passing.marks_lost faithful sound frame member).2
  · rfl
  · exact still
  · intro left same
    obtain ⟨frames, finished, residents, hand, inFlight⟩ :=
      wellFormed.finishEviction_holding_rebound resident victim.owner request.owner victim.uaddr
        request.uaddr
    have held : left.frames = before.frames.holding victim.id.index := same
    rw [← held] at finished
    have concluded := concludeAllocation_rebound request { left with frames }
      ⟨victim.id.index, victim.owner, victim.uaddr⟩
      (victim.handedTo request.owner request.uaddr)
    rw [← finishAllocation_of_finished finished] at concluded
    exact ⟨_, concluded, residents, hand, inFlight, rfl⟩
  · intro left same leftAccepts
    obtain ⟨barrier, finished, inFlight⟩ := FrameTable.finishEviction_holding_kept resident
      unpinned victim.owner request.owner victim.uaddr request.uaddr
    have held : left.frames = before.frames.holding victim.id.index := same
    rw [← held] at finished
    obtain ⟨log, concluded⟩ := concludeAllocation_kept request
      { left with
        frames := { before.frames with hand := some victim.id.index, barrier } }
      leftAccepts ⟨victim.id.index, victim.owner, victim.uaddr⟩
    rw [← finishAllocation_of_finished finished] at concluded
    exact ⟨_, concluded, inFlight, rfl⟩

theorem allocate_starved [AccessedBits.OnlyClears bits] {valid : bits → Prop}
    (faithful : AccessedBits.Faithful valid) (wellFormed : before.frames.WellFormed)
    (sound : valid before.accessed) (accepts : before.log.Accepts)
    (supplied : before.supply.obtain request.flags.withUser = .ok none) :
    before.frames.residents = [] ∧
        (∃ after, (∀ writeback, allocate request writeback before =
          .ok (.error .tableEmpty) after) ∧ before.Refused after) ∨
      before.frames.residents ≠ [] ∧ before.frames.AllPinned ∧
        (∃ after, (∀ writeback, allocate request writeback before =
          .ok (.error .allPinned) after) ∧ before.Refused after) ∨
      before.frames.residents ≠ [] ∧ ¬ before.frames.AllPinned ∧
        ∃ passed victim called, before.Evicts request passed victim called := by
  rw [ne_eq, wellFormed.residents_eq_nil_iff]
  rcases wellFormed.selectVictim_cases before.accessed with
    ⟨empty, selected⟩ | ⟨nonempty, allPinned, selected⟩ | ⟨nonempty, takes, _⟩
  · exact .inl ⟨empty, allocate_refused wellFormed accepts supplied
      (FrameTable.startEviction_of_refused selected)⟩
  · exact .inr (.inl ⟨nonempty, allPinned, allocate_refused wellFormed accepts supplied
      (FrameTable.startEviction_of_refused selected)⟩)
  · exact .inr (.inr ⟨nonempty, takes,
      allocate_evicts faithful wellFormed sound accepts supplied takes⟩)

theorem Subsystem.Evicts.may_fail {passed : List Frame} {victim : Frame} {called : Subsystem bits}
    (evicts : before.Evicts request passed victim called) :
    ∃ after, allocate request (fun _ _ => return false) before =
      .ok (.error .writebackFailed) after := by
  obtain ⟨after, finished, _⟩ := evicts.fails called rfl evicts.accepts
  have answered : (pure false : Kernel bits Bool) called = .ok false called := rfl
  refine ⟨after, ?_⟩
  rw [evicts.calls, bind_of_ok answered]
  exact finished

/-- An allocation is served without its writeback if the pool has a free page, and only then.
Otherwise it fails if there is no frame, or if all are pinned, and only then. Otherwise the writeback
is called once, for an unpinned frame, and its answer decides. -/
theorem Traffic.Run.allocation_outcome [AccessedBits.OnlyClears bits] {valid : bits → Prop}
    (faithful : AccessedBits.Faithful valid) {history : List (Moment bits)} {calls : List Call}
    (run : Traffic.Run history ⟨before, calls⟩) (sound : valid before.accessed)
    (inUse : (before.supply.serving .user).InUse) (accepts : before.log.Accepts)
    (unbound : before.frames.isBound request.owner request.uaddr = false) :
    ((∃ frame after, (∀ writeback, allocate request writeback before = .ok (.ok frame) after) ∧
        before.Supplied request frame after) ↔ (before.supply.serving .user).HasFree) ∧
      (¬ (before.supply.serving .user).HasFree →
        ((∃ after, (∀ writeback, allocate request writeback before =
              .ok (.error .tableEmpty) after) ∧ before.Refused after) ↔
          before.frames.residents = []) ∧
        (before.frames.residents ≠ [] →
          ((∃ after, (∀ writeback, allocate request writeback before =
                .ok (.error .allPinned) after) ∧ before.Refused after) ↔
            ∀ frame ∈ before.frames.residents, frame.pinned = true) ∧
          ((∃ frame ∈ before.frames.residents, frame.pinned = false) →
            ∃ passed victim called, before.Evicts request passed victim called))) := by
  have wellFormed : before.frames.WellFormed := run.sound.wellFormed
  by_cases free : (before.supply.serving .user).HasFree
  · have served := allocate_supplied wellFormed inUse accepts unbound free
    exact ⟨iff_of_true served free, fun full => absurd free full⟩
  · have supplied := before.supply.obtain_withUser request.flags
    rw [inUse.obtain_none free] at supplied
    rw [← wellFormed.allPinned_iff]
    rcases allocate_starved faithful wellFormed sound accepts supplied with
      ⟨empty, refused⟩ | ⟨some_in, allPinned, refused⟩ | ⟨some_in, takes, evicts⟩
    · obtain ⟨after, fails, _⟩ := id refused
      have answer := fails fun _ _ => return false
      refine ⟨iff_of_false ?_ free, fun _ => ⟨iff_of_true refused empty, absurd empty⟩⟩
      rintro ⟨frame, other, served, _⟩
      cases answer.symm.trans (served _)
    · obtain ⟨after, fails, _⟩ := id refused
      have answer := fails fun _ _ => return false
      refine ⟨iff_of_false ?_ free, fun _ => ⟨iff_of_false ?_ some_in, fun _ => ?_⟩⟩
      · rintro ⟨frame, other, served, _⟩
        cases answer.symm.trans (served _)
      · rintro ⟨other, empty, _⟩
        cases answer.symm.trans (empty _)
      · refine ⟨iff_of_true refused allPinned, ?_⟩
        rintro ⟨frame, member, unpinned⟩
        rw [wellFormed.allPinned_iff.mp allPinned frame member] at unpinned
        cases unpinned
    · obtain ⟨_, _, _, selected⟩ := id evicts
      obtain ⟨after, answer⟩ := selected.may_fail
      refine ⟨iff_of_false ?_ free, fun _ => ⟨iff_of_false ?_ some_in, fun _ =>
        ⟨iff_of_false ?_ takes, fun _ => evicts⟩⟩⟩
      · rintro ⟨frame, other, served, _⟩
        cases answer.symm.trans (served _)
      · rintro ⟨other, empty, _⟩
        cases answer.symm.trans (empty _)
      · rintro ⟨other, allPinned, _⟩
        cases answer.symm.trans (allPinned _)

end Outcomes

theorem Traffic.oneUnpinned_inUse :
    (Traffic.oneUnpinned.2.subsystem.supply.serving .user).InUse := by
  have created : PageRegion.create default 1 =
      .ok { PageRegion.empty with bitmap := .allFree 1 } := rfl
  have served : PageRegion.serve { PageRegion.empty with bitmap := .allFree 1 } .obtain =
      .ok (.obtained (some 0), Traffic.oneUnpinned.2.subsystem.supply.serving .user) := by
    decide +kernel
  refine .served (.created created ?_) served
  intro index within
  cases Nat.lt_one_iff.mp within
  exact ⟨default, rfl⟩

/-- Thread 2 asks for a frame while thread 1 has the only page, and has unpinned it. -/
theorem Traffic.oneUnpinned_evicts :
    ∃ passed victim called,
      Traffic.oneUnpinned.2.subsystem.Evicts (.simple 2) passed victim called ∧
        victim.id = ⟨0, 0⟩ ∧ victim.owner = ⟨1⟩ := by
  have full : ¬ (Traffic.oneUnpinned.2.subsystem.supply.serving .user).HasFree := by
    decide +kernel
  have residents : Traffic.oneUnpinned.2.subsystem.frames.residents =
      [{ Frame.first with pinned := false }] := by
    decide +kernel
  have unheard : Traffic.oneUnpinned.2.subsystem.log.sink = none := by decide +kernel
  have unbound : Traffic.oneUnpinned.2.subsystem.frames.isBound (Request.simple 2).owner
      (Request.simple 2).uaddr = false := by
    decide +kernel
  have outcome := Traffic.run_oneUnpinned.allocation_outcome TouchedSet.faithful trivial
    Traffic.oneUnpinned_inUse (.inl unheard) unbound
  have starved := outcome.2 full
  rw [residents] at starved
  obtain ⟨passed, victim, called, evicts⟩ :=
    (starved.2 (List.cons_ne_nil _ _)).2 ⟨_, List.mem_cons_self, rfl⟩
  obtain ⟨resident, _⟩ := evicts.resident
  rw [residents, List.mem_singleton] at resident
  exact ⟨passed, victim, called, evicts, by rw [resident]; rfl, by rw [resident]; rfl⟩

end KernelPaging
