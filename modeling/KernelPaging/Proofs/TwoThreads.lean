import KernelPaging.Proofs.Turnover
import KernelPaging.Proofs.Untouched

/-!
An allocation on one thread and a teardown on another that begins while the allocation writes back.
The teardown waits for the eviction and only then reads the frame table, so that the two threads do
to the subsystem what they do one after the other.
-/

set_option autoImplicit false

namespace KernelPaging

variable {bits result other : Type}

theorem attempt_of_ok {code : Kernel bits result} {value : result} {state after : Subsystem bits}
    (returned : code state = .ok value after) : attempt code state = .ok (.ok value) after := by
  unfold attempt
  rw [returned]

theorem attempt_of_error {code : Kernel bits result} {halt : Halt} {state after : Subsystem bits}
    (stopped : code state = .error halt after) : attempt code state = .ok (.error halt) after := by
  unfold attempt
  rw [stopped]

theorem exists_of_bind {code : Kernel bits result} {next : result → Kernel bits other}
    {value : other} {state after : Subsystem bits}
    (returned : (code >>= next) state = .ok value after) :
    ∃ first middle, code state = .ok first middle ∧ next first middle = .ok value after := by
  cases ran : code state with
  | ok first middle =>
      rw [bind_of_ok ran] at returned
      exact ⟨first, middle, rfl, returned⟩
  | error halt middle =>
      rw [bind_of_error ran] at returned
      cases returned

theorem orStop_ok {outcome : Except Halt result} {value : result} {state after : Subsystem bits}
    (returned : orStop outcome state = .ok value after) : outcome = .ok value ∧ after = state := by
  cases outcome with
  | ok first =>
      cases returned
      exact ⟨rfl, rfl⟩
  | error halt =>
      obtain ⟨_, _, _, thrown⟩ := exists_of_bind returned
      cases thrown

/-- Code that begins with a section on the state has returned from the section. -/
theorem exists_of_section {part result : Type} {outcome : Subsystem bits → Except Halt part}
    {next : Subsystem bits → part → Kernel bits result} {value : result}
    {state after : Subsystem bits}
    (returned : ((get : Kernel bits (Subsystem bits)) >>= fun current =>
      orStop (outcome current) >>= next current) state = .ok value after) :
    ∃ first, outcome state = .ok first ∧ next state first state = .ok value after := by
  have read : (get : Kernel bits (Subsystem bits)) state = .ok state state := rfl
  rw [bind_of_ok read] at returned
  obtain ⟨first, middle, ran, goesOn⟩ := exists_of_bind returned
  obtain ⟨happened, same⟩ := orStop_ok ran
  subst same
  exact ⟨first, happened, goesOn⟩

/-! ### A teardown in parts -/

def giveBack (owner : ThreadId) (table : SupplementalTable) (records : List FrameRecord) :
    Kernel bits SupplementalTable := do
  let foreign := records.countP fun record => decide (record.owner ≠ owner)
  if 0 < foreign then
    announce (.foreignFrames owner foreign)
  records.forM fun record => releasePage record.kpage
  announce (.cleared owner records.length)
  return table.map fun _ => none

def clearNamed (owner : ThreadId) (table : SupplementalTable) : Kernel bits SupplementalTable := do
  let (records, frames) := (← get).frames.removeNamed table
  modify fun subsystem => { subsystem with frames }
  giveBack owner table records

theorem teardown_eq (owner : ThreadId) (table : SupplementalTable)
    (rounds : List (Kernel bits other)) :
    teardown owner table rounds = (do
      let others ← awaitIdle (fun subsystem : Subsystem bits => subsystem.frames.barrier) rounds
      let table ← clearNamed owner table
      return (others, table)) := by
  unfold teardown clearNamed giveBack
  simp only [bind_assoc]
  apply bind_congr
  intro others
  apply bind_congr
  intro current
  apply bind_congr
  intro _
  split
  · simp only [bind_assoc, pure_bind]
  · simp only [bind_assoc, pure_bind]

theorem giveBack_leaves {part : Type} {view : Subsystem bits → part}
    (unlogged : ∀ subsystem log, view { subsystem with log } = view subsystem)
    (unsupplied : ∀ subsystem supply, view { subsystem with supply } = view subsystem)
    (owner : ThreadId) (table : SupplementalTable) (records : List FrameRecord) :
    Leaves view (giveBack owner table records : Kernel bits SupplementalTable) := by
  have rest : Leaves view (do
      records.forM fun record => releasePage record.kpage
      announce (.cleared owner records.length)
      return table.map fun _ => none : Kernel bits SupplementalTable) := by
    apply (releaseAll_leaves unlogged unsupplied records).bind
    intro _
    exact (announce_leaves unlogged _).bind fun _ => Leaves.pure _
  unfold giveBack
  dsimp only
  split
  · exact (announce_leaves unlogged _).bind fun _ => rest
  · exact rest

theorem clearNamed_frames {owner : ThreadId} {table cleared : SupplementalTable}
    {state after : Subsystem bits} (ran : clearNamed owner table state = .ok cleared after) :
    after.frames = (state.frames.removeNamed table).2 := by
  change giveBack owner table (state.frames.removeNamed table).1
    { state with frames := (state.frames.removeNamed table).2 } = _ at ran
  exact Leaves.of_ok (giveBack_leaves (fun _ _ => rfl) (fun _ _ => rfl) owner table _) ran

section Waiting

variable {owner : ThreadId} {table : SupplementalTable} {state after : Subsystem bits}
  {round : Kernel bits other} {value : other}

theorem teardown_of_idle (idle : state.frames.barrier.inFlight = 0)
    (rounds : List (Kernel bits other)) :
    teardown owner table rounds state = (do
      let table ← clearNamed owner table
      return ([], table)) state := by
  have waited : awaitIdle (fun subsystem : Subsystem bits => subsystem.frames.barrier) rounds
      state = .ok [] state := by
    change (if _ then _ else _ : Kernel bits (List other)) state = _
    rw [if_pos idle]
    rfl
  rw [teardown_eq, bind_of_ok waited]

theorem teardown_past_round (busy : state.frames.barrier.inFlight ≠ 0)
    (played : round state = .ok value after) (idle : after.frames.barrier.inFlight = 0)
    (moved : after.frames.barrier.epoch ≠ state.frames.barrier.epoch) :
    teardown owner table [round] state = (do
      let table ← clearNamed owner table
      return ([value], table)) after := by
  have signalled : Signalled (fun subsystem : Subsystem bits => subsystem.frames.barrier) [round]
      state := by
    intro other reached ran
    rw [played] at ran
    cases ran
    exact ⟨fun _ _ => moved, trivial⟩
  have waited : awaitIdle (fun subsystem : Subsystem bits => subsystem.frames.barrier) [round]
      state = .ok [value] after := by
    have first : pollIdle (fun subsystem : Subsystem bits => subsystem.frames.barrier) [round]
        state = _ := pollIdle_cons busy
    have later : pollIdle (fun subsystem : Subsystem bits => subsystem.frames.barrier)
        ([] : List (Kernel bits other)) after = _ := pollIdle_of_idle [] idle
    rw [awaitIdle_eq_poll signalled, first, bind_of_ok played, bind_of_ok later]
    rfl
  rw [teardown_eq, bind_of_ok waited]

end Waiting

section Finishing

variable {table : FrameTable} {eviction : Eviction} {owner : ThreadId} {uaddr : Address}
  {written : Bool}

theorem FrameTable.finishEviction_exits :
    ∃ (middle : FrameTable) (result : EvictionEnd), middle.barrier = table.barrier ∧
      table.finishEviction eviction owner uaddr written =
        match middle.barrier.exit with
        | .error halt => .error halt
        | .ok (_, barrier) => .ok (result, { middle with barrier }) := by
  cases written with
  | false => exact ⟨table.setPinned eviction.slot false, .kept, rfl, rfl⟩
  | true =>
      unfold FrameTable.finishEviction
      cases reassigned : table.reassign eviction.slot owner uaddr with
      | none => exact ⟨table, .vanished, rfl, rfl⟩
      | some rebound =>
          obtain ⟨frame, middle⟩ := rebound
          exact ⟨middle, .rebound frame, FrameTable.reassign_barrier reassigned, rfl⟩

theorem FrameTable.finishEviction_last (eviction : Eviction) (owner : ThreadId) (uaddr : Address)
    (written : Bool) (last : table.barrier.inFlight = 1) :
    ∃ ending after, table.finishEviction eviction owner uaddr written = .ok (ending, after) ∧
      after.barrier = { inFlight := 0, epoch := table.barrier.epoch + 1 } := by
  obtain ⟨middle, result, same, finished⟩ := FrameTable.finishEviction_exits
  have exited : middle.barrier.exit =
      .ok (true, { inFlight := 0, epoch := table.barrier.epoch + 1 }) := by
    rw [same]
    unfold Barrier.exit
    rw [last]
  rw [exited] at finished
  exact ⟨result, _, finished, rfl⟩

end Finishing

def concludeAllocation (request : Request) (eviction : Eviction) :
    EvictionEnd → Kernel bits (Except AllocError Frame)
  | .rebound frame => do
      if request.flags.zero then
        zeroPage frame.kpage
      return .ok frame
  | .kept => do
      announce (.writebackFailed eviction.owner eviction.uaddr)
      return .error .writebackFailed
  | .vanished => stop (.victimVanished eviction.slot)

theorem concludeAllocation_leaves (request : Request) (eviction : Eviction)
    (ending : EvictionEnd) :
    Leaves Subsystem.frames (concludeAllocation request eviction ending :
      Kernel bits (Except AllocError Frame)) := by
  cases ending with
  | rebound frame =>
      unfold concludeAllocation
      dsimp only
      split
      · exact (zeroPage_leaves (fun _ _ => rfl) _).bind fun _ => Leaves.pure _
      · exact Leaves.pure _
  | kept => exact (announce_leaves (fun _ _ => rfl) _).bind fun _ => Leaves.pure _
  | vanished => exact stop_leaves (fun _ _ => rfl) _

theorem finishAllocation_of_finished {request : Request} {eviction : Eviction} {written : Bool}
    {state : Subsystem bits} {ending : EvictionEnd} {frames : FrameTable}
    (finished : state.frames.finishEviction eviction request.owner request.uaddr written =
      .ok (ending, frames)) :
    finishAllocation request eviction written state =
      concludeAllocation request eviction ending { state with frames } := by
  have ended : (orStop
      (state.frames.finishEviction eviction request.owner request.uaddr written) :
        Kernel bits (EvictionEnd × FrameTable)) state = .ok (ending, frames) state := by
    rw [finished]
    rfl
  change (orStop (state.frames.finishEviction eviction request.owner request.uaddr written) >>=
    _ : Kernel bits _) state = _
  rw [bind_of_ok ended]
  cases ending <;> rfl

def EvictionEnd.result? : EvictionEnd → Option (Except AllocError Frame)
  | .rebound frame => some (.ok frame)
  | .kept => some (.error .writebackFailed)
  | .vanished => none

theorem concludeAllocation_result {request : Request} {eviction : Eviction} {ending : EvictionEnd}
    {result : Except AllocError Frame} {state after : Subsystem bits}
    (returned : concludeAllocation request eviction ending state = .ok result after) :
    ending.result? = some result := by
  cases ending with
  | rebound frame =>
      unfold concludeAllocation at returned
      dsimp only at returned
      split at returned
      · obtain ⟨_, _, _, last⟩ := exists_of_bind returned
        cases last
        rfl
      · cases returned
        rfl
  | kept =>
      obtain ⟨_, _, _, last⟩ := exists_of_bind returned
      cases last
      rfl
  | vanished =>
      obtain ⟨_, _, _, last⟩ := exists_of_bind returned
      cases last

/-- The second half of an allocation with no other eviction in flight: it leaves the barrier with a
new epoch, and what it does after that leaves the frame table alone. -/
theorem attempt_finish (request : Request) (eviction : Eviction) (written : Bool)
    {state : Subsystem bits} (last : state.frames.barrier.inFlight = 1) :
    ∃ outcome after ending,
      attempt (finishAllocation request eviction written) state = .ok outcome after ∧
        state.frames.finishEviction eviction request.owner request.uaddr written =
          .ok (ending, after.frames) ∧
        after.frames.barrier = { inFlight := 0, epoch := state.frames.barrier.epoch + 1 } ∧
        ∀ result, outcome = .ok result → ending.result? = some result := by
  obtain ⟨ending, frames, finished, barrier⟩ := FrameTable.finishEviction_last eviction
    request.owner request.uaddr written last
  have concludes := finishAllocation_of_finished finished
  have leaves := concludeAllocation_leaves request eviction ending { state with frames }
  cases concluded : concludeAllocation request eviction ending { state with frames } with
  | ok result after =>
      rw [concluded] at leaves concludes
      have same : after.frames = frames := leaves
      refine ⟨.ok result, after, ending, attempt_of_ok concludes, ?_, ?_, ?_⟩
      · rw [same]
        exact finished
      · rw [same]
        exact barrier
      · intro other isOther
        cases isOther
        exact concludeAllocation_result concluded
  | error halt after =>
      rw [concluded] at leaves concludes
      have same : after.frames = frames := leaves
      refine ⟨.error halt, after, ending, attempt_of_error concludes, ?_, ?_, nofun⟩
      · rw [same]
        exact finished
      · rw [same]
        exact barrier

theorem epoch_moved {before after : Barrier}
    (left : after = { inFlight := 0, epoch := before.epoch + 1 }) :
    after.inFlight = 0 ∧ after.epoch ≠ before.epoch := by
  subst left
  refine ⟨rfl, ?_⟩
  intro unmoved
  change before.epoch + 1 = before.epoch at unmoved
  rw [← UInt64.add_zero before.epoch, UInt64.add_assoc, UInt64.add_right_inj] at unmoved
  cases unmoved

section Beginning

variable [AccessedBits bits] {request : Request} {state middle : Subsystem bits}
  {eviction : Eviction}

theorem beginEviction_writing
    (begun : beginEviction request state = .ok (.writing eviction) middle) :
    ∃ marks left : bits,
      state.frames.startEviction marks = .ok (.ok eviction, middle.frames, left) := by
  obtain ⟨⟨outcome, frames, accessed⟩, started, goesOn⟩ := exists_of_section begun
  obtain ⟨_, changed, modified, last⟩ := exists_of_bind goesOn
  cases modified
  cases outcome with
  | error failure =>
      obtain ⟨_, _, _, returned⟩ := exists_of_bind last
      cases returned
  | ok chosen =>
      obtain ⟨_, noted, announced, returned⟩ := exists_of_bind last
      cases returned
      have same : middle.frames = frames :=
        (announce_leaves (fun _ _ => rfl) _).of_ok announced
      rw [same]
      exact ⟨_, _, started⟩

theorem beginAllocation_writing
    (begun : beginAllocation request state = .ok (.writing eviction) middle) :
    ∃ marks left : bits,
      state.frames.startEviction marks = .ok (.ok eviction, middle.frames, left) := by
  obtain ⟨page, taken, obtained, goesOn⟩ := exists_of_bind begun
  have same : taken.frames = state.frames :=
    (obtainPage_leaves (fun _ _ => rfl) (fun _ _ => rfl) (fun _ _ => rfl) _).of_ok obtained
  cases page with
  | some kpage =>
      obtain ⟨frame, bound, _, returned⟩ := exists_of_bind goesOn
      cases returned
  | none =>
      obtain ⟨_, noted, announced, evicts⟩ := exists_of_bind goesOn
      have sameNoted : noted.frames = taken.frames :=
        (announce_leaves (fun _ _ => rfl) _).of_ok announced
      obtain ⟨marks, left, started⟩ := beginEviction_writing evicts
      rw [sameNoted, same] at started
      exact ⟨marks, left, started⟩

end Beginning

theorem FrameTable.startEviction_enters [AccessedBits bits] {table after : FrameTable}
    {marks left : bits} {eviction : Eviction}
    (started : table.startEviction marks = .ok (.ok eviction, after, left)) :
    after.barrier.inFlight = table.barrier.inFlight + 1 := by
  unfold FrameTable.startEviction at started
  split at started
  · cases started
  · cases started
  · next slot middle _ selected =>
    obtain ⟨hand, same, _⟩ := (FrameTable.selectVictim_spec selected).1
    split at started
    · cases started
    · cases started
      change middle.barrier.inFlight + 1 = _
      rw [same]

/-! ### The overlap -/

/-- The allocation, and the teardown after it. A stop of the allocation stops its thread, but not
the teardown. -/
def inTurn [AccessedBits bits] (request : Request) (written : Bool) (owner : ThreadId)
    (table : SupplementalTable) : Kernel bits (Except AllocError Frame × SupplementalTable) := do
  let outcome ← attempt (allocate request fun _ _ => return written)
  let (_, table) ← teardown owner table ([] : List (Kernel bits Unit))
  match outcome with
  | .error halt => throw halt
  | .ok result => return (result, table)

def Overlap.answers (overlap : Overlap) : Except AllocError Frame × SupplementalTable :=
  (overlap.result, overlap.table)

section Overlapping

variable [AccessedBits bits] {request : Request} {written : Bool} {owner : ThreadId}
  {table : SupplementalTable} {state middle : Subsystem bits} {eviction : Eviction}

theorem overlap_of_writing (begun : beginAllocation request state = .ok (.writing eviction) middle)
    (one : middle.frames.barrier.inFlight = 1) :
    overlap request written owner table state = (do
      let outcome ← attempt (finishAllocation request eviction written)
      let table ← clearNamed owner table
      match outcome with
      | .error halt => throw halt
      | .ok result =>
          return { result, eviction, inFlight := 1, waited := true, table : Overlap }) middle := by
  obtain ⟨outcome, after, _, finished, _, left, _⟩ := attempt_finish request eviction written one
  obtain ⟨idle, moved⟩ := epoch_moved left
  have busy : middle.frames.barrier.inFlight ≠ 0 := by omega
  have read : (get : Kernel bits (Subsystem bits)) middle = .ok middle middle := rfl
  have waited : teardown owner table [attempt (finishAllocation request eviction written)] middle =
      _ := teardown_past_round busy finished idle moved
  unfold overlap
  rw [bind_of_ok (attempt_of_ok begun), bind_of_ok read]
  dsimp only
  rw [bind_of_same waited, bind_of_ok finished, one]
  simp only [bind_assoc, pure_bind]
  cases outcome <;> rfl

theorem inTurn_of_writing (begun : beginAllocation request state = .ok (.writing eviction) middle)
    (one : middle.frames.barrier.inFlight = 1) :
    inTurn request written owner table state = (do
      let outcome ← attempt (finishAllocation request eviction written)
      let table ← clearNamed owner table
      match outcome with
      | .error halt => throw halt
      | .ok result => return (result, table)) middle := by
  obtain ⟨outcome, after, _, finished, _, left, _⟩ := attempt_finish request eviction written one
  have idle := (epoch_moved left).1
  have whole : attempt (allocate request fun _ _ => return written) state = .ok outcome after := by
    unfold attempt allocate at *
    rw [bind_of_ok begun]
    exact finished
  unfold inTurn
  rw [bind_of_ok whole, bind_of_ok finished, bind_of_same (teardown_of_idle idle _)]
  simp only [bind_assoc, pure_bind]

theorem overlap_of_over (outcome : Except Halt (Except AllocError Frame))
    (begins : attempt (beginAllocation request) state =
      .ok (outcome.map Allocation.finished) middle)
    (whole : attempt (allocate request fun _ _ => return written) state = .ok outcome middle) :
    (do return (← overlap request written owner table).answers) state =
      inTurn request written owner table state := by
  have read : (get : Kernel bits (Subsystem bits)) middle = .ok middle middle := rfl
  unfold overlap inTurn
  rw [bind_of_ok whole, bind_assoc, bind_of_ok begins, bind_assoc, bind_of_ok read]
  -- Nothing is left of the allocation, and both sides go on with the teardown from here.
  cases outcome with
  | error halt =>
      dsimp only [Except.map]
      rw [bind_assoc]
      rfl
  | ok result =>
      dsimp only [Except.map]
      rw [bind_assoc]
      rfl

/-- A teardown that begins while an allocation writes back, or after it, does to every part of the
subsystem what it does when it begins after the allocation is over. -/
theorem overlap_eq_inTurn (idle : state.frames.barrier.inFlight = 0) :
    (do return (← overlap request written owner table).answers) state =
      inTurn request written owner table state := by
  cases begun : beginAllocation request state with
  | error halt middle =>
      have whole : allocate request (fun _ _ => return written) state = .error halt middle :=
        bind_of_error begun
      exact overlap_of_over (.error halt) (attempt_of_error begun) (attempt_of_error whole)
  | ok begins middle =>
      cases begins with
      | finished result =>
          have whole : allocate request (fun _ _ => return written) state = .ok result middle :=
            bind_of_ok begun
          exact overlap_of_over (.ok result) (attempt_of_ok begun) (attempt_of_ok whole)
      | writing eviction =>
          obtain ⟨marks, left, started⟩ := beginAllocation_writing begun
          have one : middle.frames.barrier.inFlight = 1 := by
            rw [FrameTable.startEviction_enters started, idle]
          obtain ⟨outcome, after, _, finished, _⟩ := attempt_finish request eviction written one
          rw [inTurn_of_writing begun one, bind_of_same (overlap_of_writing begun one), bind_assoc,
            bind_of_ok finished, bind_of_ok finished, bind_assoc]
          cases outcome <;> rfl

theorem FrameTable.removeNamed_spares {frames : FrameTable} {slot : Nat} {frame : Frame}
    (resident : frames.frameAt? slot = some frame) (unnamed : some frame.id ∉ table) :
    (frames.removeNamed table).2.frameAt? slot = some frame := by
  have spec := FrameTable.removeNamed_slot table slot frames
  rw [resident] at spec
  dsimp only at spec
  rw [if_neg unnamed] at spec
  exact congrArg Prod.fst spec

theorem FrameTable.removeNamed_removes {frames : FrameTable} {slot : Nat} {frame : Frame}
    (resident : frames.frameAt? slot = some frame) (named : some frame.id ∈ table) :
    (frames.removeNamed table).2.frameAt? slot = none := by
  have spec := FrameTable.removeNamed_slot table slot frames
  rw [resident] at spec
  dsimp only at spec
  rw [if_pos named] at spec
  exact congrArg Prod.fst spec

theorem overlap_sections {overlapped : Overlap} {final : Subsystem bits}
    (idle : state.frames.barrier.inFlight = 0)
    (ran : overlap request written owner table state = .ok overlapped final)
    (evicted : overlapped.eviction = some eviction) :
    ∃ (marks left : bits) (selected finished : FrameTable) (ending : EvictionEnd),
      state.frames.startEviction marks = .ok (.ok eviction, selected, left) ∧
        selected.finishEviction eviction request.owner request.uaddr written =
          .ok (ending, finished) ∧
        ending.result? = some overlapped.result ∧
        final.frames = (finished.removeNamed table).2 := by
  have read : ∀ middle, (get : Kernel bits (Subsystem bits)) middle = .ok middle middle :=
    fun _ => rfl
  cases begun : beginAllocation request state with
  | error halt middle =>
      unfold overlap at ran
      rw [bind_of_ok (attempt_of_error begun), bind_of_ok (read middle)] at ran
      obtain ⟨_, _, _, thrown⟩ := exists_of_bind ran
      cases thrown
  | ok begins middle =>
      cases begins with
      | finished result =>
          unfold overlap at ran
          rw [bind_of_ok (attempt_of_ok begun), bind_of_ok (read middle)] at ran
          obtain ⟨_, _, _, returned⟩ := exists_of_bind ran
          cases returned
          cases evicted
      | writing chosen =>
          obtain ⟨marks, left, started⟩ := beginAllocation_writing begun
          have one : middle.frames.barrier.inFlight = 1 := by
            rw [FrameTable.startEviction_enters started, idle]
          rw [overlap_of_writing begun one] at ran
          obtain ⟨outcome, after, ending, finishes, finished, _, resultIs⟩ :=
            attempt_finish request chosen written one
          rw [bind_of_ok finishes] at ran
          obtain ⟨cleared, last, clears, returned⟩ := exists_of_bind ran
          cases outcome with
          | error halt => cases returned
          | ok result =>
              cases returned
              cases evicted
              exact ⟨marks, left, middle.frames, after.frames, ending, started, finished,
                resultIs result rfl, clearNamed_frames clears⟩

/-- Who survives an eviction and a teardown after it. The frame that the eviction brings in has a
name of its own and goes only if the table holds that one; the victim of a failed writeback goes if
the table names it. -/
def Survivors (request : Request) (written : Bool) (table : SupplementalTable)
    (before : FrameTable) (slot : Nat) (result : Except AllocError Frame) (after : FrameTable) :
    Prop :=
  ∃ victim, before.frameAt? slot = some victim ∧
    (written = true → ∃ frame, result = .ok frame ∧
      frame = { victim with
        id := ⟨victim.id.index, victim.id.generation + 1⟩
        owner := request.owner
        uaddr := request.uaddr
        pinned := true } ∧
      (some frame.id ∉ table → after.frame? frame.id = some frame)) ∧
    (written = false → result = .error .writebackFailed ∧
      (some victim.id ∈ table → after.frame? victim.id = none))

theorem overlap_survivors {overlapped : Overlap} {final : Subsystem bits}
    (wellFormed : state.frames.WellFormed) (idle : state.frames.barrier.inFlight = 0)
    (ran : overlap request written owner table state = .ok overlapped final)
    (evicted : overlapped.eviction = some eviction) :
    Survivors request written table state.frames eviction.slot overlapped.result final.frames := by
  obtain ⟨marks, left, selected, finished, ending, started, finishes, resultIs, swept⟩ :=
    overlap_sections idle ran evicted
  obtain ⟨victim, resident, unpinned, evictionIs, map, _, selectedWellFormed⟩ :=
    FrameTable.startEviction_spec wellFormed started
  have slot : eviction.slot = victim.id.index := by rw [evictionIs]
  have held : selected.frameAt? eviction.slot = some { victim with pinned := true } := by
    rw [map, Function.update_self]
  refine ⟨victim, resident, ?_, ?_⟩
  · intro success
    subst success
    cases (FrameTable.finishEviction_spec selectedWellFormed finishes).1 with
    | vanished empty _ => cases held.symm.trans empty
    | @rebound old frame after was frameIs afterwards =>
        cases held.symm.trans was
        have index : frame.id.index = eviction.slot := by rw [frameIs]
        refine ⟨frame, ?_, ?_, ?_⟩
        · exact (Option.some.inj resultIs).symm
        · rw [frameIs, slot]
        · intro unnamed
          have stays : finished.frameAt? eviction.slot = some frame := by
            rw [afterwards, Function.update_self]
          rw [swept, FrameTable.frame?_eq_some_iff, index]
          exact ⟨FrameTable.removeNamed_spares stays unnamed, rfl⟩
  · intro failure
    subst failure
    cases (FrameTable.finishEviction_spec selectedWellFormed finishes).1 with
    | kept afterwards =>
        refine ⟨(Option.some.inj resultIs).symm, ?_⟩
        intro named
        have stays : finished.frameAt? eviction.slot = some { victim with pinned := false } := by
          rw [afterwards, Function.update_self, held]
          rfl
        have gone := FrameTable.removeNamed_removes stays named
        cases found : final.frames.frame? victim.id with
        | none => rfl
        | some frame =>
            rw [swept, FrameTable.frame?_eq_some_iff, ← slot, gone] at found
            cases found.1

end Overlapping

end KernelPaging
