import KernelPaging.Proofs.FailedSweeps
import KernelPaging.Proofs.OpenLogs
import KernelPaging.Proofs.Schedules
import KernelPaging.Proofs.TwoThreads

/-!
What a reclaim that fails leaves behind. Two copies of memory management that differ in the log and
in the hand of the clock are put through the same deeds and asked for their reports; a failed
reclaim is one way to come to such copies.
-/

set_option autoImplicit false

namespace KernelPaging

/-- What is done to memory management: by calls, by threads that touch their pages, and by others
that use the source of pages. -/
inductive Deed (bits : Type)
  | move (move : Move)
  | touch (change : bits → bits)
  | obtain (flags : PageFlags)
  | release (page : Address)
  | census

inductive Report
  | refused
  | went (event : Event)
  | touched
  | obtained (page : Except Halt (Option Address))
  | released (outcome : Except Halt ReleaseOutcome)
  | counted (resident inFlight : Nat) (free : List Nat)

variable {bits : Type}

def Subsystem.takePage (subsystem : Subsystem bits) (flags : PageFlags) :
    Except Halt (Option Address) × Subsystem bits :=
  match subsystem.supply.obtain flags with
  | .error halt => (.error halt, subsystem)
  | .ok none => (.ok none, subsystem)
  | .ok (some (page, supply)) =>
      (.ok (some page),
        { subsystem with
          supply
          memory :=
            if flags.zero then subsystem.memory.zeroPage page else subsystem.memory })

def Subsystem.givePage (subsystem : Subsystem bits) (page : Address) :
    Except Halt ReleaseOutcome × Subsystem bits :=
  match subsystem.supply.release page with
  | .error halt => (.error halt, subsystem)
  | .ok (outcome, supply) => (.ok outcome, { subsystem with supply })

theorem Subsystem.takePage_frames (subsystem : Subsystem bits) (flags : PageFlags) :
    (subsystem.takePage flags).2.frames = subsystem.frames := by
  unfold Subsystem.takePage
  split <;> rfl

theorem Subsystem.givePage_frames (subsystem : Subsystem bits) (page : Address) :
    (subsystem.givePage page).2.frames = subsystem.frames := by
  unfold Subsystem.givePage
  split <;> rfl

def Traffic.carryOut [AccessedBits bits] (traffic : Traffic bits) :
    Deed bits → Report × Traffic bits
  | .move move =>
      match traffic.perform move with
      | none => (.refused, traffic)
      | some (event, after) => (.went event, after)
  | .touch change =>
      let subsystem :=
        { traffic.subsystem with accessed := change traffic.subsystem.accessed }
      (.touched, { traffic with subsystem })
  | .obtain flags =>
      let (page, subsystem) := traffic.subsystem.takePage flags
      (.obtained page, { traffic with subsystem })
  | .release page =>
      let (outcome, subsystem) := traffic.subsystem.givePage page
      (.released outcome, { traffic with subsystem })
  | .census =>
      (.counted traffic.subsystem.frames.count traffic.subsystem.frames.barrier.inFlight
        traffic.subsystem.supply.freeCounts, traffic)

def Traffic.carryOutAll [AccessedBits bits] (traffic : Traffic bits) :
    List (Deed bits) → List Report × Traffic bits
  | [] => ([], traffic)
  | deed :: deeds =>
      let (report, after) := traffic.carryOut deed
      let (reports, last) := after.carryOutAll deeds
      (report :: reports, last)

def Call.binds : Call → Outcome → Bool
  | .bind _ _, .goesOn _ => true
  | _, _ => false

def Report.binds : Report → Bool
  | .went (.went call outcome) => call.binds outcome
  | _ => false

variable [AccessedBits bits]

/-- A fresh frame joins the frames in the table before the hand sets out among them. -/
def Traffic.NewcomerFirst (traffic : Traffic bits) : List (Deed bits) → Prop
  | [] => False
  | deed :: deeds =>
      traffic.subsystem.frames.Unswept ∧ ((traffic.carryOut deed).1.binds ∨
        (traffic.carryOut deed).2.NewcomerFirst deeds)

instance Traffic.NewcomerFirst.decidable (traffic : Traffic bits) :
    (deeds : List (Deed bits)) → Decidable (traffic.NewcomerFirst deeds)
  | [] => inferInstanceAs (Decidable False)
  | deed :: deeds =>
      have := NewcomerFirst.decidable (traffic.carryOut deed).2 deeds
      inferInstanceAs (Decidable (_ ∧ (_ ∨ _)))

theorem Traffic.Run.carryOut {history : List (Moment bits)} {traffic : Traffic bits}
    (run : Traffic.Run history traffic) (deed : Deed bits) :
    ∃ later, Traffic.Run later (traffic.carryOut deed).2 := by
  cases deed with
  | move move =>
      cases performed : traffic.perform move with
      | none =>
          simp only [Traffic.carryOut, performed]
          exact ⟨_, run⟩
      | some next =>
          simp only [Traffic.carryOut, performed]
          exact ⟨_, run.step (Traffic.step_of_perform performed)⟩
  | touch change => exact ⟨_, run.step (.outside rfl)⟩
  | obtain flags => exact ⟨_, run.step (.outside (traffic.subsystem.takePage_frames flags))⟩
  | release page => exact ⟨_, run.step (.outside (traffic.subsystem.givePage_frames page))⟩
  | census => exact ⟨_, run⟩

/-! ### Copies that differ in log and hand -/

section

variable {loose : Prop} {left : Subsystem bits} {frames : FrameTable}

/-- Both copies refuse the piece, or both perform it with the same outcome. -/
def Call.SameOutcome (call : Call) (loose : Prop) (log : Logger) (frames : FrameTable)
    (left : Subsystem bits) (answer : Bool) : Prop :=
  (call.perform left answer = none ∧ call.perform { left with log, frames } answer = none) ∨
    ∃ outcome after framesAfter, call.perform left answer = some (outcome, after) ∧
      call.perform { left with log, frames } answer =
        some (outcome, { after with log, frames := framesAfter }) ∧
      after.frames.Trails loose framesAfter

theorem Call.bind_trails (log : Logger) (trails : left.frames.Trails loose frames)
    (answer : Bool) (request : Request) (kpage : Address)
    (settled : left.frames.isBound request.owner request.uaddr = false →
      frames.hand = left.frames.hand) :
    (Call.bind request kpage).SameOutcome loose log frames left answer := by
  have alike := trails.enroll request.owner request.uaddr kpage settled
  right
  unfold Call.perform
  simp only
  cases enrolled : left.frames.enroll request.owner request.uaddr kpage with
  | error halt =>
      rw [enrolled] at alike
      rw [alike]
      exact ⟨_, _, _, rfl, rfl, trails⟩
  | ok bound =>
      rw [enrolled] at alike
      obtain ⟨framesAfter, enrolled', later⟩ := alike
      rw [enrolled']
      exact ⟨_, _, _, rfl, rfl, later⟩

theorem Call.reclaim_trails (log : Logger) (trails : left.frames.Trails loose frames)
    (leftWell : left.frames.WellFormed) (well : frames.WellFormed) (answer : Bool)
    (request : Request) :
    (Call.reclaim request).SameOutcome loose log frames left answer := by
  unfold Call.SameOutcome Call.perform
  simp only [trails.startEviction leftWell well left.accessed]
  cases left.frames.startEviction left.accessed with
  | error halt => exact .inr ⟨_, _, _, rfl, rfl, trails⟩
  | ok result =>
      obtain ⟨outcome, after, accessed⟩ := result
      cases outcome with
      | error failure => exact .inr ⟨_, _, _, rfl, rfl, .refl loose _⟩
      | ok eviction =>
          cases victim : after.frameAt? eviction.slot with
          | none =>
              simp only [victim]
              exact .inl ⟨rfl, rfl⟩
          | some victim =>
              simp only [victim]
              exact .inr ⟨_, _, _, rfl, rfl, .refl loose _⟩

theorem Call.finish_trails (log : Logger) (trails : left.frames.Trails loose frames)
    (leftWell : left.frames.WellFormed) (well : frames.WellFormed) (answer : Bool)
    (flight : Flight) (written : Bool) :
    (Call.finish flight written).SameOutcome loose log frames left answer := by
  have alike := trails.finishEviction leftWell well flight.eviction flight.request.owner
    flight.request.uaddr written
  right
  unfold Call.perform
  simp only
  cases finished : left.frames.finishEviction flight.eviction flight.request.owner
    flight.request.uaddr written with
  | error halt =>
      rw [finished] at alike
      rw [alike]
      exact ⟨_, _, _, rfl, rfl, trails⟩
  | ok result =>
      obtain ⟨ending, after⟩ := result
      rw [finished] at alike
      obtain ⟨framesAfter, finished', later⟩ := alike
      rw [finished']
      cases ending <;> exact ⟨_, _, _, rfl, rfl, later⟩

theorem Call.free_trails (log : Logger) (trails : left.frames.Trails loose frames)
    (leftWell : left.frames.WellFormed) (well : frames.WellFormed) (answer : Bool)
    (entry : Option FrameId) :
    (Call.free entry).SameOutcome loose log frames left answer := by
  right
  cases entry with
  | none => exact ⟨_, _, _, rfl, rfl, trails⟩
  | some id =>
      have alike := trails.detach leftWell well id
      unfold Call.perform
      simp only
      rcases detached : left.frames.detach id with ⟨detachment, after⟩
      rcases detached' : frames.detach id with ⟨detachment', after'⟩
      rw [detached, detached'] at alike
      cases alike.1
      cases detachment <;> exact ⟨_, _, _, rfl, rfl, alike.2⟩

theorem Call.unpin_trails (log : Logger) (trails : left.frames.Trails loose frames)
    (leftWell : left.frames.WellFormed) (well : frames.WellFormed) (answer : Bool)
    (id : FrameId) : (Call.unpin id).SameOutcome loose log frames left answer := by
  right
  unfold Call.perform
  simp only
  cases unpinned : left.frames.unpin id with
  | error halt =>
      rw [FrameTable.unpin_refused (trails.resolve id) unpinned]
      exact ⟨_, _, _, rfl, rfl, trails⟩
  | ok after =>
      obtain ⟨framesAfter, unpinned', later⟩ := trails.unpin leftWell well unpinned
      rw [unpinned']
      exact ⟨_, _, _, rfl, rfl, later⟩

theorem Call.perform_trails (log : Logger) (trails : left.frames.Trails loose frames)
    (leftWell : left.frames.WellFormed) (well : frames.WellFormed) (answer : Bool) (call : Call)
    (settled : ∀ outcome after, call.perform left answer = some (outcome, after) →
      call.binds outcome = true → frames.hand = left.frames.hand) :
    call.SameOutcome loose log frames left answer := by
  cases call with
  | obtain request =>
      right
      unfold Call.perform
      simp only
      cases left.supply.obtain request.flags.withUser with
      | error halt => exact ⟨_, _, _, rfl, rfl, trails⟩
      | ok obtained => cases obtained <;> exact ⟨_, _, _, rfl, rfl, trails⟩
  | bind request kpage =>
      apply Call.bind_trails log trails answer request kpage
      intro unbound
      have performed : ∃ frame after, (Call.bind request kpage).perform left answer =
          some (.goesOn (.hand frame false), after) := by
        rw [Call.perform, FrameTable.enroll, unbound]
        exact ⟨_, _, rfl⟩
      obtain ⟨frame, after, performed⟩ := performed
      exact settled _ _ performed rfl
  | reclaim request => exact Call.reclaim_trails log trails leftWell well answer request
  | write flight => exact .inr ⟨_, _, _, rfl, rfl, trails⟩
  | await flight => exact .inr ⟨_, _, _, rfl, rfl, trails⟩
  | finish flight written =>
      exact Call.finish_trails log trails leftWell well answer flight written
  | hand frame zero => exact .inr ⟨_, _, _, rfl, rfl, trails⟩
  | free entry => exact Call.free_trails log trails leftWell well answer entry
  | unpin id => exact Call.unpin_trails log trails leftWell well answer id
  | look id =>
      have same : frames.frame? id = left.frames.frame? id := by
        rw [FrameTable.frame?, FrameTable.frame?, trails.resolve]
      right
      unfold Call.perform
      simp only [same]
      exact ⟨_, _, _, rfl, rfl, trails⟩
  | tearDown owner table =>
      have alike := trails.removeNamed leftWell well table
      right
      unfold Call.perform
      simp only [alike.1, trails.barrier]
      split
      · exact ⟨_, _, _, rfl, rfl, alike.2⟩
      · exact ⟨_, _, _, rfl, rfl, trails⟩
  | doze owner table seen =>
      unfold Call.SameOutcome Call.perform
      simp only [trails.barrier]
      split
      · exact .inl ⟨rfl, rfl⟩
      · exact .inr ⟨_, _, _, rfl, rfl, trails⟩
  | release pages answer =>
      right
      cases pages with
      | nil => exact ⟨_, _, _, rfl, rfl, trails⟩
      | cons page pages =>
          unfold Call.perform
          simp only
          cases left.supply.release page <;> exact ⟨_, _, _, rfl, rfl, trails⟩

theorem Traffic.perform_trails (calls : List Call) (log : Logger)
    (trails : left.frames.Trails loose frames) (leftWell : left.frames.WellFormed)
    (well : frames.WellFormed) (move : Move)
    (settled : (Traffic.carryOut ⟨left, calls⟩ (.move move)).1.binds = true →
      frames.hand = left.frames.hand) :
    (Traffic.perform ⟨left, calls⟩ move = none ∧
        Traffic.perform ⟨{ left with log, frames }, calls⟩ move = none) ∨
      ∃ event after callsAfter framesAfter,
        Traffic.perform ⟨left, calls⟩ move = some (event, ⟨after, callsAfter⟩) ∧
        Traffic.perform ⟨{ left with log, frames }, calls⟩ move =
          some (event, ⟨{ after with log, frames := framesAfter }, callsAfter⟩) ∧
        after.frames.Trails loose framesAfter := by
  cases move with
  | begin call =>
      unfold Traffic.perform
      simp only
      split
      · exact .inr ⟨_, _, _, _, rfl, rfl, trails⟩
      · exact .inl ⟨rfl, rfl⟩
  | proceed place answer =>
      cases waiting : calls.drop place with
      | nil =>
          left
          constructor <;> simp [Traffic.perform, waiting]
      | cons call later =>
          have pieces := Call.perform_trails log trails leftWell well answer call (by
            intro outcome after performed binds
            apply settled
            simp only [Traffic.carryOut, Traffic.perform, waiting, performed, Option.map_some]
            exact binds)
          rcases pieces with ⟨refused, refused'⟩ |
            ⟨outcome, after, framesAfter, performed, performed', goneOn⟩
          · left
            constructor <;> simp only [Traffic.perform, waiting, refused, refused', Option.map_none]
          · right
            simp only [Traffic.perform, waiting, performed, performed', Option.map_some]
            exact ⟨_, _, _, _, rfl, rfl, goneOn⟩

theorem Traffic.carryOut_trails (calls : List Call) (log : Logger)
    (trails : left.frames.Trails loose frames) (leftWell : left.frames.WellFormed)
    (well : frames.WellFormed) (deed : Deed bits)
    (settled : (Traffic.carryOut ⟨left, calls⟩ deed).1.binds = true →
      frames.hand = left.frames.hand) :
    ∃ report after callsAfter framesAfter,
      Traffic.carryOut ⟨left, calls⟩ deed = (report, ⟨after, callsAfter⟩) ∧
      Traffic.carryOut ⟨{ left with log, frames }, calls⟩ deed =
        (report, ⟨{ after with log, frames := framesAfter }, callsAfter⟩) ∧
      after.frames.Trails loose framesAfter := by
  cases deed with
  | move move =>
      rcases Traffic.perform_trails calls log trails leftWell well move settled with
        ⟨refused, refused'⟩ | ⟨event, after, callsAfter, framesAfter, performed, performed', later⟩
      · simp only [Traffic.carryOut, refused, refused']
        exact ⟨_, _, _, _, rfl, rfl, trails⟩
      · simp only [Traffic.carryOut, performed, performed']
        exact ⟨_, _, _, _, rfl, rfl, later⟩
  | touch change => exact ⟨_, _, _, _, rfl, rfl, trails⟩
  | obtain flags =>
      simp only [Traffic.carryOut, Subsystem.takePage]
      cases left.supply.obtain flags with
      | error halt => exact ⟨_, _, _, _, rfl, rfl, trails⟩
      | ok obtained => cases obtained <;> exact ⟨_, _, _, _, rfl, rfl, trails⟩
  | release page =>
      simp only [Traffic.carryOut, Subsystem.givePage]
      cases left.supply.release page <;> exact ⟨_, _, _, _, rfl, rfl, trails⟩
  | census =>
      simp only [Traffic.carryOut, trails.count, trails.barrier]
      exact ⟨_, _, _, _, rfl, rfl, trails⟩

theorem Traffic.Run.carryOutAll_log {history : List (Moment bits)} {calls : List Call}
    (run : Traffic.Run history ⟨left, calls⟩) (log : Logger) (deeds : List (Deed bits)) :
    (Traffic.carryOutAll ⟨{ left with log }, calls⟩ deeds).1 =
      (Traffic.carryOutAll ⟨left, calls⟩ deeds).1 := by
  induction deeds generalizing history left calls with
  | nil => rfl
  | cons deed deeds ih =>
      have well : left.frames.WellFormed := run.sound.wellFormed
      obtain ⟨report, after, callsAfter, framesAfter, one, other, later⟩ :=
        Traffic.carryOut_trails calls log (.refl False left.frames) well well deed (fun _ => rfl)
      have same : framesAfter = after.frames := by
        rcases later.apart with same | ⟨impossible, _⟩
        · exact later.eq_of_hand same
        · exact impossible.elim
      obtain ⟨_, further⟩ := run.carryOut deed
      rw [one] at further
      subst same
      simp only [Traffic.carryOutAll, one, other]
      rw [ih further]

/-- As long as no newcomer is first, a hand that has gone around makes no difference either. -/
theorem Traffic.Run.carryOutAll_trails {history history' : List (Moment bits)}
    {calls : List Call} (log : Logger) (trails : left.frames.Trails True frames)
    (run : Traffic.Run history ⟨left, calls⟩)
    (run' : Traffic.Run history' ⟨{ left with log, frames }, calls⟩) (deeds : List (Deed bits))
    (nobodyFirst : ¬ Traffic.NewcomerFirst ⟨left, calls⟩ deeds) :
    (Traffic.carryOutAll ⟨{ left with log, frames }, calls⟩ deeds).1 =
      (Traffic.carryOutAll ⟨left, calls⟩ deeds).1 := by
  induction deeds generalizing history history' left frames calls with
  | nil => rfl
  | cons deed deeds ih =>
      have leftWell : left.frames.WellFormed := run.sound.wellFormed
      have well : frames.WellFormed := run'.sound.wellFormed
      by_cases unswept : left.frames.Unswept
      · have unbound : (Traffic.carryOut ⟨left, calls⟩ deed).1.binds = true →
            frames.hand = left.frames.hand :=
          fun binds => absurd ⟨unswept, .inl binds⟩ nobodyFirst
        obtain ⟨report, after, callsAfter, framesAfter, one, other, later⟩ :=
          Traffic.carryOut_trails calls log trails leftWell well deed unbound
        have stillNobody : ¬ Traffic.NewcomerFirst ⟨after, callsAfter⟩ deeds := by
          intro first
          apply nobodyFirst
          refine ⟨unswept, .inr ?_⟩
          rw [one]
          exact first
        obtain ⟨_, further⟩ := run.carryOut deed
        obtain ⟨_, further'⟩ := run'.carryOut deed
        rw [one] at further
        rw [other] at further'
        simp only [Traffic.carryOutAll, one, other]
        rw [ih later further further' stillNobody]
      · rw [trails.eq_of_swept leftWell well unswept]
        exact run.carryOutAll_log log (deed :: deeds)

end

/-! ### A failed reclaim -/

omit [AccessedBits bits]

theorem obtainPage_none {flags : PageFlags} {state after : Subsystem bits}
    (obtained : obtainPage flags state = .ok none after) :
    state.supply.obtain flags = .ok none ∧ after = state := by
  have read : (get : Kernel bits (Subsystem bits)) state = .ok state state := rfl
  unfold obtainPage at obtained
  rw [bind_of_ok read] at obtained
  obtain ⟨taken, middle, taking, goesOn⟩ := exists_of_bind obtained
  obtain ⟨supplied, rfl⟩ := orStop_ok taking
  cases taken with
  | none =>
      cases goesOn
      exact ⟨supplied, rfl⟩
  | some page =>
      dsimp only at goesOn
      cases zero : flags.zero with
      | false =>
          rw [zero] at goesOn
          cases goesOn
      | true =>
          rw [zero] at goesOn
          cases goesOn

theorem beginAllocation_failed [AccessedBits bits] {request : Request}
    {state after : Subsystem bits} {failure : AllocError}
    (failed : beginAllocation request state = .ok (.finished (.error failure)) after) :
    state.supply.obtain request.flags.withUser = .ok none ∧
      ∃ frames accessed log,
        state.frames.startEviction state.accessed = .ok (.error failure, frames, accessed) ∧
        after = { state with log, frames, accessed } := by
  have read : ∀ here : Subsystem bits, (get : Kernel bits (Subsystem bits)) here = .ok here here :=
    fun _ => rfl
  obtain ⟨page, taken, obtained, goesOn⟩ := exists_of_bind failed
  cases page with
  | some kpage =>
      obtain ⟨frame, bound, _, returned⟩ := exists_of_bind goesOn
      cases returned
  | none =>
      obtain ⟨supplied, rfl⟩ := obtainPage_none obtained
      obtain ⟨_, noted, announced, evicts⟩ := exists_of_bind goesOn
      obtain ⟨log, _, rfl⟩ := announce_ok_iff.mp announced
      unfold beginEviction at evicts
      rw [bind_of_ok (read _)] at evicts
      obtain ⟨⟨outcome, frames, accessed⟩, selected, stopped, rest⟩ := exists_of_bind evicts
      obtain ⟨started, rfl⟩ := orStop_ok stopped
      dsimp only at rest started
      obtain ⟨_, changed, modified, last⟩ := exists_of_bind rest
      cases modified
      cases outcome with
      | error failure =>
          obtain ⟨_, _, announced, returned⟩ := exists_of_bind last
          cases returned
          obtain ⟨log, _, rfl⟩ := announce_ok_iff.mp announced
          exact ⟨supplied, frames, accessed, log, started, rfl⟩
      | ok eviction =>
          obtain ⟨_, _, _, returned⟩ := exists_of_bind last
          cases returned

theorem finishAllocation_failed {request : Request} {eviction : Eviction} {written : Bool}
    {state after : Subsystem bits} {failure : AllocError}
    (failed : finishAllocation request eviction written state = .ok (.error failure) after) :
    failure = .writebackFailed := by
  cases finished : state.frames.finishEviction eviction request.owner request.uaddr written with
  | error halt =>
      obtain ⟨here, _, read, goesOn⟩ := exists_of_bind failed
      cases read
      obtain ⟨_, _, stopped, _⟩ := exists_of_bind goesOn
      have impossible := (orStop_ok stopped).1
      rw [finished] at impossible
      cases impossible
  | ok result =>
      obtain ⟨ending, frames⟩ := result
      rw [finishAllocation_of_finished finished] at failed
      have concluded := concludeAllocation_result failed
      cases ending with
      | rebound frame => cases concluded
      | kept =>
          cases concluded
          rfl
      | vanished => cases concluded

theorem allocate_failed [AccessedBits bits] {request : Request}
    {writeback : ThreadId → Address → Kernel bits Bool} {state after : Subsystem bits}
    {failure : AllocError} (failed : allocate request writeback state = .ok (.error failure) after)
    (unselected : failure = .tableEmpty ∨ failure = .allPinned) :
    beginAllocation request state = .ok (.finished (.error failure)) after := by
  obtain ⟨allocation, middle, begun, goesOn⟩ := exists_of_bind failed
  cases allocation with
  | finished result =>
      cases goesOn
      exact begun
  | writing eviction =>
      obtain ⟨written, _, _, finished⟩ := exists_of_bind goesOn
      have cause := finishAllocation_failed finished
      rcases unselected with rfl | rfl <;> cases cause

section

variable [AccessedBits bits] {history : List (Moment bits)} {before after : Subsystem bits}
  {calls : List Call} {request : Request} {writeback : ThreadId → Address → Kernel bits Bool}
  {failure : AllocError}

theorem Traffic.Run.unselected {frames : FrameTable} {accessed : bits}
    (run : Traffic.Run history ⟨before, calls⟩)
    (supplied : before.supply.obtain request.flags.withUser = .ok none)
    (started : before.frames.startEviction before.accessed = .ok (.error failure, frames, accessed))
    (log : Logger) :
    ∃ later, Traffic.Run later ⟨{ before with log, frames, accessed }, calls⟩ := by
  have begins : Traffic.Step ⟨before, calls⟩ (.began (.obtain request))
      ⟨before, .obtain request :: calls⟩ := .begin rfl
  have reclaims : Traffic.Step ⟨before, [] ++ .obtain request :: calls⟩
      (.went (.obtain request) (.goesOn (.reclaim request)))
      ⟨before, [] ++ .reclaim request :: calls⟩ := .proceed (.exhausted supplied)
  have fails : Traffic.Step ⟨before, [] ++ .reclaim request :: calls⟩
      (.went (.reclaim request) (.ends (.allocated (.error failure))))
      ⟨{ before with frames, accessed }, [] ++ ([] ++ calls)⟩ := .proceed (.unselected started)
  have logs : Traffic.Step ⟨{ before with frames, accessed }, calls⟩ .outside
      ⟨{ before with log, frames, accessed }, calls⟩ := .outside rfl
  exact ⟨_, (((run.step begins).step reclaims).step fails).step logs⟩

/-- A failed reclaim changes nothing but the log and the hand, and the hand only if it stood before
the head of a ring with frames in it. Whatever is done afterwards gives the reports that it gives
without the failed call, unless a fresh frame joins those frames before the hand sets out. -/
theorem Traffic.Run.failed_reclaim (run : Traffic.Run history ⟨before, calls⟩)
    (failed : allocate request writeback before = .ok (.error failure) after)
    (unselected : failure = .tableEmpty ∨ failure = .allPinned) :
    (∃ log hand, after = { before with log, frames := { before.frames with hand } }) ∧
      after.frames.sweepOrder = before.frames.sweepOrder ∧
      (¬ before.frames.Unswept → after.frames = before.frames) ∧
      ∀ deeds, ¬ Traffic.NewcomerFirst ⟨before, calls⟩ deeds →
        (Traffic.carryOutAll ⟨after, calls⟩ deeds).1 =
          (Traffic.carryOutAll ⟨before, calls⟩ deeds).1 := by
  have well : before.frames.WellFormed := run.sound.wellFormed
  obtain ⟨supplied, frames, accessed, log, started, rfl⟩ :=
    beginAllocation_failed (allocate_failed failed unselected)
  obtain ⟨rfl, trails⟩ := well.startEviction_trails started
  obtain ⟨_, run'⟩ := run.unselected supplied started log
  have wellAfter : frames.WellFormed := run'.sound.wellFormed
  refine ⟨⟨log, frames.hand, ?_⟩, trails.order, ?_, ?_⟩
  · rw [← trails.handOnly]
  · exact trails.eq_of_swept well wellAfter
  · intro deeds nobodyFirst
    exact run.carryOutAll_trails log trails run' deeds nobodyFirst

end

def Traffic.crowded : List (Moment TouchedSet) × Traffic TouchedSet :=
  Traffic.play (Move.through (.obtain (.simple 1)) 3 ++ Move.through (.obtain (.simple 2)) 3)
    ([], Traffic.idle 2)

theorem Traffic.run_crowded : Traffic.Run Traffic.crowded.1 Traffic.crowded.2 :=
  (Traffic.run_idle 2).play _

def thirdRequest : Kernel TouchedSet (Except AllocError Frame) :=
  allocate (.simple 3) fun _ _ => return true

def Traffic.turnedAway : Subsystem TouchedSet :=
  match thirdRequest Traffic.crowded.2.subsystem with
  | .ok _ after => after
  | .error _ after => after

theorem Traffic.crowded_turnedAway :
    thirdRequest Traffic.crowded.2.subsystem = .ok (.error .allPinned) Traffic.turnedAway := by
  have failed : (match thirdRequest Traffic.crowded.2.subsystem with
      | .ok (.error .allPinned) _ => true
      | _ => false) = true := by
    decide +kernel
  unfold Traffic.turnedAway
  revert failed
  cases thirdRequest Traffic.crowded.2.subsystem with
  | error halt after => intro failed; cases failed
  | ok result after =>
      cases result with
      | ok frame => intro failed; cases failed
      | error failure =>
          cases failure with
          | allPinned => intro _; rfl
          | tableEmpty => intro failed; cases failed
          | writebackFailed => intro failed; cases failed

def Report.victim? : Report → Option Nat
  | .went (.went _ (.goesOn (.write flight))) => some flight.eviction.slot
  | _ => none

def Deed.reclaiming : List (Deed TouchedSet) :=
  (Move.through (.unpin ⟨0, 0⟩) 1 ++ Move.through (.obtain (.simple 4)) 2).map .move

/-- The first frame leaves and a fourth thread gets its page. After that all frames are unpinned, and
a fifth thread takes one. -/
def Deed.newcomer : List (Deed TouchedSet) :=
  (Move.through (.unpin ⟨0, 0⟩) 1 ++ Move.through (.free (some ⟨0, 0⟩)) 3 ++
    Move.through (.obtain (.simple 4)) 3 ++ Move.through (.unpin ⟨1, 0⟩) 1 ++
    Move.through (.unpin ⟨0, 1⟩) 1 ++ Move.through (.obtain (.simple 5)) 2).map .move

theorem Traffic.crowded_reclaiming :
    thirdRequest Traffic.crowded.2.subsystem = .ok (.error .allPinned) Traffic.turnedAway ∧
      ¬ Traffic.crowded.2.NewcomerFirst Deed.reclaiming ∧
      (Traffic.carryOutAll ⟨Traffic.turnedAway, Traffic.crowded.2.calls⟩ Deed.reclaiming).1 =
        (Traffic.crowded.2.carryOutAll Deed.reclaiming).1 ∧
      (Traffic.crowded.2.carryOutAll Deed.reclaiming).1.filterMap Report.victim? = [0] := by
  have nobodyFirst : ¬ Traffic.crowded.2.NewcomerFirst Deed.reclaiming := by decide +kernel
  obtain ⟨_, _, _, same⟩ := Traffic.run_crowded.failed_reclaim Traffic.crowded_turnedAway (.inr rfl)
  exact ⟨Traffic.crowded_turnedAway, nobodyFirst, same _ nobodyFirst, by decide +kernel⟩

/-- A fresh frame that comes in between shows where the hand was left: behind the old frames, or in
front of them, so that another one is taken first. -/
theorem reclaimsTraceless_fails :
    ¬ ∀ (history : List (Moment TouchedSet)) (before after : Subsystem TouchedSet)
        (calls : List Call) (request : Request)
        (writeback : ThreadId → Address → Kernel TouchedSet Bool) (failure : AllocError),
      Traffic.Run history ⟨before, calls⟩ →
      allocate request writeback before = .ok (.error failure) after →
      failure = .tableEmpty ∨ failure = .allPinned →
      ∀ deeds, (Traffic.carryOutAll ⟨after, calls⟩ deeds).1 =
        (Traffic.carryOutAll ⟨before, calls⟩ deeds).1 := by
  intro traceless
  have same := congrArg (List.filterMap Report.victim?)
    (traceless _ _ _ _ _ _ _ Traffic.run_crowded Traffic.crowded_turnedAway (.inr rfl)
      Deed.newcomer)
  have swept : (Traffic.carryOutAll ⟨Traffic.turnedAway, Traffic.crowded.2.calls⟩
      Deed.newcomer).1.filterMap Report.victim? = [0] := by
    decide +kernel
  have unswept : (Traffic.carryOutAll ⟨Traffic.crowded.2.subsystem, Traffic.crowded.2.calls⟩
      Deed.newcomer).1.filterMap Report.victim? = [1] := by
    decide +kernel
  rw [swept, unswept] at same
  cases same

end KernelPaging
