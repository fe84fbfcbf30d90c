import KernelPaging.Proofs.Schedules
import KernelPaging.Proofs.TwoThreads

/-!
Teardowns that overlap an eviction, piece by piece. In whatever order the pieces of an allocation
and of a teardown come, the teardown does nothing before the eviction has left the barrier, and what
the allocation does after that commutes with the teardown. The outcome is therefore that of the
allocation followed by the teardown.
-/

set_option autoImplicit false

namespace KernelPaging

variable {bits : Type} [AccessedBits bits]

/-- Calls that are under way proceed, and nothing else happens. The events are in their order. -/
inductive Traffic.Goes : Traffic bits → List Event → Traffic bits → Prop
  | nil (traffic : Traffic bits) : Goes traffic [] traffic
  | cons {before middle after : Traffic bits} {call : Call} {outcome : Outcome}
      {later : List Event} : before.Step (.went call outcome) middle → Goes middle later after →
      Goes before (.went call outcome :: later) after

def Event.answer? : Event → Option Answer
  | .went _ (.ends answer) => some answer
  | _ => none

def Event.writeback? : Event → Option Bool
  | .went (.await _) (.goesOn (.finish _ written)) => some written
  | _ => none

def answers (events : List Event) : List Answer :=
  events.filterMap Event.answer?

def writebacks (events : List Event) : List Bool :=
  events.filterMap Event.writeback?

theorem answers_cons (event : Event) (later : List Event) :
    answers (event :: later) = event.answer?.toList ++ answers later := by
  unfold answers
  rw [List.filterMap_cons]
  cases event.answer? <;> rfl

theorem writebacks_cons (event : Event) (later : List Event) :
    writebacks (event :: later) = event.writeback?.toList ++ writebacks later := by
  unfold writebacks
  rw [List.filterMap_cons]
  cases event.writeback? <;> rfl

theorem Traffic.Goes.trans {before middle after : Traffic bits} {earlier later : List Event}
    (first : before.Goes earlier middle) (second : middle.Goes later after) :
    before.Goes (earlier ++ later) after := by
  induction first with
  | nil _ => exact second
  | cons step _ ih => exact .cons step (ih second)

theorem Traffic.Goes.sound {before after : Traffic bits} {events : List Event}
    (goes : before.Goes events after) (sound : before.Sound) : after.Sound := by
  induction goes with
  | nil _ => exact sound
  | cons step _ ih => exact ih (step.effect sound).2

theorem Traffic.Step.split {subsystem : Subsystem bits} {front back : List Call} {call : Call}
    {outcome : Outcome} {after : Traffic bits}
    (step : Traffic.Step ⟨subsystem, front ++ back⟩ (.went call outcome) after) :
    (∃ reached, Traffic.Step ⟨subsystem, front⟩ (.went call outcome) ⟨after.subsystem, reached⟩ ∧
      after.calls = reached ++ back) ∨
    ∃ reached, Traffic.Step ⟨subsystem, back⟩ (.went call outcome) ⟨after.subsystem, reached⟩ ∧
      after.calls = front ++ reached := by
  generalize whole : front ++ back = calls at step
  cases step with
  | @proceed _ subsystemAfter _ _ earlier later proceeds =>
      rcases List.append_eq_append_iff.mp whole with ⟨more, rfl, rfl⟩ | ⟨more, rfl, cut⟩
      · right
        refine ⟨more ++ (outcome.calls ++ later), .proceed proceeds, ?_⟩
        exact List.append_assoc _ _ _
      · cases more with
        | nil =>
            right
            rw [List.nil_append] at cut
            subst cut
            have step : Traffic.Step ⟨subsystem, [] ++ call :: later⟩ (.went call outcome)
                ⟨subsystemAfter, [] ++ (outcome.calls ++ later)⟩ := .proceed proceeds
            refine ⟨_, step, ?_⟩
            rw [List.append_nil]
            rfl
        | cons first more =>
            left
            cases cut
            refine ⟨earlier ++ (outcome.calls ++ more), .proceed proceeds, ?_⟩
            simp only [List.append_assoc]
            rfl

theorem Traffic.Step.alone {subsystem : Subsystem bits} {only call : Call} {outcome : Outcome}
    {after : Traffic bits}
    (step : Traffic.Step ⟨subsystem, [only]⟩ (.went call outcome) after) :
    only.Proceeds subsystem outcome after.subsystem ∧ call = only ∧
      after.calls = outcome.calls := by
  generalize single : [only] = calls at step
  cases step with
  | @proceed _ subsystemAfter _ _ earlier later proceeds =>
      cases earlier with
      | nil =>
          cases single
          exact ⟨proceeds, rfl, List.append_nil _⟩
      | cons first earlier =>
          have longer := congrArg List.length single
          simp at longer

/-! ### What comes after the eviction commutes with a teardown -/

def Call.clears : Call → Bool
  | .tearDown .. | .doze .. | .release .. => true
  | _ => false

theorem Call.Proceeds.beside_memory {before after : Subsystem bits} {call : Call}
    {outcome : Outcome} (proceeds : call.Proceeds before outcome after)
    (clears : call.clears = true) :
    (∀ next ∈ outcome.calls, next.clears = true) ∧ after.memory = before.memory ∧
      ∀ memory, call.Proceeds { before with memory } outcome { after with memory } := by
  cases proceeds with
  | dozes busy => exact ⟨by simp [Outcome.calls, Call.clears], rfl, fun _ => .dozes busy⟩
  | woken moved => exact ⟨by simp [Outcome.calls, Call.clears], rfl, fun _ => .woken moved⟩
  | tornDown idle => exact ⟨by simp [Outcome.calls, Call.clears], rfl, fun _ => .tornDown idle⟩
  | released given => exact ⟨by simp [Outcome.calls, Call.clears], rfl, fun _ => .released given⟩
  | releaseStops stopped => exact ⟨by simp [Outcome.calls], rfl, fun _ => .releaseStops stopped⟩
  | releasedAll answer => exact ⟨by simp [Outcome.calls], rfl, fun _ => .releasedAll _ answer⟩
  | _ => cases clears

theorem Traffic.Step.beside_memory {subsystem : Subsystem bits} {calls : List Call} {call : Call}
    {outcome : Outcome} {after : Traffic bits}
    (step : Traffic.Step ⟨subsystem, calls⟩ (.went call outcome) after)
    (clears : ∀ call ∈ calls, call.clears = true) :
    (∀ call ∈ after.calls, call.clears = true) ∧
      after.subsystem.memory = subsystem.memory ∧ (Event.went call outcome).writeback? = none ∧
      ∀ memory, Traffic.Step ⟨{ subsystem with memory }, calls⟩ (.went call outcome)
        ⟨{ after.subsystem with memory }, after.calls⟩ := by
  cases step with
  | @proceed _ subsystemAfter _ _ earlier later proceeds =>
      have beside := proceeds.beside_memory (clears call List.mem_append_cons_self)
      refine ⟨?_, beside.2.1, ?_, fun memory => .proceed (beside.2.2 memory)⟩
      · intro other member
        rcases List.mem_append.mp member with inEarlier | inLater
        · exact clears other (List.mem_append_left _ inEarlier)
        · rcases List.mem_append.mp inLater with next | inLater
          · exact beside.1 other next
          · exact clears other (List.mem_append_right _ (List.mem_cons_of_mem _ inLater))
      · have callClears := clears call List.mem_append_cons_self
        cases call <;> first | rfl | cases callClears

theorem Traffic.Goes.no_writeback {events : List Event} : ∀ {before after : Traffic bits},
    before.Goes events after → (∀ call ∈ before.calls, call.clears = true) →
      writebacks events = [] := by
  induction events with
  | nil =>
      intro before after _ _
      rfl
  | cons event later ih =>
      intro before after goes clears
      cases goes with
      | cons step rest =>
          have beside := step.beside_memory clears
          rw [writebacks_cons, beside.2.2.1, ih rest beside.1]
          rfl

/-- Clearing a reclaimed page for its new owner might as well come first. -/
theorem Traffic.Goes.hand_first {frame : Frame} {zero : Bool} {final : Subsystem bits}
    (events : List Event) : ∀ {subsystem : Subsystem bits} {calls : List Call},
    (∀ call ∈ calls, call.clears = true) →
    Traffic.Goes ⟨subsystem, calls ++ [.hand frame zero]⟩ events ⟨final, []⟩ →
      ∃ later, Traffic.Goes
        ⟨{ subsystem with
            memory := if zero then subsystem.memory.zeroPage frame.kpage else subsystem.memory },
          calls⟩ later ⟨final, []⟩ ∧
        (answers events).Perm (.allocated (.ok frame) :: answers later) ∧
        writebacks events = [] := by
  induction events with
  | nil =>
      intro subsystem calls _ goes
      cases calls with
      | nil => cases goes
      | cons first calls => cases goes
  | cons event events ih =>
      intro subsystem calls clears goes
      cases goes with
      | @cons _ middle _ call outcome _ step rest =>
          obtain ⟨after, left⟩ := middle
          rcases step.split with ⟨reached, moved, rfl⟩ | ⟨reached, handed, rfl⟩
          · obtain ⟨stillClears, memory, noWriteback, beside⟩ := moved.beside_memory clears
            obtain ⟨later, gone, answered, none⟩ := ih stillClears rest
            dsimp only at memory
            rw [memory] at gone
            refine ⟨_, .cons (beside _) gone, ?_, ?_⟩
            · rw [answers_cons, answers_cons]
              exact (answered.append_left _).trans List.perm_middle
            · rw [writebacks_cons, noWriteback, none]
              rfl
          · obtain ⟨proceeds, rfl, reachedIs⟩ := handed.alone
            dsimp only at reachedIs
            cases proceeds
            subst reachedIs
            rw [Outcome.calls, List.append_nil] at rest
            refine ⟨events, rest, ?_, ?_⟩
            · rw [answers_cons]
              exact .refl _
            · rw [writebacks_cons, rest.no_writeback clears]
              rfl

/-! ### Before the eviction is over -/

/-- A teardown that has not yet got past the barrier. -/
def Call.Waits (call : Call) (owner : ThreadId) (table : SupplementalTable) (seen : UInt64) :
    Prop :=
  call = .tearDown owner table ∨ call = .doze owner table seen

theorem Call.Waits.clears {call : Call} {owner : ThreadId} {table : SupplementalTable}
    {seen : UInt64} (waits : call.Waits owner table seen) :
    ∀ other ∈ [call], other.clears = true := by
  intro other member
  rw [List.mem_singleton.mp member]
  rcases waits with rfl | rfl
  · rfl
  · rfl

theorem Traffic.Goes.awake {subsystem final : Subsystem bits} {events : List Event} {call : Call}
    {owner : ThreadId} {table : SupplementalTable} {seen : UInt64}
    (goes : Traffic.Goes ⟨subsystem, [call]⟩ events ⟨final, []⟩)
    (waits : call.Waits owner table seen) :
    ∃ later, Traffic.Goes ⟨subsystem, [.tearDown owner table]⟩ later ⟨final, []⟩ ∧
      answers later = answers events := by
  rcases waits with rfl | rfl
  · exact ⟨events, goes, rfl⟩
  · cases goes with
    | @cons _ middle _ call outcome later step rest =>
        obtain ⟨after, left⟩ := middle
        obtain ⟨proceeds, rfl, rfl⟩ := step.alone
        cases proceeds
        refine ⟨later, rest, ?_⟩
        rw [answers_cons]
        rfl

theorem Call.Proceeds.waits {before after : Subsystem bits} {call : Call} {outcome : Outcome}
    {owner : ThreadId} {table : SupplementalTable} (proceeds : call.Proceeds before outcome after)
    (busy : before.frames.barrier.inFlight ≠ 0)
    (waits : call.Waits owner table before.frames.barrier.epoch) :
    after = before ∧ ∃ next, outcome = .goesOn next ∧
      next.Waits owner table before.frames.barrier.epoch := by
  rcases waits with rfl | rfl
  · cases proceeds with
    | dozes _ => exact ⟨rfl, _, rfl, .inr rfl⟩
    | tornDown idle => exact absurd idle busy
  · cases proceeds with
    | woken moved => exact absurd rfl moved

/-- The events come to the same as a call that is taken to its end and a teardown after it. -/
def Traffic.Serial (subsystem : Subsystem bits) (call : Call) (owner : ThreadId)
    (table : SupplementalTable) (events : List Event) (final : Subsystem bits) : Prop :=
  ∃ first middle second, Traffic.Goes ⟨subsystem, [call]⟩ first ⟨middle, []⟩ ∧
    Traffic.Goes ⟨middle, [.tearDown owner table]⟩ second ⟨final, []⟩ ∧
    (answers events).Perm (answers first ++ answers second) ∧
    writebacks events = writebacks first

section Overlapping

variable {subsystem final : Subsystem bits} {flight : Flight} {owner : ThreadId}
  {table : SupplementalTable} {call : Call} {events : List Event}

theorem Traffic.Goes.past_finish {written : Bool} {outcome : Outcome} {after : Subsystem bits}
    (busy : 0 < subsystem.frames.barrier.inFlight)
    (proceeds : (Call.finish flight written).Proceeds subsystem outcome after)
    (waits : call.Waits owner table subsystem.frames.barrier.epoch)
    (rest : Traffic.Goes ⟨after, [call] ++ outcome.calls⟩ events ⟨final, []⟩) :
    Traffic.Serial subsystem (.finish flight written) owner table
      (.went (.finish flight written) outcome :: events) final := by
  -- A failed writeback and a lost victim end the allocation in this section.
  have ended : ∀ {answer}, outcome = .ends answer → Traffic.Serial subsystem
      (.finish flight written) owner table (.went (.finish flight written) outcome :: events)
      final := by
    intro answer isEnd
    subst isEnd
    rw [Outcome.calls, List.append_nil] at rest
    obtain ⟨later, gone, same⟩ := rest.awake waits
    have finish : Traffic.Step ⟨subsystem, [] ++ [.finish flight written]⟩
      (.went (.finish flight written) (.ends answer)) ⟨after, []⟩ := .proceed proceeds
    refine ⟨[_], after, later, .cons finish (.nil _), gone, ?_, ?_⟩
    · rw [answers_cons, answers_cons, same]
      exact .refl _
    · rw [writebacks_cons, rest.no_writeback waits.clears]
      rfl
  cases proceeds with
  | kept _ => exact ended rfl
  | vanished _ => exact ended rfl
  | finishStops stopped =>
      obtain ⟨ending, frames, finished⟩ := FrameTable.finishEviction_exists busy
      rw [finished] at stopped
      cases stopped
  | @rebound _ _ frame frames finished =>
      obtain ⟨between, gone, answered, none⟩ := rest.hand_first events waits.clears
      obtain ⟨later, gone, same⟩ := gone.awake waits
      have finish : Traffic.Step ⟨subsystem, [] ++ [.finish flight written]⟩
        (.went (.finish flight written) (.goesOn (.hand frame flight.request.flags.zero)))
        ⟨{ subsystem with frames }, [.hand frame flight.request.flags.zero]⟩ :=
          .proceed (.rebound finished)
      have hand : Traffic.Step ⟨{ subsystem with frames },
          [] ++ [.hand frame flight.request.flags.zero]⟩
        (.went (.hand frame flight.request.flags.zero) (.ends (.allocated (.ok frame)))) _ :=
          .proceed (.handed _ _ _)
      refine ⟨_, _, later, .cons finish (.cons hand (.nil _)), gone, ?_, ?_⟩
      · rw [answers_cons, answers_cons, answers_cons, same]
        exact answered
      · rw [writebacks_cons, none]
        rfl

theorem Call.Proceeds.written_back {after : Subsystem bits} {outcome : Outcome}
    (proceeds : (Call.await flight).Proceeds subsystem outcome after) :
    subsystem = after ∧ ∃ written, outcome = .goesOn (.finish flight written) := by
  cases proceeds with
  | written _ answer => exact ⟨rfl, answer, rfl⟩

def Call.Evicts (call : Call) (flight : Flight) : Prop :=
  call = .await flight ∨ ∃ written, call = .finish flight written

theorem Traffic.Goes.serial (one : subsystem.frames.barrier.inFlight = 1) (events : List Event) :
    ∀ {call ahead : Call}, call.Waits owner table subsystem.frames.barrier.epoch →
      ahead.Evicts flight → Traffic.Goes ⟨subsystem, [call] ++ [ahead]⟩ events ⟨final, []⟩ →
      Traffic.Serial subsystem ahead owner table events final := by
  have busy : subsystem.frames.barrier.inFlight ≠ 0 := by omega
  induction events with
  | nil =>
      intro call ahead _ _ goes
      cases goes
  | cons event events ih =>
      intro call ahead waits evicts goes
      cases goes with
      | @cons _ middle _ moving outcome _ step rest =>
          obtain ⟨after, left⟩ := middle
          rcases step.split with ⟨reached, moved, rfl⟩ | ⟨reached, moved, rfl⟩
          -- A piece of the teardown only goes from asking to dozing, and can be left out.
          · obtain ⟨proceeds, rfl, rfl⟩ := moved.alone
            obtain ⟨rfl, next, rfl, nextWaits⟩ := proceeds.waits busy waits
            obtain ⟨first, middle, second, gone, later, answered, written⟩ :=
              ih nextWaits evicts rest
            refine ⟨first, middle, second, gone, later, answered, ?_⟩
            rw [writebacks_cons, written]
            rcases waits with rfl | rfl <;> rfl
          · obtain ⟨proceeds, rfl, rfl⟩ := moved.alone
            rcases evicts with rfl | ⟨written, rfl⟩
            · obtain ⟨rfl, answer, rfl⟩ := proceeds.written_back
              obtain ⟨first, middle, second, gone, later, answered, same⟩ :=
                ih waits (.inr ⟨answer, rfl⟩) rest
              have returns : Traffic.Step ⟨subsystem, [] ++ [.await flight]⟩
                (.went (.await flight) (.goesOn (.finish flight answer)))
                ⟨subsystem, [.finish flight answer]⟩ := .proceed (.written _ _ _)
              refine ⟨_, middle, second, .cons returns gone, later, answered, ?_⟩
              rw [writebacks_cons, writebacks_cons, same]
            · exact Traffic.Goes.past_finish (by omega) proceeds waits rest

end Overlapping

/-- A teardown that begins while an allocation writes back comes to the same as one that begins when
the allocation is over. The code on two threads does the very same to the subsystem, and so does
every other order of the pieces; the answers are the same as well. -/
theorem overlap_serial {state : Subsystem bits} (wellFormed : state.frames.WellFormed)
    (idle : state.frames.barrier.inFlight = 0) (request : Request) (owner : ThreadId)
    (table : SupplementalTable) :
    (∀ written, (do return (← overlap request written owner table).answers) state =
      inTurn request written owner table state) ∧
    (∀ written overlapped final eviction,
      overlap request written owner table state = .ok overlapped final →
      overlapped.eviction = some eviction →
      Survivors request written table state.frames eviction.slot overlapped.result final.frames) ∧
    ∀ begun paused flight during final,
      Traffic.Goes ⟨state, [.obtain request]⟩ begun ⟨paused, [.await flight]⟩ →
      Traffic.Goes ⟨paused, [.tearDown owner table, .await flight]⟩ during ⟨final, []⟩ →
      Traffic.Serial state (.obtain request) owner table (begun ++ during) final := by
  refine ⟨fun written => overlap_eq_inTurn idle, ?_, ?_⟩
  · intro written overlapped final eviction ran evicted
    exact overlap_survivors wellFormed idle ran evicted
  · intro begun paused flight during final begins goes
    have sound : Traffic.Sound ⟨state, [.obtain request]⟩ := by
      refine ⟨wellFormed, idle, ?_⟩
      intro other impossible
      cases impossible
    have one : paused.frames.barrier.inFlight = 1 := (begins.sound sound).counted
    obtain ⟨first, middle, second, gone, later, answered, written⟩ :=
      Traffic.Goes.serial one during (.inl rfl) (.inl rfl) goes
    refine ⟨begun ++ first, middle, second, begins.trans gone, later, ?_, ?_⟩
    · unfold answers at *
      rw [List.filterMap_append, List.filterMap_append, List.append_assoc]
      exact answered.append_left _
    · unfold writebacks at *
      rw [List.filterMap_append, List.filterMap_append, written]

def Traffic.oneUnpinned : List (Moment TouchedSet) × Traffic TouchedSet :=
  Traffic.play (Move.through (.obtain (.simple 1)) 3 ++ Move.through (.unpin ⟨0, 0⟩) 1)
    ([], Traffic.idle 1)

theorem Traffic.run_oneUnpinned :
    Traffic.Run Traffic.oneUnpinned.1 Traffic.oneUnpinned.2 :=
  (Traffic.run_idle 1).play _

/-- The frame is written back for thread 2 while thread 1 is torn down, which still names it. -/
theorem overlap_survivor : ∃ overlapped final frame,
    overlap (.simple 2) true ⟨1⟩ [some ⟨0, 0⟩] Traffic.oneUnpinned.2.subsystem =
      .ok overlapped final ∧
    overlapped.result = .ok frame ∧ frame.owner = ⟨2⟩ ∧
    final.frames.frame? frame.id = some frame := by
  have wellFormed := Traffic.run_oneUnpinned.sound.wellFormed
  have idle : Traffic.oneUnpinned.2.subsystem.frames.barrier.inFlight = 0 := by decide +kernel
  have generation : Traffic.oneUnpinned.2.subsystem.frames.generationAt 0 = 0 := by decide +kernel
  have evicted : (match overlap (.simple 2) true ⟨1⟩ [some ⟨0, 0⟩]
      Traffic.oneUnpinned.2.subsystem with
      | .ok overlapped _ => overlapped.eviction
      | .error _ _ => none) = some ⟨0, ⟨1⟩, default⟩ := by decide +kernel
  have serial := overlap_serial wellFormed idle (.simple 2) ⟨1⟩ [some ⟨0, 0⟩]
  cases ran : overlap (.simple 2) true ⟨1⟩ [some ⟨0, 0⟩] Traffic.oneUnpinned.2.subsystem with
  | error halt final =>
      rw [ran] at evicted
      cases evicted
  | ok overlapped final =>
      rw [ran] at evicted
      obtain ⟨victim, resident, served, _⟩ := serial.2.1 true overlapped final _ ran evicted
      obtain ⟨frame, result, frameIs, survives⟩ := served rfl
      have old : victim.id = ⟨0, 0⟩ := by
        rw [FrameTable.id_of_frameAt resident, generation]
      have name : frame.id = ⟨0, 1⟩ := by
        rw [frameIs, old]
        rfl
      refine ⟨overlapped, final, frame, rfl, result, ?_, survives ?_⟩
      · rw [frameIs]
        rfl
      · rw [name]
        decide

end KernelPaging
