import KernelPaging.Proofs.Issues

/-!
Kernel code among other calls. The calls of the kernel are made of the pieces that runs are made of:
whatever else is under way, executing one of them continues the run, a writeback may itself execute
any of them, and so may the other threads that play while a teardown waits. What holds over all runs
therefore holds of the kernel.
-/

set_option autoImplicit false

namespace KernelPaging

variable {bits result other : Type} [AccessedBits bits]

/-- What may be said of the state and of the calls that some code is in charge of. -/
abbrev Stage (bits : Type) := Subsystem bits → List Call → Prop

/-- A change of the state that is made of pieces of calls. -/
def Leads (before : Stage bits) (change : Subsystem bits → Subsystem bits) (after : Stage bits) :
    Prop :=
  ∀ history subsystem calls others, before subsystem calls →
    Traffic.Run history ⟨subsystem, calls ++ others⟩ →
      ∃ later reached, history <:+ later ∧ after (change subsystem) reached ∧
        Traffic.Run later ⟨change subsystem, reached ++ others⟩

/-- The run goes on to where some code has ended. Where the code has stopped, the calls it was in
charge of stay as they are. -/
def Continued (history : List (Moment bits)) (others : List Call) (after : result → Stage bits) :
    EStateM.Result Halt (Subsystem bits) result → Prop
  | .ok value subsystem =>
      ∃ later calls, history <:+ later ∧ after value subsystem calls ∧
        Traffic.Run later ⟨subsystem, calls ++ others⟩
  | .error _ subsystem =>
      ∃ later calls, history <:+ later ∧ Traffic.Run later ⟨subsystem, calls ++ others⟩

def Takes (before : Stage bits) (code : Kernel bits result) (after : result → Stage bits) : Prop :=
  ∀ history subsystem calls others, before subsystem calls →
    Traffic.Run history ⟨subsystem, calls ++ others⟩ →
      Continued history others after (code subsystem)

def At (calls : List Call) : Stage bits :=
  fun _ current => current = calls

/-- The code is a whole number of calls. -/
def Interleaves (code : Kernel bits result) : Prop :=
  Takes (At []) code fun _ => At []

theorem Traffic.Run.piece {history : List (Moment bits)} {before after : Subsystem bits}
    {call : Call} {outcome : Outcome} {others : List Call}
    (run : Traffic.Run history ⟨before, [call] ++ others⟩)
    (proceeds : call.Proceeds before outcome after) :
    ∃ later, history <:+ later ∧ Traffic.Run later ⟨after, outcome.calls ++ others⟩ := by
  have step : Traffic.Step ⟨before, [] ++ call :: others⟩ (.went call outcome)
      ⟨after, [] ++ (outcome.calls ++ others)⟩ := .proceed proceeds
  exact ⟨_, List.suffix_cons _ _, run.step step⟩

theorem Leads.of_piece {before after : Stage bits} {change : Subsystem bits → Subsystem bits}
    (piece : ∀ subsystem calls, before subsystem calls → ∃ call outcome, calls = [call] ∧
      call.Proceeds subsystem outcome (change subsystem) ∧
        after (change subsystem) outcome.calls) : Leads before change after := by
  intro history subsystem calls others started run
  obtain ⟨call, outcome, rfl, proceeds, reached⟩ := piece subsystem calls started
  obtain ⟨later, past, ran⟩ := run.piece proceeds
  exact ⟨later, outcome.calls, past, reached, ran⟩

theorem Leads.of_begin {call : Call} (entry : call.isEntry = true) :
    Leads (At [] : Stage bits) id (At [call]) := by
  rintro history subsystem calls others rfl run
  exact ⟨_, [call], List.suffix_cons _ _, rfl, run.step (.begin entry)⟩

section Code

variable {before middle : Stage bits} {after : result → Stage bits} {code : Kernel bits result}

theorem Continued.of_later {history later : List (Moment bits)} {others : List Call}
    {ended : EStateM.Result Halt (Subsystem bits) result} (past : history <:+ later)
    (continued : Continued later others after ended) : Continued history others after ended := by
  cases ended with
  | ok value subsystem =>
      obtain ⟨last, calls, since, reached, run⟩ := continued
      exact ⟨last, calls, past.trans since, reached, run⟩
  | error halt subsystem =>
      obtain ⟨last, calls, since, run⟩ := continued
      exact ⟨last, calls, past.trans since, run⟩

theorem Takes.pure {value : result}
    (reached : ∀ subsystem calls, before subsystem calls → after value subsystem calls) :
    Takes before (Pure.pure value) after := by
  intro history subsystem calls others started run
  exact ⟨history, calls, List.suffix_rfl, reached subsystem calls started, run⟩

theorem Takes.bind {next : result → Kernel bits other} {final : other → Stage bits}
    (first : Takes before code after) (rest : ∀ value, Takes (after value) (next value) final) :
    Takes before (code >>= next) final := by
  intro history subsystem calls others started run
  have continued := first history subsystem calls others started run
  change Continued history others final (EStateM.bind code next subsystem)
  unfold EStateM.bind
  cases ended : code subsystem with
  | ok value reached =>
      rw [ended] at continued
      obtain ⟨later, left, past, meets, ran⟩ := continued
      exact (rest value later reached left others meets ran).of_later past
  | error halt reached =>
      rw [ended] at continued
      exact continued

theorem Takes.advance (leads : Leads before id middle) (taken : Takes middle code after) :
    Takes before code after := by
  intro history subsystem calls others started run
  obtain ⟨later, reached, past, meets, ran⟩ := leads history subsystem calls others started run
  exact (taken later subsystem reached others meets ran).of_later past

theorem Takes.weaken (weaker : ∀ subsystem calls, before subsystem calls → middle subsystem calls)
    (taken : Takes middle code after) : Takes before code after := by
  intro history subsystem calls others started run
  exact taken history subsystem calls others (weaker subsystem calls started) run

theorem Takes.begin {call : Call} (entry : call.isEntry = true)
    (taken : Takes (At [call]) code after) : Takes (At []) code after :=
  Takes.advance (Leads.of_begin entry) taken

theorem Takes.reads :
    Takes before get fun current subsystem calls => subsystem = current ∧ before subsystem calls := by
  intro history subsystem calls others started run
  exact ⟨history, calls, List.suffix_rfl, ⟨rfl, started⟩, run⟩

theorem Takes.changes {change : Subsystem bits → Subsystem bits} (leads : Leads before change middle) :
    Takes before (modify change) fun _ => middle :=
  leads

theorem Takes.modified {change : Subsystem bits → Subsystem bits}
    {next : PUnit → Kernel bits result} (calls : List Call)
    (leads : Leads before change (At calls)) (rest : Takes (At calls) (next ⟨⟩) after) :
    Takes before (modify change >>= next) after :=
  Takes.bind (Takes.changes leads) fun _ => rest

theorem Takes.of_exists {parameter : Type} {calls : parameter → List Call}
    (taken : ∀ value, Takes (At (calls value)) code after) :
    Takes (fun _ current => ∃ value, current = calls value) code after := by
  rintro history subsystem current others ⟨value, same⟩ run
  exact taken value history subsystem current others same run

theorem Takes.throw {halt : Halt} : Takes before (throw halt : Kernel bits result) after := by
  intro history subsystem calls others _ run
  exact ⟨history, calls, List.suffix_rfl, run⟩

theorem Takes.announce (notice : Notice) (calls : List Call) :
    Takes (At calls) (announce notice : Kernel bits Unit) fun _ => At calls := by
  refine Takes.bind Takes.reads fun current => ?_
  split
  · rintro history subsystem reached others ⟨rfl, rfl⟩ run
    exact ⟨_, reached, List.suffix_cons _ _, rfl, run.step (.outside rfl)⟩
  · exact Takes.throw

theorem Takes.announce? (notice : Option Notice) (calls : List Call) :
    Takes (At calls) (announce? notice : Kernel bits Unit) fun _ => At calls := by
  cases notice with
  | none => exact Takes.pure fun _ _ same => same
  | some notice => exact Takes.announce notice calls

theorem Takes.stop {halt : Halt} : Takes before (stop halt : Kernel bits result) after := by
  intro history subsystem calls others _ run
  have stopped : Takes (At calls) (KernelPaging.stop halt : Kernel bits result) after :=
    Takes.bind (Takes.announce? _ calls) fun _ => Takes.throw
  exact stopped history subsystem calls others rfl run

theorem Takes.orStop {outcome : Except Halt result} : Takes before (orStop outcome)
    fun value subsystem calls => outcome = .ok value ∧ before subsystem calls := by
  cases outcome with
  | ok value => exact Takes.pure fun _ _ started => ⟨rfl, started⟩
  | error halt => exact Takes.stop

theorem Interleaves.framed (interleaves : Interleaves code) (calls : List Call) :
    Takes (At calls) code fun _ => At calls := by
  intro history subsystem current others same run
  cases same
  have continued := interleaves history subsystem [] (calls ++ others) rfl run
  cases ended : code subsystem with
  | ok value reached =>
      rw [ended] at continued
      obtain ⟨later, left, past, rfl, ran⟩ := continued
      exact ⟨later, calls, past, rfl, ran⟩
  | error halt reached =>
      rw [ended] at continued
      obtain ⟨later, left, past, ran⟩ := continued
      refine ⟨later, left ++ calls, past, ?_⟩
      rw [List.append_assoc]
      exact ran

theorem Interleaves.bind {next : result → Kernel bits other} (first : Interleaves code)
    (rest : ∀ value, Interleaves (next value)) : Interleaves (code >>= next) :=
  Takes.bind first rest

end Code

theorem unpin_interleaves (id : FrameId) : Interleaves (unpin id : Kernel bits Unit) := by
  refine Takes.begin (Eq.refl (Call.unpin id).isEntry) ?_
  refine Takes.bind Takes.reads fun current => ?_
  refine Takes.bind Takes.orStop fun frames => ?_
  refine Takes.changes (Leads.of_piece ?_)
  rintro subsystem calls ⟨unpinned, rfl, rfl⟩
  exact ⟨_, _, rfl, .unpinned unpinned, rfl⟩

theorem releasePage_takes (page : Address) (pages : List Address) (answer : Answer) :
    Takes (At [.release (page :: pages) answer]) (releasePage page : Kernel bits Unit)
      fun _ => At [.release pages answer] := by
  refine Takes.bind Takes.reads fun current => ?_
  refine Takes.bind Takes.orStop fun result => ?_
  obtain ⟨outcome, supply⟩ := result
  refine Takes.modified [.release pages answer] (Leads.of_piece ?_) (Takes.announce? _ _)
  rintro subsystem calls ⟨released, rfl, rfl⟩
  exact ⟨_, _, rfl, .released released, rfl⟩

theorem releaseAll_takes (answer : Answer) (records : List FrameRecord) :
    Takes (At [.release (records.map FrameRecord.kpage) answer])
      (records.forM fun record => (releasePage record.kpage : Kernel bits Unit))
      fun _ => At [.release [] answer] := by
  induction records with
  | nil => exact Takes.pure fun _ _ same => same
  | cons record records ih =>
      exact Takes.bind (releasePage_takes record.kpage (records.map FrameRecord.kpage) answer)
        fun _ => ih

theorem released_leads (answer : Answer) :
    Leads (At [.release [] answer] : Stage bits) id (At []) := by
  refine Leads.of_piece ?_
  rintro subsystem calls rfl
  exact ⟨_, _, rfl, .releasedAll _ _, rfl⟩

theorem free_interleaves (entry : Option FrameId) :
    Interleaves (free entry : Kernel bits (FreeOutcome × Option FrameId)) := by
  refine Takes.begin (Eq.refl (Call.free entry).isEntry) ?_
  cases entry with
  | none =>
      refine Takes.advance (Leads.of_piece ?_) (Takes.pure fun _ _ same => same)
      rintro subsystem calls rfl
      exact ⟨_, _, rfl, .freedNothing _, rfl⟩
  | some id =>
      refine Takes.bind Takes.reads fun current => ?_
      cases detached : current.frames.detach id with | mk detachment frames =>
      cases detachment with
      | stale =>
          refine Takes.modified [] (Leads.of_piece ?_) ?_
          · rintro subsystem calls ⟨rfl, rfl⟩
            exact ⟨_, _, rfl, .freedStale detached, rfl⟩
          · exact Takes.bind (Takes.announce _ _) fun _ => Takes.pure fun _ _ same => same
      | pinned =>
          refine Takes.modified [] (Leads.of_piece ?_) (Takes.pure fun _ _ same => same)
          rintro subsystem calls ⟨rfl, rfl⟩
          exact ⟨_, _, rfl, .freedPinned detached, rfl⟩
      | removed record =>
          refine Takes.modified [.release [record.kpage] (.freed .released none)]
            (Leads.of_piece ?_) ?_
          · rintro subsystem calls ⟨rfl, rfl⟩
            exact ⟨_, _, rfl, .freed detached, rfl⟩
          · refine Takes.bind (releasePage_takes record.kpage [] _) fun _ => ?_
            exact Takes.advance (released_leads _) (Takes.pure fun _ _ same => same)

/-! ### Allocation -/

theorem obtainPage_takes (request : Request) :
    Takes (At [.obtain request]) (obtainPage request.flags.withUser : Kernel bits (Option Address))
      fun page => match page with
        | none => At [.reclaim request]
        | some kpage => At [.bind request kpage] := by
  refine Takes.bind Takes.reads fun current => ?_
  refine Takes.bind Takes.orStop fun obtained => ?_
  cases obtained with
  | none =>
      refine Takes.advance (Leads.of_piece ?_) (Takes.pure fun _ _ same => same)
      rintro subsystem calls ⟨obtained, rfl, rfl⟩
      exact ⟨_, _, rfl, .exhausted obtained, rfl⟩
  | some taken =>
      obtain ⟨kpage, supply⟩ := taken
      have obtains : Leads (fun subsystem calls =>
            current.supply.obtain request.flags.withUser = .ok (some (kpage, supply)) ∧
              subsystem = current ∧ At [.obtain request] subsystem calls)
          (fun subsystem => { subsystem with
            supply
            memory := if request.flags.withUser.zero then subsystem.memory.zeroPage kpage
              else subsystem.memory }) (At [.bind request kpage]) := by
        refine Leads.of_piece ?_
        rintro subsystem calls ⟨obtained, rfl, rfl⟩
        exact ⟨_, _, rfl, .obtained obtained, rfl⟩
      dsimp only
      cases zero : request.flags.withUser.zero with
      | false =>
          rw [zero] at obtains
          exact Takes.modified _ obtains (Takes.pure fun _ _ same => same)
      | true =>
          -- The page is taken and cleared at one go.
          rw [zero] at obtains
          change Takes _ (modify (fun subsystem : Subsystem bits => { subsystem with
            supply, memory := subsystem.memory.zeroPage kpage }) >>= fun _ => pure (some kpage)) _
          exact Takes.modified _ obtains (Takes.pure fun _ _ same => same)

theorem bindFresh_takes (request : Request) (kpage : Address) :
    Takes (At [.bind request kpage]) (bindFresh request kpage : Kernel bits Frame)
      fun frame => At [.hand frame false] := by
  refine Takes.bind Takes.reads fun current => ?_
  refine Takes.bind Takes.orStop fun bound => ?_
  obtain ⟨frame, frames⟩ := bound
  refine Takes.modified [.hand frame false] (Leads.of_piece ?_) ?_
  · rintro subsystem calls ⟨enrolled, rfl, rfl⟩
    exact ⟨_, _, rfl, .bound enrolled, rfl⟩
  · exact Takes.bind (Takes.announce _ _) fun _ => Takes.pure fun _ _ same => same

def Begun (request : Request) : Allocation → Stage bits
  | .finished _ => At []
  | .writing eviction => fun _ calls =>
      ∃ victim, calls = [.write { request, eviction, victim }]

theorem select_leads {request : Request} {current : Subsystem bits} {eviction : Eviction}
    {frames : FrameTable} {accessed : bits} :
    Leads (fun subsystem calls =>
        current.frames.startEviction current.accessed = .ok (.ok eviction, frames, accessed) ∧
          subsystem = current ∧ At [.reclaim request] subsystem calls)
      (fun subsystem => { subsystem with frames, accessed })
      (Begun request (.writing eviction)) := by
  rintro history subsystem calls others ⟨started, rfl, rfl⟩ run
  obtain ⟨frame, _, _, _, map, _⟩ := FrameTable.startEviction_spec run.sound.wellFormed started
  have held : frames.frameAt? eviction.slot = some { frame with pinned := true } := by
    rw [map, Function.update_self]
  obtain ⟨later, past, ran⟩ := run.piece (.selected started held)
  exact ⟨later, _, past, ⟨_, rfl⟩, ran⟩

theorem beginEviction_takes (request : Request) :
    Takes (At [.reclaim request]) (beginEviction request : Kernel bits Allocation)
      (Begun request) := by
  refine Takes.bind Takes.reads fun current => ?_
  refine Takes.bind Takes.orStop fun started => ?_
  obtain ⟨outcome, frames, accessed⟩ := started
  cases outcome with
  | error failure =>
      refine Takes.modified [] (Leads.of_piece ?_) ?_
      · rintro subsystem calls ⟨started, rfl, rfl⟩
        exact ⟨_, _, rfl, .unselected started, rfl⟩
      · exact Takes.bind (Takes.announce _ _) fun _ => Takes.pure fun _ _ same => same
  | ok eviction =>
      refine Takes.bind (Takes.changes select_leads) fun _ => ?_
      refine Takes.of_exists fun victim => ?_
      refine Takes.bind (Takes.announce _ _) fun _ => Takes.pure ?_
      intro subsystem calls same
      exact ⟨victim, same⟩

theorem beginAllocation_takes (request : Request) :
    Takes (At [.obtain request]) (beginAllocation request : Kernel bits Allocation)
      (Begun request) := by
  refine Takes.bind (obtainPage_takes request) fun page => ?_
  cases page with
  | none => exact Takes.bind (Takes.announce _ _) fun _ => beginEviction_takes request
  | some kpage =>
      refine Takes.bind (bindFresh_takes request kpage) fun frame => ?_
      refine Takes.advance (Leads.of_piece ?_) (Takes.pure fun _ _ same => same)
      rintro subsystem calls rfl
      exact ⟨_, _, rfl, .handed _ frame false, rfl⟩

theorem finishAllocation_takes (flight : Flight) (written : Bool) :
    Takes (At [.finish flight written])
      (finishAllocation flight.request flight.eviction written :
        Kernel bits (Except AllocError Frame)) fun _ => At [] := by
  refine Takes.bind Takes.reads fun current => ?_
  refine Takes.bind Takes.orStop fun finished => ?_
  obtain ⟨ending, frames⟩ := finished
  cases ending with
  | rebound frame =>
      refine Takes.modified [.hand frame flight.request.flags.zero] (Leads.of_piece ?_) ?_
      · rintro subsystem calls ⟨finished, rfl, rfl⟩
        exact ⟨_, _, rfl, .rebound finished, rfl⟩
      · dsimp only
        cases flight.request.flags.zero with
        | false =>
            refine Takes.advance (Leads.of_piece ?_) (Takes.pure fun _ _ same => same)
            rintro subsystem calls rfl
            exact ⟨_, _, rfl, .handed _ frame false, rfl⟩
        | true =>
            refine Takes.modified [] (Leads.of_piece ?_) (Takes.pure fun _ _ same => same)
            rintro subsystem calls rfl
            exact ⟨_, _, rfl, .handed _ frame true, rfl⟩
  | kept =>
      refine Takes.modified [] (Leads.of_piece ?_) ?_
      · rintro subsystem calls ⟨finished, rfl, rfl⟩
        exact ⟨_, _, rfl, .kept finished, rfl⟩
      · exact Takes.bind (Takes.announce _ _) fun _ => Takes.pure fun _ _ same => same
  | vanished =>
      refine Takes.modified [] (Leads.of_piece ?_) Takes.stop
      rintro subsystem calls ⟨finished, rfl, rfl⟩
      exact ⟨_, _, rfl, .vanished finished, rfl⟩

/-- The writeback may itself be any code that is a whole number of calls. -/
theorem allocate_interleaves (request : Request) (writeback : ThreadId → Address → Kernel bits Bool)
    (nested : ∀ owner uaddr, Interleaves (writeback owner uaddr)) :
    Interleaves (allocate request writeback) := by
  refine Takes.begin (Eq.refl (Call.obtain request).isEntry) ?_
  refine Takes.bind (beginAllocation_takes request) fun begun => ?_
  cases begun with
  | finished outcome => exact Takes.pure fun _ _ same => same
  | writing eviction =>
      refine Takes.of_exists fun victim => ?_
      have writes : Leads (At [.write { request, eviction, victim }] : Stage bits) id
          (At [.await { request, eviction, victim }]) := by
        refine Leads.of_piece ?_
        rintro subsystem calls rfl
        exact ⟨_, _, rfl, .writes _ _, rfl⟩
      refine Takes.advance writes ?_
      refine Takes.bind ((nested eviction.owner eviction.uaddr).framed _) fun written => ?_
      have answers : Leads (At [.await { request, eviction, victim }] : Stage bits) id
          (At [.finish { request, eviction, victim } written]) := by
        refine Leads.of_piece ?_
        rintro subsystem calls rfl
        exact ⟨_, _, rfl, .written _ _ written, rfl⟩
      exact Takes.advance answers (finishAllocation_takes { request, eviction, victim } written)

/-! ### Teardown -/

def AtState (current : Subsystem bits) (calls : List Call) : Stage bits :=
  fun subsystem reached => subsystem = current ∧ At calls subsystem reached

def MayTearDown (owner : ThreadId) (table : SupplementalTable) : Stage bits :=
  fun subsystem calls => subsystem.frames.barrier.inFlight = 0 ∧
    At [.tearDown owner table] subsystem calls

section Waiting

variable {owner : ThreadId} {table : SupplementalTable} {current : Subsystem bits}

theorem woken_leads {seen : UInt64} (moved : current.frames.barrier.epoch ≠ seen) :
    Leads (AtState current [.doze owner table seen]) id
      (AtState current [.tearDown owner table]) := by
  refine Leads.of_piece ?_
  rintro subsystem calls ⟨rfl, rfl⟩
  exact ⟨_, _, rfl, .woken moved, rfl, rfl⟩

theorem dozes_leads (busy : current.frames.barrier.inFlight ≠ 0) :
    Leads (AtState current [.tearDown owner table]) id
      (At [.doze owner table current.frames.barrier.epoch]) := by
  refine Leads.of_piece ?_
  rintro subsystem calls ⟨rfl, rfl⟩
  exact ⟨_, _, rfl, .dozes busy, rfl⟩

theorem awaitEpoch_takes (rounds : List (Kernel bits other))
    (interleaved : ∀ round ∈ rounds, Interleaves round) :
    ∀ seen, Takes (At [.doze owner table seen])
      (awaitEpoch (fun subsystem : Subsystem bits => subsystem.frames.barrier) seen rounds)
      fun _ => MayTearDown owner table := by
  induction rounds with
  | nil =>
      intro seen
      exact Takes.throw
  | cons round rounds ih =>
      intro seen
      have later := ih fun other member => interleaved other (List.mem_cons_of_mem _ member)
      refine Takes.bind ((interleaved round List.mem_cons_self).framed _) fun value => ?_
      refine Takes.bind Takes.reads fun current => ?_
      dsimp only
      split
      · refine Takes.bind (Takes.weaken ?_ (later seen)) fun others => ?_
        · intro subsystem calls reached
          exact reached.2
        · exact Takes.pure fun _ _ may => may
      · next moved =>
        refine Takes.advance (woken_leads moved) ?_
        split
        · next idle =>
          refine Takes.pure ?_
          rintro subsystem calls ⟨rfl, same⟩
          exact ⟨idle, same⟩
        · next busy =>
          refine Takes.advance (dozes_leads busy) ?_
          exact Takes.bind (later _) fun others => Takes.pure fun _ _ may => may

theorem awaitIdle_takes (rounds : List (Kernel bits other))
    (interleaved : ∀ round ∈ rounds, Interleaves round) :
    Takes (At [.tearDown owner table])
      (awaitIdle (fun subsystem : Subsystem bits => subsystem.frames.barrier) rounds)
      fun _ => MayTearDown owner table := by
  refine Takes.bind Takes.reads fun current => ?_
  dsimp only
  split
  · next idle =>
    refine Takes.pure ?_
    rintro subsystem calls ⟨rfl, same⟩
    exact ⟨idle, same⟩
  · next busy => exact Takes.advance (dozes_leads busy) (awaitEpoch_takes rounds interleaved _)

end Waiting

theorem teardown_interleaves (owner : ThreadId) (table : SupplementalTable)
    (rounds : List (Kernel bits other)) (interleaved : ∀ round ∈ rounds, Interleaves round) :
    Interleaves (teardown owner table rounds) := by
  refine Takes.begin (Eq.refl (Call.tearDown owner table).isEntry) ?_
  refine Takes.bind (awaitIdle_takes rounds interleaved) fun others => ?_
  refine Takes.bind Takes.reads fun current => ?_
  cases removed : current.frames.removeNamed table with | mk records frames =>
  refine Takes.modified [.release (records.map FrameRecord.kpage) (.cleared (table.map fun _ => none))]
    (Leads.of_piece ?_) ?_
  · rintro subsystem calls ⟨rfl, idle, rfl⟩
    have proceeds := @Call.Proceeds.tornDown _ _ _ owner table idle
    rw [removed] at proceeds
    exact ⟨_, _, rfl, proceeds, rfl⟩
  · have rest : Takes (At [.release (records.map FrameRecord.kpage)
          (.cleared (table.map fun _ => none))])
        (do
          records.forM fun record => releasePage record.kpage
          announce (.cleared owner records.length)
          return (others, table.map fun _ => none) :
            Kernel bits (List other × SupplementalTable)) fun _ => At [] := by
      refine Takes.bind (releaseAll_takes _ records) fun _ => ?_
      refine Takes.advance (released_leads _) ?_
      exact Takes.bind (Takes.announce _ _) fun _ => Takes.pure fun _ _ same => same
    dsimp only
    split
    · exact Takes.bind (Takes.announce _ _) fun _ => rest
    · exact rest

/-- Whatever kernel code does from an empty table on is a run. -/
theorem Interleaves.run {code : Kernel bits result} (interleaves : Interleaves code)
    {subsystem : Subsystem bits} (empty : subsystem.frames = {}) :
    Continued [] [] (fun _ => At []) (code subsystem) :=
  interleaves [] subsystem [] [] rfl (.start empty)

end KernelPaging
