import KernelPaging.Proofs.Conservation
import KernelPaging.Proofs.OpenLogs
import KernelPaging.Proofs.RingFrames
import KernelPaging.Proofs.Schedules
import KernelPaging.Proofs.TwoThreads

/-!
What a teardown comes to when no eviction is in flight. It takes out the frames that its table names,
each when it comes to the first entry for it, and no others; it gives their pages back in that
order, and tells a sink that listens how many there were. An entry that is empty, or that names
nothing any more, is passed over.
-/

set_option autoImplicit false

namespace KernelPaging

variable {bits other : Type}

def Frame.record (frame : Frame) : FrameRecord where
  owner := frame.owner
  uaddr := frame.uaddr
  kpage := frame.kpage
  pinned := frame.pinned

/-- The frames that are named by some entry, in the order of the first entry for each. -/
def FrameTable.namedBy (table : FrameTable) (entries : SupplementalTable) : List Frame :=
  (entries.filterMap fun entry => entry.bind table.frame?).eraseDups

section Named

variable {table after : FrameTable} {id : FrameId} {record : FrameRecord}
  {entries : SupplementalTable}

theorem FrameTable.mem_namedBy {frame : Frame} :
    frame ∈ table.namedBy entries ↔
      table.frameAt? frame.id.index = some frame ∧ some frame.id ∈ entries := by
  unfold FrameTable.namedBy
  rw [List.mem_eraseDups, List.mem_filterMap]
  constructor
  · rintro ⟨entry, member, named⟩
    obtain ⟨id, rfl, found⟩ := Option.bind_eq_some_iff.mp named
    obtain ⟨resident, rfl⟩ := FrameTable.frame?_eq_some_iff.mp found
    exact ⟨resident, member⟩
  · rintro ⟨resident, member⟩
    exact ⟨_, member, FrameTable.frame?_eq_some_iff.mpr ⟨resident, rfl⟩⟩

theorem FrameTable.frame?_of_remove_none (stale : table.remove id = none) :
    table.frame? id = none := by
  unfold FrameTable.frame?
  rw [FrameTable.remove_eq_none_iff.mp stale]
  rfl

theorem FrameTable.frame?_remove (removed : table.remove id = some (record, after))
    (other : FrameId) :
    after.frame? other = (table.frame? other).filter fun frame => !frame == record.frame id := by
  obtain ⟨resident, map⟩ := FrameTable.frameAt?_remove removed
  ext frame
  rw [Option.filter_eq_some_iff, FrameTable.frame?_eq_some_iff, FrameTable.frame?_eq_some_iff, map]
  by_cases here : other.index = id.index
  · rw [here, Function.update_self, resident]
    constructor
    · rintro ⟨gone, _⟩
      cases gone
    · rintro ⟨⟨same, _⟩, different⟩
      cases same
      simp at different
  · rw [Function.update_of_ne here]
    have different : frame.id = other → frame ≠ record.frame id := by
      rintro rfl rfl
      exact here rfl
    grind

theorem FrameTable.namedBy_stale (stale : table.remove id = none) :
    table.namedBy (some id :: entries) = table.namedBy entries := by
  have unnamed : (some id).bind table.frame? = none := FrameTable.frame?_of_remove_none stale
  unfold FrameTable.namedBy
  rw [List.filterMap_cons, unnamed]

theorem FrameTable.namedBy_removed (removed : table.remove id = some (record, after)) :
    table.namedBy (some id :: entries) = record.frame id :: after.namedBy entries := by
  obtain ⟨resident, _⟩ := FrameTable.frameAt?_remove removed
  have found : (some id).bind table.frame? = some (record.frame id) :=
    FrameTable.frame?_eq_some_iff.mpr ⟨resident, rfl⟩
  unfold FrameTable.namedBy
  rw [List.filterMap_cons, found, List.eraseDups_cons, List.filter_filterMap]
  congr 2
  apply List.filterMap_congr
  intro entry _
  cases entry with
  | none => rfl
  | some other => exact (FrameTable.frame?_remove removed other).symm

theorem FrameTable.namedBy_nodup (table : FrameTable) (entries : SupplementalTable) :
    (table.namedBy entries).Nodup := by
  fun_induction table.removeNamed entries with
  | case1 table => exact List.nodup_nil
  | case2 table entries ih => exact ih
  | case3 table id entries stale ih =>
      rw [FrameTable.namedBy_stale stale]
      exact ih
  | case4 table id entries record after removed records last _ ih =>
      rw [FrameTable.namedBy_removed removed, List.nodup_cons, FrameTable.mem_namedBy]
      refine ⟨?_, ih⟩
      rintro ⟨still, _⟩
      rw [(FrameTable.frameAt?_remove removed).2] at still
      cases (Function.update_self _ _ _).symm.trans still

theorem FrameTable.removeNamed_records (table : FrameTable) (entries : SupplementalTable) :
    (table.removeNamed entries).1 = (table.namedBy entries).map Frame.record := by
  fun_induction table.removeNamed entries with
  | case1 table => rfl
  | case2 table entries ih => exact ih
  | case3 table id entries stale ih =>
      rw [FrameTable.namedBy_stale stale]
      exact ih
  | case4 table id entries record after removed records last rest ih =>
      rw [rest] at ih
      rw [FrameTable.namedBy_removed removed, List.map_cons, ← ih]
      rfl

theorem FrameTable.WellFormed.residents_removeNamed (wellFormed : table.WellFormed)
    (entries : SupplementalTable) :
    (table.removeNamed entries).2.residents =
      table.residents.filter fun frame => some frame.id ∉ entries := by
  fun_induction table.removeNamed entries with
  | case1 table => simp
  | case2 table entries ih =>
      rw [ih wellFormed]
      simp
  | case3 table id entries stale ih =>
      rw [ih wellFormed]
      apply List.filter_congr
      intro frame member
      have other := FrameTable.id_ne_of_stale stale (wellFormed.mem_residents.mp member)
      simp [other]
  | case4 table id entries record after removed records last rest ih =>
      obtain ⟨_, _, _, kept⟩ := FrameTable.remove_spec wellFormed removed
      have others := ih kept
      rw [rest, wellFormed.residents_remove removed, List.filter_filter] at others
      change last.residents = _
      rw [others]
      apply List.filter_congr
      intro frame _
      simp [Bool.and_comm]

end Named

/-! ### Pages that go back -/

/-- The pages are released one after the other, and each release is accepted. -/
inductive PageSupply.TakesBack : PageSupply → List Address → PageSupply → Prop
  | nothing (supply : PageSupply) : TakesBack supply [] supply
  | page {supply middle after : PageSupply} {page : Address} {pages : List Address} :
      supply.release page = .ok (.accepted, middle) → TakesBack middle pages after →
      TakesBack supply (page :: pages) after

structure PageSupply.Restocked (supply : PageSupply) (pages : List Address) (after : PageSupply) :
    Prop where
  takesBack : supply.TakesBack pages after
  free : (after.serving .user).bitmap.free = (supply.serving .user).bitmap.free + pages.length
  taken : ∀ page, (after.serving .user).Taken page ↔
    page ∉ pages ∧ (supply.serving .user).Taken page
  kernelPool : after.kernelPool? = supply.kernelPool?

theorem PageSupply.restocked_of_taken {pages : List Address} (once : pages.Nodup) :
    ∀ {supply : PageSupply}, (supply.serving .user).Legal →
      (∀ page ∈ pages, (supply.serving .user).Taken page) →
      ∃ after, supply.Restocked pages after := by
  induction once with
  | nil =>
      intro supply _ _
      exact ⟨supply, .nothing supply, rfl, by simp, rfl⟩
  | @cons page pages fresh _ ih =>
      intro supply legal taken
      have out := taken page List.mem_cons_self
      obtain ⟨region, given, same, free, left⟩ := PageRegion.release_spec legal out
      have released := PageSupply.release_taken legal out
      rw [given] at released
      have serves := supply.serving_setServing .user region
      have still : ∀ other ∈ pages,
          ((supply.setServing .user region).serving .user).Taken other := by
        intro other member
        rw [serves, left]
        exact ⟨(fresh other member).symm, taken other (List.mem_cons_of_mem _ member)⟩
      have legalStill : ((supply.setServing .user region).serving .user).Legal := by
        rw [serves]
        exact same.legal
      obtain ⟨after, restocked⟩ := ih legalStill still
      refine ⟨after, .page released restocked.takesBack, ?_, ?_, ?_⟩
      · rw [restocked.free, serves, free, List.length_cons]
        omega
      · intro other
        rw [restocked.taken, serves, left, List.mem_cons, not_or, and_assoc, and_left_comm]
      · rw [restocked.kernelPool, supply.kernelPool?_setServing]

theorem releasePage_of_accepted {state : Subsystem bits} {page : Address} {supply : PageSupply}
    (released : state.supply.release page = .ok (.accepted, supply)) :
    releasePage page state = .ok () { state with supply } := by
  have read : (get : Kernel bits (Subsystem bits)) state = .ok state state := rfl
  unfold releasePage
  rw [bind_of_ok read, released]
  rfl

theorem releaseAll_of_takesBack {frames : List Frame} :
    ∀ {state : Subsystem bits} {supply : PageSupply},
      state.supply.TakesBack (frames.map Frame.kpage) supply →
      (frames.forM fun frame => releasePage frame.kpage : Kernel bits Unit) state =
        .ok () { state with supply } := by
  induction frames with
  | nil =>
      intro state supply takesBack
      cases takesBack
      rfl
  | cons frame frames ih =>
      intro state supply takesBack
      cases takesBack with
      | page released rest =>
          change (releasePage frame.kpage >>= fun _ =>
            frames.forM fun frame => releasePage frame.kpage : Kernel bits Unit) state = _
          rw [bind_of_ok (releasePage_of_accepted released)]
          exact ih rest

/-- The pages behind the resident frames were taken from the user pool, each for one frame. -/
structure Subsystem.Backed (subsystem : Subsystem bits) : Prop where
  legal : (subsystem.supply.serving .user).Legal
  once : subsystem.frames.pages.Nodup
  taken : ∀ page ∈ subsystem.frames.pages, (subsystem.supply.serving .user).Taken page

theorem Traffic.Run.backed [AccessedBits bits] {history : List (Moment bits)}
    {traffic : Traffic bits} (run : Traffic.Run history traffic)
    (exclusive : Exclusive history traffic)
    (goesOn : ∀ moment ∈ history, moment.event.halt? = none) : traffic.subsystem.Backed := by
  have balanced := run.balanced exclusive goesOn
  constructor
  · exact balanced.pool.legal
  · exact (List.nodup_append.mp balanced.once).2.1
  · intro page member
    exact (balanced.taken page).mp (List.mem_append_right _ member)

theorem Subsystem.Backed.restocked {before : Subsystem bits} (backed : before.Backed)
    (wellFormed : before.frames.WellFormed) (table : SupplementalTable) :
    ∃ after, before.supply.Restocked ((before.frames.namedBy table).map Frame.kpage) after := by
  have parts := FrameTable.pages_removeNamed table before.frames wellFormed
  rw [FrameTable.removeNamed_records, List.map_map] at parts
  have apart := parts.nodup_iff.mpr backed.once
  apply PageSupply.restocked_of_taken (List.nodup_append.mp apart).1 backed.legal
  intro page member
  exact backed.taken page (parts.subset (List.mem_append_left _ member))

/-! ### The teardown -/

def foreignTo (owner : ThreadId) (frames : List Frame) : Nat :=
  frames.countP fun frame => frame.owner ≠ owner

def foreignDelivery (owner : ThreadId) (count : Nat) (sink : String) (milliseconds : Nat) :
    Delivery where
  sink := sink
  level := .warn
  line := "[t=" ++ timestamp milliseconds ++ "s] [WARN ] [frame] " ++
    ("Thread " ++ toString owner.raw.toNat ++ " teardown removed " ++ toString count ++
      " frames owned by other threads")

def clearedDelivery (owner : ThreadId) (count : Nat) (sink : String) (milliseconds : Nat) :
    Delivery where
  sink := sink
  level := .info
  line := "[t=" ++ timestamp milliseconds ++ "s] [INFO ] [frame] " ++
    ("Cleared " ++ toString count ++ " frames of thread " ++ toString owner.raw.toNat)

/-- What a sink is told about the frames that a teardown has taken out. There is a warning only if
some of them had another owner. -/
def clearanceDeliveries (owner : ThreadId) (frames : List Frame) (sink : String)
    (milliseconds : Nat) : List Delivery :=
  (if ∃ frame ∈ frames, frame.owner ≠ owner then
    [foreignDelivery owner (foreignTo owner frames) sink milliseconds]
  else
    []) ++ [clearedDelivery owner frames.length sink milliseconds]

structure Subsystem.Cleared (before : Subsystem bits) (owner : ThreadId)
    (table : SupplementalTable) (after : Subsystem bits) : Prop where
  residents : after.frames.residents =
    before.frames.residents.filter fun frame => some frame.id ∉ table
  barrier : after.frames.barrier = before.frames.barrier
  restocked : before.supply.Restocked ((before.frames.namedBy table).map Frame.kpage) after.supply
  told : before.log.Gains (clearanceDeliveries owner (before.frames.namedBy table)) after.log
  rest : after = { before with log := after.log, supply := after.supply, frames := after.frames }

/-- Gives the pages of some frames back, one after the other, with a warning beforehand if there are
frames of other threads among them, and a note of their number afterwards. -/
def giveFramesBack (owner : ThreadId) (frames : List Frame) : Kernel bits Unit := do
  if 0 < foreignTo owner frames then
    announce (.foreignFrames owner (foreignTo owner frames))
  frames.forM fun frame => releasePage frame.kpage
  announce (.cleared owner frames.length)

theorem giveBack_records (owner : ThreadId) (table : SupplementalTable) (frames : List Frame) :
    (giveBack owner table (frames.map Frame.record) : Kernel bits SupplementalTable) = (do
      giveFramesBack owner frames
      return table.map fun _ => none) := by
  have released : ((frames.map Frame.record).forM fun record => releasePage record.kpage :
      Kernel bits Unit) = frames.forM fun frame => releasePage frame.kpage := by
    rw [List.forM_eq_forM, List.forM_eq_forM, List.forM_map]
    rfl
  have foreign : ((frames.map Frame.record).countP fun record => record.owner ≠ owner) =
      foreignTo owner frames := List.countP_map
  unfold giveBack giveFramesBack
  rw [foreign, released, List.length_map]
  dsimp only
  split
  · simp only [bind_assoc]
  · simp only [bind_assoc]

theorem foreignDelivery_eq (owner : ThreadId) (count : Nat) (sink : String) (milliseconds : Nat) :
    foreignDelivery owner count sink milliseconds =
      ⟨sink, .warn, (Notice.foreignFrames owner count).record.line milliseconds⟩ := by
  have line : (Notice.foreignFrames owner count).record.line milliseconds =
      (foreignDelivery owner count sink milliseconds).line :=
    Record.line_of_opening rfl rfl milliseconds
  rw [line]
  rfl

theorem clearedDelivery_eq (owner : ThreadId) (count : Nat) (sink : String) (milliseconds : Nat) :
    clearedDelivery owner count sink milliseconds =
      ⟨sink, .info, (Notice.cleared owner count).record.line milliseconds⟩ := by
  have line : (Notice.cleared owner count).record.line milliseconds =
      (clearedDelivery owner count sink milliseconds).line :=
    Record.line_of_opening rfl rfl milliseconds
  rw [line]
  rfl

theorem releaseAll_told (owner : ThreadId) {frames : List Frame} (state : Subsystem bits)
    {supply : PageSupply} (accepts : state.log.Accepts)
    (takesBack : state.supply.TakesBack (frames.map Frame.kpage) supply) :
    ∃ log, state.log.Gains (fun sink milliseconds =>
        [clearedDelivery owner frames.length sink milliseconds]) log ∧
      (do
        frames.forM fun frame => releasePage frame.kpage
        announce (.cleared owner frames.length) : Kernel bits Unit) state =
        .ok () { state with log, supply } := by
  obtain ⟨log, written, _⟩ := accepts.write (Notice.cleared owner frames.length).record
  refine ⟨log, Logger.gains_write (clearedDelivery_eq owner frames.length) written, ?_⟩
  rw [bind_of_ok (releaseAll_of_takesBack takesBack)]
  exact announce_of_written written

theorem giveFramesBack_accepted (owner : ThreadId) {frames : List Frame} (state : Subsystem bits)
    {supply : PageSupply} (accepts : state.log.Accepts)
    (takesBack : state.supply.TakesBack (frames.map Frame.kpage) supply) :
    ∃ log, state.log.Gains (clearanceDeliveries owner frames) log ∧
      giveFramesBack owner frames state = .ok () { state with log, supply } := by
  have counted : 0 < foreignTo owner frames ↔ ∃ frame ∈ frames, frame.owner ≠ owner := by
    unfold foreignTo
    simp only [List.countP_pos_iff, decide_eq_true_eq]
  unfold clearanceDeliveries giveFramesBack
  by_cases foreign : ∃ frame ∈ frames, frame.owner ≠ owner
  · obtain ⟨warned, warning, still⟩ :=
      accepts.write (Notice.foreignFrames owner (foreignTo owner frames)).record
    obtain ⟨log, told, released⟩ :=
      releaseAll_told owner { state with log := warned } still takesBack
    have warns := Logger.gains_write (foreignDelivery_eq owner (foreignTo owner frames)) warning
    simp only [if_pos foreign, if_pos (counted.mpr foreign)]
    refine ⟨log, warns.append told, ?_⟩
    rw [bind_of_ok (announce_of_written warning)]
    exact released
  · obtain ⟨log, told, released⟩ := releaseAll_told owner state accepts takesBack
    simp only [if_neg foreign, if_neg (mt counted.mp foreign)]
    exact ⟨log, told, released⟩

section Clearing

variable {before : Subsystem bits}

theorem teardown_eq_giveFramesBack (idle : before.frames.barrier.inFlight = 0) (owner : ThreadId)
    (table : SupplementalTable) (rounds : List (Kernel bits other)) :
    teardown owner table rounds before = (do
      giveFramesBack owner (before.frames.namedBy table)
      return ([], table.map fun _ => none))
        { before with frames := (before.frames.removeNamed table).2 } := by
  rw [teardown_of_idle idle]
  change (giveBack owner table (before.frames.removeNamed table).1 >>= fun cleared =>
    pure ([], cleared)) { before with frames := (before.frames.removeNamed table).2 } = _
  rw [FrameTable.removeNamed_records, giveBack_records, bind_assoc]
  rfl

/-- A teardown takes out the frames that its table names, whoever owns them, and no others. If their
pages have come from the user pool, every one is back there afterwards, and a sink has been told how
many they were, and how many of them had other owners. -/
theorem teardown_clears (wellFormed : before.frames.WellFormed)
    (idle : before.frames.barrier.inFlight = 0) (owner : ThreadId) (table : SupplementalTable)
    (rounds : List (Kernel bits other)) :
    let named := before.frames.namedBy table
    let remaining := (before.frames.removeNamed table).2
    (named.Nodup ∧
      ∀ frame, frame ∈ named ↔ frame ∈ before.frames.residents ∧ some frame.id ∈ table) ∧
    remaining.residents = (before.frames.residents.filter fun frame => some frame.id ∉ table) ∧
    teardown owner table rounds before = (do
      giveFramesBack owner named
      return ([], table.map fun _ => none)) { before with frames := remaining } ∧
    (before.Backed → before.log.Accepts →
      ∃ after, teardown owner table rounds before = .ok ([], table.map fun _ => none) after ∧
        before.Cleared owner table after) := by
  have residents := wellFormed.residents_removeNamed table
  have barrier := (FrameTable.removeNamed_spec table before.frames wellFormed).2.1
  have program := teardown_eq_giveFramesBack idle owner table rounds
  refine ⟨⟨FrameTable.namedBy_nodup _ _, ?_⟩, residents, program, ?_⟩
  · intro frame
    rw [FrameTable.mem_namedBy, wellFormed.mem_residents]
  · intro backed accepts
    obtain ⟨supply, restocked⟩ := backed.restocked wellFormed table
    obtain ⟨log, told, gave⟩ := giveFramesBack_accepted owner
      { before with frames := (before.frames.removeNamed table).2 } accepts restocked.takesBack
    refine ⟨{ before with log, supply, frames := (before.frames.removeNamed table).2 }, ?_,
      residents, barrier, restocked, told, rfl⟩
    rw [program, bind_of_ok gave]
    rfl

end Clearing

theorem Traffic.backed_of_play {pages : Nat} (few : pages ≤ 0x800000000) (moves : List Move)
    (inside : ∀ moment ∈ (Traffic.play moves ([], Traffic.idle pages)).1,
      moment.event.isOutside = false)
    (goesOn : ∀ moment ∈ (Traffic.play moves ([], Traffic.idle pages)).1,
      moment.event.halt? = none) :
    (Traffic.play moves ([], Traffic.idle pages)).2.subsystem.Backed := by
  refine ((Traffic.run_idle pages).play moves).backed ⟨?_, ?_⟩ goesOn
  · rw [origin_play]
    exact Traffic.idle_untouched few
  · intro moment member outside
    cases (inside moment member).symm.trans outside

/-- Threads 1 and 2 have a frame each, and the one of thread 1 is pinned. Thread 3 has had the third
slot, and thread 4 has it now. -/
def Traffic.threeResident : List (Moment TouchedSet) × Traffic TouchedSet :=
  Traffic.play
    (Move.through (.obtain (.simple 1)) 4 ++ Move.through (.obtain (.simple 2)) 4 ++
      Move.through (.unpin ⟨1, 0⟩) 1 ++ Move.through (.obtain (.simple 3)) 4 ++
      Move.through (.unpin ⟨2, 0⟩) 1 ++ Move.through (.free (some ⟨2, 0⟩)) 3 ++
      Move.through (.obtain (.simple 4)) 4)
    ([], Traffic.idle 4)

theorem Traffic.run_threeResident : Traffic.Run Traffic.threeResident.1 Traffic.threeResident.2 :=
  (Traffic.run_idle 4).play _

theorem Traffic.threeResident_backed : Traffic.threeResident.2.subsystem.Backed :=
  Traffic.backed_of_play (by decide) _ (by decide +kernel) (by decide +kernel)

def threeHeard : Subsystem TouchedSet :=
  { Traffic.threeResident.2.subsystem with
    log := ((({} : Logger).register "serial" .info).registerClock 7).setTicks 7 1234 }

/-- Thread 1 ends with a table that names the frame of thread 2, nothing, a name that thread 3 had,
its own frame, and the frame of thread 2 once more. -/
theorem Traffic.threeResident_cleared :
    ∃ after,
      teardown ⟨1⟩ [some ⟨1, 0⟩, none, some ⟨2, 0⟩, some ⟨0, 0⟩, some ⟨1, 0⟩]
          ([] : List (Kernel TouchedSet Unit)) threeHeard =
        .ok ([], [none, none, none, none, none]) after ∧
      after.frames.residents.map Frame.id = [⟨2, 1⟩] ∧
      (after.supply.serving .user).bitmap.free = 3 ∧
      (after.log.delivered.toList.map fun delivery =>
          (delivery.sink, delivery.level, delivery.line)) =
        [("serial", .warn,
            "[t=12.340s] [WARN ] [frame] Thread 1 teardown removed 1 frames owned by other threads"),
          ("serial", .info, "[t=12.340s] [INFO ] [frame] Cleared 2 frames of thread 1")] := by
  have idle : threeHeard.frames.barrier.inFlight = 0 := by decide +kernel
  have timely : threeHeard.log.milliseconds = .ok 12340 := by decide +kernel
  have wellFormed : threeHeard.frames.WellFormed := Traffic.run_threeResident.sound.wellFormed
  have stocked := Traffic.threeResident_backed
  have backed : threeHeard.Backed := ⟨stocked.legal, stocked.once, stocked.taken⟩
  have cleared := teardown_clears wellFormed idle ⟨1⟩
    [some ⟨1, 0⟩, none, some ⟨2, 0⟩, some ⟨0, 0⟩, some ⟨1, 0⟩] ([] : List (Kernel TouchedSet Unit))
  obtain ⟨after, ended, result⟩ := cleared.2.2.2 backed (.inr ⟨12340, timely⟩)
  refine ⟨after, ended, ?_, ?_, ?_⟩
  · rw [result.residents]
    decide +kernel
  · rw [result.restocked.free]
    decide +kernel
  · rw [result.told.heard rfl timely]
    decide +kernel

end KernelPaging
