import KernelPaging.Proofs.Names
import KernelPaging.Proofs.Programs
import KernelPaging.Proofs.TeardownResults

/-!
What freeing an entry comes to, whatever else is under way. The frame that the entry names decides:
if there is none nothing happens, a pinned one stays, and an unpinned one leaves alone and its page
goes back. From then on the name of the frame is as good as none, until its slot has been retired as
often as there are generations, so that the page is not given back again.
-/

set_option autoImplicit false

namespace KernelPaging

variable {bits : Type}

def Logger.noteAll (logger : Logger) : List Notice → Except Halt Logger
  | [] => .ok logger
  | notice :: notices =>
      match logger.write notice.record with
      | .error halt => .error halt
      | .ok logger => logger.noteAll notices

theorem announce?_ok_iff {notice : Option Notice} {state after : Subsystem bits} {value : Unit} :
    announce? notice state = .ok value after ↔
      ∃ log, state.log.noteAll notice.toList = .ok log ∧ after = { state with log } := by
  cases notice with
  | none =>
      constructor
      · intro same
        cases same
        exact ⟨state.log, rfl, rfl⟩
      · rintro ⟨log, same, rfl⟩
        cases same
        rfl
  | some notice =>
      have written : state.log.noteAll [notice] = state.log.write notice.record := by
        unfold Logger.noteAll
        cases state.log.write notice.record with
        | error halt => rfl
        | ok log => rfl
      rw [Option.toList_some, written]
      exact announce_ok_iff

theorem releasePage_ok_iff {page : Address} {state after : Subsystem bits} {value : Unit} :
    releasePage page state = .ok value after ↔
      ∃ outcome supply log, state.supply.release page = .ok (outcome, supply) ∧
        state.log.noteAll (outcome.notice? page).toList = .ok log ∧
          after = { state with log, supply } := by
  constructor
  · intro released
    unfold releasePage at released
    obtain ⟨⟨outcome, supply⟩, gave, goesOn⟩ := exists_of_section released
    obtain ⟨log, noted, same⟩ := announce?_ok_iff.mp goesOn
    exact ⟨outcome, supply, log, gave, noted, same⟩
  · rintro ⟨outcome, supply, log, gave, noted, rfl⟩
    have read : (get : Kernel bits (Subsystem bits)) state = .ok state state := rfl
    unfold releasePage
    rw [bind_of_ok read, gave]
    exact announce?_ok_iff.mpr ⟨log, noted, rfl⟩

theorem Logger.Accepts.noteAll (notices : List Notice) :
    ∀ {logger : Logger}, logger.Accepts → ∃ log, logger.noteAll notices = .ok log := by
  induction notices with
  | nil =>
      intro logger _
      exact ⟨logger, rfl⟩
  | cons notice notices ih =>
      intro logger accepts
      obtain ⟨middle, written, still⟩ := accepts.write notice.record
      obtain ⟨log, noted⟩ := ih still
      refine ⟨log, ?_⟩
      rw [Logger.noteAll, written]
      exact noted

/-- Two pools compare a page with the end of each region, which has to fit a word. A single region
computes the place of the page instead. -/
def PageSupply.EndsFit : PageSupply → Prop
  | .single _ => True
  | .split pools => ∀ pool, (pools.region pool).base.value +
      (pools.region pool).bitmap.total * pageSize < 0x10000000000000000

theorem PagePools.poolOf?_of_contains {pools : PagePools} {page : Address}
    {inUser inKernel : Bool} (user : (pools.region .user).contains page = .ok inUser)
    (kernel : (pools.region .kernel).contains page = .ok inKernel) :
    pools.poolOf? page =
      .ok (if inUser then some .user else if inKernel then some .kernel else none) := by
  change pools.user.contains page = _ at user
  change pools.kernel.contains page = _ at kernel
  unfold PagePools.poolOf?
  rw [user, kernel]
  cases inUser with
  | true => rfl
  | false => cases inKernel <;> rfl

theorem PageSupply.EndsFit.releases {supply : PageSupply} (fit : supply.EndsFit)
    (page : Address) : ∃ given, supply.release page = .ok given := by
  cases supply with
  | single region => exact ⟨_, rfl⟩
  | split pools =>
      obtain ⟨pool?, found⟩ : ∃ pool?, pools.poolOf? page = .ok pool? :=
        ⟨_, PagePools.poolOf?_of_contains (if_pos (fit .user)) (if_pos (fit .kernel))⟩
      unfold PageSupply.release PagePools.release
      dsimp only
      rw [found]
      cases pool? with
      | none => exact ⟨_, rfl⟩
      | some pool => exact ⟨_, rfl⟩

theorem Subsystem.Backed.releases {subsystem : Subsystem bits} (backed : subsystem.Backed)
    {id : FrameId} {frame : Frame} (named : subsystem.frames.frame? id = some frame) :
    ∃ supply, subsystem.supply.release frame.kpage = .ok (.accepted, supply) ∧
      subsystem.supply.Restocked [frame.kpage] supply := by
  have resident := (FrameTable.frame?_eq_some_iff.mp named).1
  have listed := FrameTable.mem_pages_iff.mpr ⟨_, frame, resident, rfl⟩
  have taken : ∀ page ∈ [frame.kpage], (subsystem.supply.serving .user).Taken page := by
    intro page member
    rw [List.mem_singleton.mp member]
    exact backed.taken _ listed
  obtain ⟨supply, restocked⟩ :=
    PageSupply.restocked_of_taken (List.nodup_singleton _) backed.legal taken
  refine ⟨supply, ?_, restocked⟩
  cases restocked.takesBack with
  | page gave rest =>
      cases rest
      exact gave

theorem FrameTable.detach_of_unpinned {table : FrameTable} {id : FrameId} {frame : Frame}
    (named : table.frame? id = some frame) (unpinned : frame.pinned = false) :
    ∃ after, table.detach id = (.removed frame.record, after) ∧
      table.remove id = some (frame.record, after) := by
  obtain ⟨occupant, resolved, rfl⟩ := Option.map_eq_some_iff.mp named
  have notPinned : ¬ occupant.pinned = true := ne_true_of_eq_false unpinned
  refine ⟨table.discard id.index occupant, ?_, ?_⟩
  · unfold FrameTable.detach
    rw [resolved]
    exact if_neg notPinned
  · unfold FrameTable.remove
    rw [resolved]
    rfl

def finishFree (id : FrameId) : Detachment → Kernel bits (FreeOutcome × Option FrameId)
  | .stale => do
      announce (.staleReference id)
      return (.notResident, none)
  | .pinned => return (.pinned, some id)
  | .removed record => do
      releasePage record.kpage
      return (.released, none)

theorem free_of_detached {before : Subsystem bits} {id : FrameId} {detachment : Detachment}
    {frames : FrameTable} (detached : before.frames.detach id = (detachment, frames)) :
    free (some id) before = finishFree id detachment { before with frames } := by
  have read : (get : Kernel bits (Subsystem bits)) before = .ok before before := rfl
  unfold free
  dsimp only
  rw [bind_of_ok read, detached]
  cases detachment with
  | _ => rfl

structure Subsystem.Released (before : Subsystem bits) (frame : Frame) (after : Subsystem bits) :
    Prop where
  removed : before.frames.remove frame.id = some (frame.record, after.frames)
  residents : after.frames.residents =
    before.frames.residents.filter fun other => other.id ≠ frame.id
  count : after.frames.count + 1 = before.frames.count
  barrier : after.frames.barrier = before.frames.barrier
  page : ∃ outcome, before.supply.release frame.kpage = .ok (outcome, after.supply) ∧
    before.log.noteAll (outcome.notice? frame.kpage).toList = .ok after.log
  restocked : before.Backed → before.supply.Restocked [frame.kpage] after.supply
  rest : after = { before with log := after.log, supply := after.supply, frames := after.frames }

/-- What freeing an entry comes to: the answer, the entry that is left behind, and the state. -/
inductive Subsystem.Frees (before : Subsystem bits) :
    Option FrameId → FreeOutcome → Option FrameId → Subsystem bits → Prop
  | nothing : Frees before none .notResident none before
  | stale {id : FrameId} {log : Logger} :
      before.frames.frame? id = none →
      before.log.write (Notice.staleReference id).record = .ok log →
      Frees before (some id) .notResident none { before with log }
  | pinned {id : FrameId} {frame : Frame} :
      before.frames.frame? id = some frame → frame.pinned = true →
      Frees before (some id) .pinned (some id) before
  | released {id : FrameId} {frame : Frame} {after : Subsystem bits} :
      before.frames.frame? id = some frame → frame.pinned = false →
      before.Released frame after → Frees before (some id) .released none after

section Freeing

variable {before after : Subsystem bits} {id : FrameId} {frame : Frame}

theorem Subsystem.Released.of_removed (wellFormed : before.frames.WellFormed)
    (named : before.frames.frame? id = some frame) {frames : FrameTable}
    (removed : before.frames.remove id = some (frame.record, frames))
    {outcome : ReleaseOutcome} {supply : PageSupply} {log : Logger}
    (gave : before.supply.release frame.kpage = .ok (outcome, supply))
    (noted : before.log.noteAll (outcome.notice? frame.kpage).toList = .ok log) :
    before.Released frame { before with log, supply, frames } := by
  obtain ⟨_, rfl⟩ := FrameTable.frame?_eq_some_iff.mp named
  obtain ⟨member, represents⟩ := FrameTable.Represents.remove wellFormed removed
  refine
    { removed := removed
      residents := wellFormed.residents_remove removed
      count := ?_
      barrier := (FrameTable.remove_spec wellFormed removed).2.2.1
      page := ⟨outcome, gave, noted⟩
      restocked := ?_
      rest := rfl }
  · have some := List.length_pos_of_mem member
    rw [FrameTable.Represents.count wellFormed, represents.count, List.length_erase_of_mem member]
    omega
  · intro backed
    obtain ⟨taken, accepted, restocked⟩ := backed.releases named
    rw [gave] at accepted
    cases accepted
    exact restocked

theorem Subsystem.Frees.of_ok (wellFormed : before.frames.WellFormed)
    {entry left : Option FrameId} {outcome : FreeOutcome}
    (freed : free entry before = .ok (outcome, left) after) :
    before.Frees entry outcome left after := by
  cases entry with
  | none =>
      cases freed
      exact .nothing
  | some id =>
      cases named : before.frames.frame? id with
      | none =>
          rw [free_of_detached (FrameTable.detach_of_unnamed named)] at freed
          obtain ⟨_, middle, announced, same⟩ := exists_of_bind freed
          obtain ⟨log, written, rfl⟩ := announce_ok_iff.mp announced
          cases same
          exact .stale named written
      | some frame =>
          cases pinned : frame.pinned with
          | true =>
              rw [free_of_detached (FrameTable.detach_of_pinned named pinned)] at freed
              cases freed
              exact .pinned named pinned
          | false =>
              obtain ⟨frames, detached, removed⟩ := FrameTable.detach_of_unpinned named pinned
              rw [free_of_detached detached] at freed
              obtain ⟨_, middle, released, same⟩ := exists_of_bind freed
              obtain ⟨given, supply, log, gave, noted, rfl⟩ := releasePage_ok_iff.mp released
              cases same
              exact .released named pinned (.of_removed wellFormed named removed gave noted)

theorem Subsystem.Frees.ok {entry left : Option FrameId} {outcome : FreeOutcome}
    (frees : before.Frees entry outcome left after) :
    free entry before = .ok (outcome, left) after := by
  cases frees with
  | nothing => rfl
  | stale unnamed written =>
      rw [free_of_detached (FrameTable.detach_of_unnamed unnamed)]
      exact bind_of_ok (announce_of_written written)
  | pinned named pinned => exact free_of_detached (FrameTable.detach_of_pinned named pinned)
  | @released _ frame _ named unpinned result =>
      obtain ⟨_, rfl⟩ := FrameTable.frame?_eq_some_iff.mp named
      obtain ⟨frames, detached, removed⟩ := FrameTable.detach_of_unpinned named unpinned
      cases removed.symm.trans result.removed
      obtain ⟨given, gave, noted⟩ := result.page
      have released : releasePage frame.record.kpage { before with frames := after.frames } =
          .ok () after := releasePage_ok_iff.mpr ⟨given, _, _, gave, noted, result.rest⟩
      rw [free_of_detached detached]
      exact bind_of_ok released

theorem Subsystem.Frees.of_unnamed {entry left : Option FrameId} {outcome : FreeOutcome}
    (frees : before.Frees entry outcome left after) (unnamed : before.frames.frame? id = none)
    (copied : entry = none ∨ entry = some id) :
    outcome = .notResident ∧ left = none ∧ ∃ log, after = { before with log } := by
  have nobody : ∀ other frame, entry = some other → before.frames.frame? other ≠ some frame := by
    rintro other frame rfl named
    rcases copied with empty | same
    · cases empty
    · cases same
      cases unnamed.symm.trans named
  cases frees with
  | nothing => exact ⟨rfl, rfl, before.log, rfl⟩
  | @stale _ log _ _ => exact ⟨rfl, rfl, log, rfl⟩
  | pinned named _ => exact absurd named (nobody _ _ rfl)
  | released named _ _ => exact absurd named (nobody _ _ rfl)

theorem Subsystem.frees_exists (wellFormed : before.frames.WellFormed)
    (accepts : before.log.Accepts) (answers : before.supply.EndsFit ∨ before.Backed)
    (entry : Option FrameId) : ∃ outcome left after, before.Frees entry outcome left after := by
  cases entry with
  | none => exact ⟨_, _, _, .nothing⟩
  | some id =>
      cases named : before.frames.frame? id with
      | none =>
          obtain ⟨log, written, _⟩ := accepts.write (Notice.staleReference id).record
          exact ⟨_, _, _, .stale named written⟩
      | some frame =>
          cases pinned : frame.pinned with
          | true => exact ⟨_, _, _, .pinned named pinned⟩
          | false =>
              obtain ⟨frames, _, removed⟩ := FrameTable.detach_of_unpinned named pinned
              have released : ∃ given, before.supply.release frame.kpage = .ok given := by
                cases answers with
                | inl fit => exact fit.releases frame.kpage
                | inr backed =>
                    obtain ⟨supply, accepted, _⟩ := backed.releases named
                    exact ⟨_, accepted⟩
              obtain ⟨⟨given, supply⟩, gave⟩ := released
              obtain ⟨log, noted⟩ := accepts.noteAll (given.notice? frame.kpage).toList
              have result := Subsystem.Released.of_removed wellFormed named removed gave noted
              exact ⟨_, _, _, .released named pinned result⟩

end Freeing

/-! ### Releases in a run -/

/-- The frames that an event takes out of the table for their pages to go back: the one that a free
names, or those that a teardown names. -/
def Event.takenOut (table : FrameTable) : Event → List Frame
  | .went (.free (some id)) (.goesOn _) => (table.frame? id).toList
  | .went (.tearDown _ entries) (.goesOn (.release ..)) => table.namedBy entries
  | _ => []

def Moment.takenOut (moment : Moment bits) : List Frame :=
  moment.event.takenOut moment.before.subsystem.frames

theorem FrameTable.namedBy_ids_nodup (table : FrameTable) (entries : SupplementalTable) :
    ((table.namedBy entries).map Frame.id).Nodup := by
  apply List.Nodup.map_on _ (table.namedBy_nodup entries)
  intro frame member other otherMember same
  have resident := (FrameTable.mem_namedBy.mp member).1
  rw [same, (FrameTable.mem_namedBy.mp otherMember).1] at resident
  exact (Option.some.inj resident).symm

theorem Moment.takenOut_nodup (moment : Moment bits) : (moment.takenOut.map Frame.id).Nodup := by
  unfold Moment.takenOut Event.takenOut
  split
  · cases moment.before.subsystem.frames.frame? _ with
    | none => exact List.nodup_nil
    | some frame => exact List.nodup_singleton frame.id
  · exact FrameTable.namedBy_ids_nodup _ _
  · exact List.nodup_nil

section Runs

variable [AccessedBits bits] {history earlier : List (Moment bits)}
  {before after traffic : Traffic bits} {event : Event} {id : FrameId} {frame : Frame}

theorem Traffic.Step.leaves_of_takenOut (step : before.Step event after)
    (leaves : frame ∈ event.takenOut before.subsystem.frames) :
    before.resident frame.id.index = some frame ∧ after.resident frame.id.index = none := by
  cases step with
  | begin _ => cases leaves
  | outside _ => cases leaves
  | @proceed subsystem _ _ _ _ _ proceeds =>
      cases proceeds with
      | freed detached =>
          have named := Option.mem_toList.mp leaves
          obtain ⟨resident, rfl⟩ := FrameTable.frame?_eq_some_iff.mp named
          have map := (FrameTable.frameAt?_remove (FrameTable.detach_removed detached).1).2
          exact ⟨resident, (congrFun map _).trans (Function.update_self _ _ _)⟩
      | @tornDown owner table _ =>
          obtain ⟨resident, listed⟩ := FrameTable.mem_namedBy.mp leaves
          have spec := FrameTable.removeNamed_slot table frame.id.index subsystem.frames
          rw [resident] at spec
          dsimp only at spec
          rw [if_pos listed] at spec
          exact ⟨resident, congrArg Prod.fst spec⟩
      | _ => cases leaves

theorem Traffic.Step.pages_takenOut {call : Call} {pages : List Address} {answer : Answer}
    (entry : call.isEntry = true)
    (step : before.Step (.went call (.goesOn (.release pages answer))) after) :
    pages = ((Event.went call (.goesOn (.release pages answer))).takenOut
      before.subsystem.frames).map Frame.kpage := by
  cases step with
  | @proceed subsystem _ _ _ _ _ proceeds =>
      cases proceeds with
      | @freed id record _ detached =>
          have resident := (FrameTable.frameAt?_remove (FrameTable.detach_removed detached).1).1
          have named : subsystem.frames.frame? id = some (record.frame id) :=
            FrameTable.frame?_eq_some_iff.mpr ⟨resident, rfl⟩
          change _ = (subsystem.frames.frame? id).toList.map Frame.kpage
          rw [named]
          rfl
      | @tornDown owner table _ =>
          change _ = (subsystem.frames.namedBy table).map Frame.kpage
          rw [FrameTable.removeNamed_records, List.map_map]
          rfl
      | released _ => cases entry

theorem Traffic.Run.generation_since (run : Traffic.Run history traffic)
    (ran : Traffic.Run earlier before) (past : earlier <:+ history) (slot : Nat) :
    traffic.generation slot = before.generation slot +
      UInt32.ofNat (retirements slot history - retirements slot earlier) := by
  rw [run.generation_eq, ran.generation_eq, ← UInt32.ofNat_add,
    Nat.add_sub_cancel' (retirements_mono past)]

theorem Traffic.Run.unnamed_since (run : Traffic.Run history traffic)
    (ran : Traffic.Run earlier before) (past : earlier <:+ history)
    (resident : before.resident frame.id.index = some frame)
    (retired : retirements frame.id.index earlier < retirements frame.id.index history)
    (few : retirements frame.id.index history < retirements frame.id.index earlier + 2 ^ 32) :
    traffic.subsystem.frames.frame? frame.id = none := by
  rw [Option.eq_none_iff_forall_ne_some]
  intro other found
  obtain ⟨residentNow, same⟩ := FrameTable.frame?_eq_some_iff.mp found
  have sooner := Traffic.generation_of_resident resident
  have now := Traffic.generation_of_resident residentNow
  rw [same] at now
  have since := run.generation_since ran past frame.id.index
  rw [← sooner, ← now] at since
  have full : UInt32.ofNat
      (retirements frame.id.index history - retirements frame.id.index earlier) = 0 := by
    simpa using since
  have within : retirements frame.id.index history - retirements frame.id.index earlier <
      UInt32.size := by
    have size : UInt32.size = 2 ^ 32 := rfl
    omega
  have nowhere := congrArg UInt32.toNat full
  rw [UInt32.toNat_ofNat_of_lt' within, UInt32.toNat_zero] at nowhere
  omega

theorem Traffic.Run.unnamed_of_takenOut (run : Traffic.Run history traffic)
    {moment : Moment bits} (past : moment :: earlier <:+ history)
    (leaves : frame ∈ moment.takenOut)
    (few : retirements frame.id.index history < retirements frame.id.index earlier + 2 ^ 32) :
    traffic.subsystem.frames.frame? frame.id = none := by
  obtain ⟨ran, step⟩ := run.at_moment past
  obtain ⟨resident, empty⟩ := step.leaves_of_takenOut leaves
  have retires : moment.retires frame.id.index = true := by
    rw [Moment.retires_eq resident, Option.isNone_iff_eq_none, Option.eq_none_iff_forall_ne_some]
    intro other found
    cases empty.symm.trans (FrameTable.frame?_eq_some_iff.mp found).1
  have counted : retirements frame.id.index (moment :: earlier) ≤
      retirements frame.id.index history := retirements_mono past
  rw [retirements_cons, retires, if_pos rfl] at counted
  exact run.unnamed_since ran ((List.suffix_cons _ _).trans past) resident (by omega) few

theorem Traffic.Run.takenOut_once (run : Traffic.Run history traffic)
    {moment again : Moment bits} {sooner : List (Moment bits)} (now : again :: sooner <:+ history)
    (past : moment :: earlier <:+ sooner) (leaves : frame ∈ moment.takenOut)
    (few : retirements frame.id.index history < retirements frame.id.index earlier + 2 ^ 32) :
    ∀ other ∈ again.takenOut, other.id ≠ frame.id := by
  intro other leavesAgain same
  obtain ⟨ran, step⟩ := run.at_moment now
  have fewer : retirements frame.id.index sooner ≤ retirements frame.id.index history :=
    retirements_mono ((List.suffix_cons again sooner).trans now)
  have unnamed := ran.unnamed_of_takenOut past leaves (by omega)
  have named := Traffic.frame?_of_resident (step.leaves_of_takenOut leavesAgain).1
  rw [same, unnamed] at named
  cases named

theorem Traffic.Run.free_released (run : Traffic.Run history traffic) {left : Option FrameId}
    {freed : Subsystem bits}
    (returned : free (some id) traffic.subsystem = .ok (.released, left) freed) :
    ∃ moment earlier later, history <:+ earlier ∧ moment :: earlier <:+ later ∧
      moment.takenOut.map Frame.id = [id] ∧ Traffic.Run later ⟨freed, traffic.calls⟩ := by
  cases Subsystem.Frees.of_ok run.sound.wellFormed returned with
  | @released _ frame _ named unpinned result =>
      obtain ⟨_, rfl⟩ := FrameTable.frame?_eq_some_iff.mp named
      obtain ⟨frames, detached, removed⟩ := FrameTable.detach_of_unpinned named unpinned
      cases removed.symm.trans result.removed
      obtain ⟨given, gave, _⟩ := result.page
      have begun := run.step (.begin (Eq.refl (Call.free (some frame.id)).isEntry))
      have takes : Traffic.Step ⟨traffic.subsystem, [] ++ .free (some frame.id) :: traffic.calls⟩
          (.went (.free (some frame.id)) (.goesOn (.release [frame.kpage] (.freed .released none))))
          ⟨{ traffic.subsystem with frames := freed.frames },
            [] ++ ([.release [frame.kpage] (.freed .released none)] ++ traffic.calls)⟩ :=
        .proceed (.freed detached)
      have taken := begun.step takes
      obtain ⟨second, sinceTaken, gone⟩ := taken.piece (.released gave)
      obtain ⟨third, sinceGone, ended⟩ := gone.piece (.releasedAll _ _)
      have noted : Traffic.Step
          ⟨{ traffic.subsystem with frames := freed.frames, supply := freed.supply },
            traffic.calls⟩ .outside ⟨freed, traffic.calls⟩ := .outside rfl
      have since := sinceTaken.trans sinceGone
      refine ⟨_, _, _, List.suffix_cons _ _, since.trans (List.suffix_cons _ _), ?_,
        ended.step noted⟩
      change (traffic.subsystem.frames.frame? frame.id).toList.map Frame.id = _
      rw [named]
      rfl

/-- Freeing an entry does what the frame that it names asks for, and leaves everything else alone.
Once the frame has been released, whoever still names it finds nothing and its page is not given back
again, as long as its slot is retired fewer times than there are generations, this time included. -/
theorem Traffic.Run.frees_once (run : Traffic.Run history traffic) :
    (∀ entry outcome left after,
      free entry traffic.subsystem = .ok (outcome, left) after ↔
        traffic.subsystem.Frees entry outcome left after) ∧
    (traffic.subsystem.log.Accepts →
      traffic.subsystem.supply.EndsFit ∨ traffic.subsystem.Backed →
        ∀ entry, ∃ outcome left after,
          free entry traffic.subsystem = .ok (outcome, left) after) ∧
    (∀ id left freed, free (some id) traffic.subsystem = .ok (.released, left) freed →
      ∃ moment earlier later, history <:+ earlier ∧ moment :: earlier <:+ later ∧
        moment.takenOut.map Frame.id = [id] ∧ Traffic.Run later ⟨freed, traffic.calls⟩) ∧
    ∀ moment earlier, moment :: earlier <:+ history →
      (∀ call pages answer, call.isEntry = true →
        moment.event = .went call (.goesOn (.release pages answer)) →
          pages = moment.takenOut.map Frame.kpage) ∧
      (moment.takenOut.map Frame.id).Nodup ∧
      ∀ frame ∈ moment.takenOut,
        retirements frame.id.index history < retirements frame.id.index earlier + 2 ^ 32 →
          traffic.subsystem.frames.frame? frame.id = none ∧
          (∀ entry outcome left after, entry = none ∨ entry = some frame.id →
            free entry traffic.subsystem = .ok (outcome, left) after →
              outcome = .notResident ∧ left = none ∧
                ∃ log, after = { traffic.subsystem with log }) ∧
          ∀ again sooner, again :: sooner <:+ history → moment :: earlier <:+ sooner →
            ∀ other ∈ again.takenOut, other.id ≠ frame.id := by
  have wellFormed := run.sound.wellFormed
  refine ⟨?_, ?_, ?_, ?_⟩
  · intro entry outcome left after
    exact ⟨.of_ok wellFormed, Subsystem.Frees.ok⟩
  · intro accepts answers entry
    obtain ⟨outcome, left, after, frees⟩ :=
      Subsystem.frees_exists wellFormed accepts answers entry
    exact ⟨outcome, left, after, frees.ok⟩
  · intro id left freed returned
    exact run.free_released returned
  · intro moment earlier past
    refine ⟨?_, moment.takenOut_nodup, ?_⟩
    · intro call pages answer entry happened
      have step := (run.at_moment past).2
      rw [happened] at step
      have same := step.pages_takenOut entry
      rw [← happened] at same
      exact same
    · intro frame leaves few
      have unnamed := run.unnamed_of_takenOut past leaves few
      refine ⟨unnamed, ?_, ?_⟩
      · intro entry outcome left after copied freed
        exact (Subsystem.Frees.of_ok wellFormed freed).of_unnamed unnamed copied
      · intro again sooner now before
        exact run.takenOut_once now before leaves few

end Runs

/-- The frame of thread 1 is being written back for thread 4. Meanwhile the frame of thread 2 was
freed, and thread 5 has come into its slot. -/
def Traffic.freedBeside : List (Moment TouchedSet) × Traffic TouchedSet :=
  Traffic.play
    (Move.through (.obtain (.simple 1)) 3 ++ Move.through (.unpin ⟨0, 0⟩) 1 ++
      Move.through (.obtain (.simple 2)) 3 ++ Move.through (.unpin ⟨1, 0⟩) 1 ++
      Move.through (.obtain (.simple 3)) 3 ++ Move.through (.unpin ⟨2, 0⟩) 1 ++
      Move.through (.obtain (.simple 4)) 3 ++ Move.through (.free (some ⟨1, 0⟩)) 3 ++
      Move.through (.obtain (.simple 5)) 3)
    ([], Traffic.idle 3)

theorem Traffic.run_freedBeside : Traffic.Run Traffic.freedBeside.1 Traffic.freedBeside.2 :=
  (Traffic.run_idle 3).play _

theorem Traffic.freedBeside_backed : Traffic.freedBeside.2.subsystem.Backed :=
  Traffic.backed_of_play (by decide) _ (by decide +kernel) (by decide +kernel)

/-- The victim stays, the name that thread 2 had is dropped, and the frame of thread 3 leaves. -/
theorem Traffic.freedBeside_frees :
    Traffic.freedBeside.2.flights.length = 1 ∧
      free (some ⟨0, 0⟩) Traffic.freedBeside.2.subsystem =
        .ok (.pinned, some ⟨0, 0⟩) Traffic.freedBeside.2.subsystem ∧
      (∃ log, free (some ⟨1, 0⟩) Traffic.freedBeside.2.subsystem =
        .ok (.notResident, none) { Traffic.freedBeside.2.subsystem with log }) ∧
      ∃ after, free (some ⟨2, 0⟩) Traffic.freedBeside.2.subsystem = .ok (.released, none) after ∧
        after.frames.residents.map Frame.id = [⟨0, 0⟩, ⟨1, 1⟩] ∧
        (after.supply.serving .user).bitmap.free = 1 := by
  have victim : Traffic.freedBeside.2.subsystem.frames.frame? ⟨0, 0⟩ = some Frame.first := by
    decide +kernel
  have unheard : Traffic.freedBeside.2.subsystem.log.sink = none := by decide +kernel
  obtain ⟨frees, returns, _, moments⟩ := Traffic.run_freedBeside.frees_once
  have answers := returns (.inl unheard) (.inr Traffic.freedBeside_backed)
  refine ⟨by decide +kernel, ?_, ?_, ?_⟩
  · exact (frees _ _ _ _).mpr (.pinned victim rfl)
  · have happened : 6 < Traffic.freedBeside.1.length := by decide +kernel
    have left : Traffic.freedBeside.1[6].takenOut.map Frame.id = [⟨1, 0⟩] := by
      revert happened
      decide +kernel
    have past : Traffic.freedBeside.1[6] :: Traffic.freedBeside.1.drop 7 <:+
        Traffic.freedBeside.1 := by
      rw [List.getElem_cons_drop]
      exact List.drop_suffix 6 _
    have few : retirements 1 Traffic.freedBeside.1 <
        retirements 1 (Traffic.freedBeside.1.drop 7) + 2 ^ 32 := by decide +kernel
    obtain ⟨frame, only, name⟩ := List.map_eq_singleton_iff.mp left
    have leaves : frame ∈ Traffic.freedBeside.1[6].takenOut := by
      rw [only]
      exact List.mem_singleton_self frame
    rw [← name]
    have slot : frame.id.index = 1 := congrArg FrameId.index name
    rw [← slot] at few
    obtain ⟨outcome, entry, after, freed⟩ := answers (some frame.id)
    obtain ⟨rfl, rfl, log, rfl⟩ :=
      ((moments _ _ past).2.2 frame leaves few).2.1 _ _ _ _ (.inr rfl) freed
    exact ⟨log, freed⟩
  · obtain ⟨outcome, entry, after, freed⟩ := answers (some ⟨2, 0⟩)
    have unpinned : (Traffic.freedBeside.2.subsystem.frames.frame? ⟨2, 0⟩).map Frame.pinned =
        some false := by
      decide +kernel
    cases (frees _ _ _ _).mp freed with
    | stale unnamed _ =>
        rw [unnamed] at unpinned
        cases unpinned
    | pinned named isPinned =>
        rw [named, Option.map_some, isPinned] at unpinned
        cases unpinned
    | released named _ result =>
        refine ⟨after, freed, ?_, ?_⟩
        · rw [result.residents, (FrameTable.frame?_eq_some_iff.mp named).2]
          decide +kernel
        · rw [(result.restocked Traffic.freedBeside_backed).free, List.length_singleton]
          decide +kernel

end KernelPaging
