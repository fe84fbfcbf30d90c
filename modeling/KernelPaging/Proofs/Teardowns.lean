import KernelPaging.Proofs.Issues
import KernelPaging.Proofs.Schedules

/-!
Teardowns that walk their table one entry at a time. The table lock is held for the whole walk, so
meanwhile only those pieces of other calls proceed that do not take the lock. Seen from outside,
such a walk is one step: every run with walks is a run of the calls as a whole, up to the order in
which the calls are listed. Every state therefore counts its evictions in flight, and a walk that
begins with none in flight ends with none.
-/

set_option autoImplicit false

namespace KernelPaging

/-- The next piece of the call is a section under the table lock. -/
def Call.takesLock : Call → Bool
  | .bind .. | .reclaim _ | .finish .. | .free (some _) | .unpin _ | .look _ | .tearDown .. => true
  | _ => false

def Event.takesLock : Event → Bool
  | .went call _ => call.takesLock
  | _ => false

def Event.tearsDown : Event → Bool
  | .went (.tearDown ..) (.goesOn (.release ..)) => true
  | _ => false

def FrameTable.visit (table : FrameTable) (entry : Option FrameId) :
    Option FrameRecord × FrameTable :=
  match entry.bind table.remove with
  | none => (none, table)
  | some (record, table) => (some record, table)

theorem FrameTable.removeNamed_cons (table : FrameTable) (entry : Option FrameId)
    (entries : SupplementalTable) :
    table.removeNamed (entry :: entries) =
      ((table.visit entry).1.toList ++ ((table.visit entry).2.removeNamed entries).1,
        ((table.visit entry).2.removeNamed entries).2) := by
  cases entry with
  | none => rfl
  | some id =>
      unfold FrameTable.visit
      rw [FrameTable.removeNamed, Option.bind_some]
      cases table.remove id with
      | none => rfl
      | some removed => rfl

theorem FrameTable.visit_barrier (table : FrameTable) (entry : Option FrameId) :
    (table.visit entry).2.barrier = table.barrier := by
  unfold FrameTable.visit
  cases removed : entry.bind table.remove with
  | none => rfl
  | some taken =>
      obtain ⟨record, after⟩ := taken
      obtain ⟨id, _, taken⟩ := Option.bind_eq_some_iff.mp removed
      obtain ⟨occupant, _, _, rfl⟩ := FrameTable.remove_eq_some_iff.mp taken
      exact table.discard_barrier id.index occupant

/-- A teardown that holds the lock: the frame table as it found it, the entries it has gone through
and those still before it, and the frames it has taken out. -/
structure Clearance where
  owner : ThreadId
  found : FrameTable
  visited : SupplementalTable := []
  pending : SupplementalTable
  records : List FrameRecord := []

def Clearance.table (clearance : Clearance) : SupplementalTable :=
  clearance.visited ++ clearance.pending

theorem Clearance.table_visit {clearance : Clearance} {entry : Option FrameId}
    {pending : SupplementalTable} (next : clearance.pending = entry :: pending) :
    clearance.visited ++ [entry] ++ pending = clearance.table := by
  unfold Clearance.table
  rw [next, List.append_assoc]
  rfl

/-- Calls under way, one of which may be holding the lock for a clearance. That one is not in the
list. -/
structure LockedTraffic (bits : Type) extends Traffic bits where
  clearance : Option Clearance := none

inductive LockedEvent
  | went (event : Event)
  | entered (owner : ThreadId) (table : SupplementalTable)
  | visited (owner : ThreadId) (table : SupplementalTable) (removed : Option FrameRecord)
  | left (owner : ThreadId) (table : SupplementalTable)

section Steps

variable {bits : Type} [AccessedBits bits]

inductive LockedTraffic.Step : LockedTraffic bits → LockedEvent → LockedTraffic bits → Prop
  | went {before after : Traffic bits} {event : Event} {clearance : Option Clearance} :
      before.Step event after → event.tearsDown = false →
      (event.takesLock = true → clearance = none) →
      Step ⟨before, clearance⟩ (.went event) ⟨after, clearance⟩
  | enters {subsystem : Subsystem bits} {earlier later : List Call} {owner : ThreadId}
      {table : SupplementalTable} : subsystem.frames.barrier.inFlight = 0 →
      Step ⟨⟨subsystem, earlier ++ .tearDown owner table :: later⟩, none⟩ (.entered owner table)
        ⟨⟨subsystem, earlier ++ later⟩,
          some { owner, found := subsystem.frames, pending := table }⟩
  | visits {subsystem : Subsystem bits} {calls : List Call} {clearance : Clearance}
      {entry : Option FrameId} {pending : SupplementalTable} :
      clearance.pending = entry :: pending →
      Step ⟨⟨subsystem, calls⟩, some clearance⟩
        (.visited clearance.owner clearance.table (subsystem.frames.visit entry).1)
        ⟨⟨{ subsystem with frames := (subsystem.frames.visit entry).2 }, calls⟩,
          some { clearance with
            visited := clearance.visited ++ [entry]
            pending
            records := clearance.records ++ (subsystem.frames.visit entry).1.toList }⟩
  | leaves {subsystem : Subsystem bits} {calls : List Call} {clearance : Clearance} :
      clearance.pending = [] →
      Step ⟨⟨subsystem, calls⟩, some clearance⟩ (.left clearance.owner clearance.table)
        ⟨⟨subsystem, .release (clearance.records.map FrameRecord.kpage)
          (.cleared (clearance.table.map fun _ => none)) :: calls⟩, none⟩

structure LockedMoment (bits : Type) where
  before : LockedTraffic bits
  event : LockedEvent
  after : LockedTraffic bits

inductive LockedTraffic.Run : List (LockedMoment bits) → LockedTraffic bits → Prop
  | start {subsystem : Subsystem bits} : subsystem.frames = {} → Run [] { subsystem }
  | step {history : List (LockedMoment bits)} {before after : LockedTraffic bits}
      {event : LockedEvent} : Run history before → before.Step event after →
      Run (⟨before, event, after⟩ :: history) after

/-! ### A walk is one step of its call -/

/-- The state as it looks without the lock: a walk has not begun until it is over. -/
def LockedTraffic.outside (traffic : LockedTraffic bits) : Traffic bits :=
  match traffic.clearance with
  | none => traffic.toTraffic
  | some clearance =>
      ⟨{ traffic.subsystem with frames := clearance.found },
        .tearDown clearance.owner clearance.table :: traffic.calls⟩

structure Clearance.Underway (clearance : Clearance) (frames : FrameTable) : Prop where
  idle : clearance.found.barrier.inFlight = 0
  barrier : frames.barrier = clearance.found.barrier
  removes : clearance.found.removeNamed clearance.table =
    (clearance.records ++ (frames.removeNamed clearance.pending).1,
      (frames.removeNamed clearance.pending).2)

theorem Clearance.Underway.visit {clearance : Clearance} {frames : FrameTable}
    {entry : Option FrameId} {pending : SupplementalTable} (underway : clearance.Underway frames)
    (next : clearance.pending = entry :: pending) :
    Clearance.Underway
      { clearance with
        visited := clearance.visited ++ [entry]
        pending
        records := clearance.records ++ (frames.visit entry).1.toList } (frames.visit entry).2 := by
  have removes := underway.removes
  rw [next, FrameTable.removeNamed_cons] at removes
  refine ⟨underway.idle, (frames.visit_barrier entry).trans underway.barrier, ?_⟩
  change clearance.found.removeNamed (clearance.visited ++ [entry] ++ pending) = _
  rw [Clearance.table_visit next, removes, List.append_assoc]

/-- Pieces of other calls without the lock leave the frame table alone, and do not read it but for
the epoch. -/
theorem Traffic.Step.without_lock {before after : Traffic bits} {event : Event}
    {frames : FrameTable} (step : before.Step event after) (lockFree : event.takesLock = false)
    (barrier : before.subsystem.frames.barrier = frames.barrier) :
    after.subsystem.frames = before.subsystem.frames ∧
      Traffic.Step ⟨{ before.subsystem with frames }, before.calls⟩ event
        ⟨{ after.subsystem with frames }, after.calls⟩ := by
  cases step with
  | begin entry => exact ⟨rfl, .begin entry⟩
  | outside same => exact ⟨same, .outside rfl⟩
  | proceed proceeds =>
      cases proceeds with
      | obtained page => exact ⟨rfl, .proceed (.obtained page)⟩
      | exhausted none => exact ⟨rfl, .proceed (.exhausted none)⟩
      | obtainStops stopped => exact ⟨rfl, .proceed (.obtainStops stopped)⟩
      | writes flight => exact ⟨rfl, .proceed (.writes _ flight)⟩
      | written flight written => exact ⟨rfl, .proceed (.written _ flight written)⟩
      | handed frame zero => exact ⟨rfl, .proceed (.handed _ frame zero)⟩
      | freedNothing => exact ⟨rfl, .proceed (.freedNothing _)⟩
      | woken moved =>
          rw [barrier] at moved
          exact ⟨rfl, .proceed (.woken moved)⟩
      | released given => exact ⟨rfl, .proceed (.released given)⟩
      | releaseStops stopped => exact ⟨rfl, .proceed (.releaseStops stopped)⟩
      | releasedAll answer => exact ⟨rfl, .proceed (.releasedAll _ answer)⟩
      | _ => cases lockFree

theorem Traffic.Step.beside (extra : List Call) {subsystem : Subsystem bits}
    {calls others : List Call} {after : Traffic bits} {event : Event}
    (step : Traffic.Step ⟨subsystem, calls⟩ event after)
    (same : others.Perm (extra ++ calls)) :
    ∃ left, Traffic.Step ⟨subsystem, others⟩ event ⟨after.subsystem, left⟩ ∧
      left.Perm (extra ++ after.calls) := by
  cases step with
  | @begin _ call entry =>
      refine ⟨call :: others, .begin entry, ?_⟩
      exact (same.cons call).trans List.perm_middle.symm
  | outside kept => exact ⟨others, .outside kept, same⟩
  | @proceed _ subsystemAfter call outcome earlier later proceeds =>
      have member : call ∈ others := by
        rw [same.mem_iff]
        simp
      obtain ⟨front, back, rfl⟩ := List.append_of_mem member
      refine ⟨front ++ (outcome.calls ++ back), .proceed proceeds, ?_⟩
      have apart : (call :: (front ++ back)).Perm (call :: (extra ++ earlier ++ later)) := by
        refine List.perm_middle.symm.trans (same.trans ?_)
        rw [← List.append_assoc]
        exact List.perm_middle
      refine (List.perm_append_comm_assoc _ _ _).trans ?_
      rw [← List.append_assoc extra]
      refine (apart.cons_inv.append_left outcome.calls).trans ?_
      exact List.perm_append_comm_assoc _ _ _

structure LockedTraffic.Refines (traffic : LockedTraffic bits) : Prop where
  whole : ∃ history calls, Traffic.Run history ⟨traffic.outside.subsystem, calls⟩ ∧
    calls.Perm traffic.outside.calls
  underway : ∀ clearance, traffic.clearance = some clearance →
    clearance.Underway traffic.subsystem.frames

theorem LockedTraffic.Step.refines {before after : LockedTraffic bits} {event : LockedEvent}
    (step : before.Step event after) (refines : before.Refines) : after.Refines := by
  obtain ⟨⟨history, calls, run, same⟩, underway⟩ := refines
  cases step with
  | @went before after event clearance step ordinary exclusive =>
      cases clearance with
      | none =>
          obtain ⟨left, whole, listed⟩ := step.beside [] same
          exact ⟨⟨_, left, run.step whole, listed⟩, nofun⟩
      | some clearance =>
          -- The piece does the same to the state in which the walk has not begun.
          have lockFree : event.takesLock = false := by
            cases takes : event.takesLock with
            | false => rfl
            | true => cases exclusive takes
          have under := underway clearance rfl
          obtain ⟨kept, elsewhere⟩ := step.without_lock lockFree under.barrier
          obtain ⟨left, whole, listed⟩ :=
            elsewhere.beside [.tearDown clearance.owner clearance.table] same
          refine ⟨⟨_, left, run.step whole, listed⟩, ?_⟩
          intro other isClearance
          cases isClearance
          change clearance.Underway after.subsystem.frames
          rw [kept]
          exact under
  | @enters subsystem earlier later owner table idle =>
      refine ⟨⟨history, calls, run, same.trans List.perm_middle⟩, ?_⟩
      intro clearance isClearance
      cases isClearance
      exact ⟨idle, rfl, rfl⟩
  | @visits subsystem listed clearance entry pending next =>
      refine ⟨⟨history, calls, run, ?_⟩, ?_⟩
      · change calls.Perm
          (.tearDown clearance.owner (clearance.visited ++ [entry] ++ pending) :: listed)
        rw [Clearance.table_visit next]
        exact same
      · intro other isClearance
        cases isClearance
        exact (underway clearance rfl).visit next
  | @leaves subsystem listed clearance done =>
      -- Only now does the call take its step, and takes out all frames at once.
      have under := underway clearance rfl
      have removes := under.removes
      rw [done, FrameTable.removeNamed, List.append_nil] at removes
      have whole : Traffic.Step
          ⟨{ subsystem with frames := clearance.found },
            [] ++ .tearDown clearance.owner clearance.table :: listed⟩
          (.went _ _) _ := .proceed (.tornDown under.idle)
      rw [removes] at whole
      obtain ⟨left, step, listed⟩ := whole.beside [] same
      exact ⟨⟨_, left, run.step step, listed⟩, nofun⟩

theorem LockedTraffic.Run.refines {history : List (LockedMoment bits)}
    {traffic : LockedTraffic bits} (run : LockedTraffic.Run history traffic) :
    traffic.Refines := by
  induction run with
  | start empty => exact ⟨⟨[], [], .start empty, .refl _⟩, nofun⟩
  | step _ step ih => exact step.refines ih

def LockedTraffic.inFlight (traffic : LockedTraffic bits) : Nat :=
  traffic.subsystem.frames.barrier.inFlight

theorem LockedTraffic.Refines.counted {traffic : LockedTraffic bits} (refines : traffic.Refines) :
    traffic.inFlight = traffic.flights.length := by
  obtain ⟨⟨history, calls, run, same⟩, underway⟩ := refines
  have counted := run.sound.counted
  unfold Traffic.flights at counted
  rw [(same.filterMap Call.flight?).length_eq] at counted
  obtain ⟨traffic, clearance⟩ := traffic
  cases clearance with
  | none => exact counted
  | some clearance =>
      unfold LockedTraffic.inFlight
      rw [(underway clearance rfl).barrier]
      exact counted

theorem LockedTraffic.Refines.idle {traffic : LockedTraffic bits} (refines : traffic.Refines)
    {clearance : Clearance} (holds : traffic.clearance = some clearance) :
    traffic.inFlight = 0 := by
  have underway := refines.underway clearance holds
  unfold LockedTraffic.inFlight
  rw [underway.barrier, underway.idle]

def Event.selects : Event → Bool
  | .went (.reclaim _) (.goesOn _) => true
  | _ => false

/-- An eviction is over, whether its writeback succeeded, failed or lost its victim. -/
def Event.finalises : Event → Bool
  | .went (.finish ..) _ => true
  | _ => false

def LockedEvent.selects : LockedEvent → Bool
  | .went event => event.selects
  | _ => false

def LockedEvent.finalises : LockedEvent → Bool
  | .went event => event.finalises
  | _ => false

theorem Call.Proceeds.accounts {before after : Subsystem bits} {call : Call} {outcome : Outcome}
    (proceeds : call.Proceeds before outcome after) :
    call.flight?.toList.length + (Event.went call outcome).selects.toNat =
      (outcome.calls.filterMap Call.flight?).length +
        (Event.went call outcome).finalises.toNat := by
  cases proceeds <;> rfl

theorem Traffic.Step.accounts {before after : Traffic bits} {event : Event}
    (step : before.Step event after) :
    before.flights.length + event.selects.toNat =
      after.flights.length + event.finalises.toNat := by
  cases step with
  | @begin traffic call entry =>
      unfold Traffic.flights
      cases call with
      | obtain | free | unpin | look | tearDown => rfl
      | _ => cases entry
  | outside _ => rfl
  | @proceed _ _ call outcome earlier later proceeds =>
      have accounts := proceeds.accounts
      rw [flights_around, flights_past]
      simp only [List.length_append]
      omega

theorem LockedTraffic.Step.accounts {before after : LockedTraffic bits} {event : LockedEvent}
    (step : before.Step event after) :
    before.flights.length + event.selects.toNat =
      after.flights.length + event.finalises.toNat := by
  cases step with
  | went step _ _ => exact step.accounts
  | enters _ =>
      change (Traffic.flights _).length = (Traffic.flights _).length
      unfold Traffic.flights
      rw [List.filterMap_append, List.filterMap_append]
      rfl
  | visits _ => rfl
  | leaves _ => rfl

theorem LockedTraffic.Run.accounts {history : List (LockedMoment bits)}
    {traffic : LockedTraffic bits} (run : LockedTraffic.Run history traffic) :
    history.countP (·.event.selects) =
      history.countP (·.event.finalises) + traffic.flights.length := by
  induction run with
  | start _ => rfl
  | step run step ih =>
      have accounts := step.accounts
      have once : ∀ flag : Bool, (if flag = true then 1 else 0) = flag.toNat := by decide
      rw [List.countP_cons, List.countP_cons, ih, once, once]
      dsimp only
      omega

theorem LockedTraffic.Run.at_moment {history : List (LockedMoment bits)}
    {traffic : LockedTraffic bits} (run : LockedTraffic.Run history traffic)
    {moment : LockedMoment bits} {earlier : List (LockedMoment bits)}
    (past : moment :: earlier <:+ history) :
    LockedTraffic.Run earlier moment.before ∧ moment.before.Step moment.event moment.after := by
  induction run with
  | start _ => cases List.eq_nil_of_suffix_nil past
  | step run step ih =>
      rcases List.suffix_cons_iff.mp past with same | before
      · cases same
        exact ⟨run, step⟩
      · exact ih before

theorem LockedTraffic.Step.leaves_barrier {before after : LockedTraffic bits} {event : LockedEvent}
    (step : before.Step event after) (counted : before.inFlight = before.flights.length)
    (flight : Flight) (written : Bool) :
    event ≠ .went (.went (.finish flight written) (.ends (.stopped .exitWithoutEnter))) := by
  intro happened
  subst happened
  cases step with
  | @went before after _ _ step _ _ =>
      have member : flight ∈ before.flights :=
        List.mem_filterMap.mpr ⟨_, step.mem_calls, rfl⟩
      have busy := List.length_pos_of_mem member
      cases step with
      | proceed proceeds =>
          cases proceeds with
          | finishStops stopped =>
              rw [← counted] at busy
              obtain ⟨ending, middle, finished⟩ := FrameTable.finishEviction_exists busy
              rw [finished] at stopped
              cases stopped

theorem LockedTraffic.Run.clearance_open {earlier : List (LockedMoment bits)}
    {visit : LockedMoment bits} {owner : ThreadId} {table : SupplementalTable}
    {removed : Option FrameRecord} (happened : visit.event = .visited owner table removed)
    (between : List (LockedMoment bits)) : ∀ {traffic : LockedTraffic bits},
    LockedTraffic.Run (between ++ visit :: earlier) traffic →
      (∃ leave ∈ between, leave.event = .left owner table ∧
        ∃ clearance, leave.before.clearance = some clearance ∧ clearance.visited = table) ∨
      ∃ clearance, traffic.clearance = some clearance ∧ clearance.owner = owner ∧
        clearance.table = table := by
  induction between with
  | nil =>
      intro traffic run
      cases run with
      | step run step =>
          subst happened
          cases step with
          | visits next => exact .inr ⟨_, rfl, rfl, Clearance.table_visit next⟩
  | cons moment between ih =>
      intro traffic run
      cases run with
      | step run step =>
          rcases ih run with ⟨leave, member, left⟩ | ⟨clearance, holds, ownerIs, tableIs⟩
          · exact .inl ⟨leave, List.mem_cons_of_mem _ member, left⟩
          · cases step with
            | went _ _ _ => exact .inr ⟨clearance, holds, ownerIs, tableIs⟩
            | enters _ => cases holds
            | visits next =>
                cases holds
                exact .inr ⟨_, rfl, ownerIs, (Clearance.table_visit next).trans tableIs⟩
            | leaves done =>
                cases holds
                left
                refine ⟨_, List.mem_cons_self, ?_, clearance, rfl, ?_⟩
                · rw [ownerIs, tableIs]
                · rw [← tableIs]
                  unfold Clearance.table
                  rw [done, List.append_nil]

theorem LockedTraffic.Step.selects_alone {before after : LockedTraffic bits} {event : LockedEvent}
    (step : before.Step event after) (selects : event.selects = true) :
    before.clearance = none := by
  cases step with
  | @went before after event _ step _ exclusive =>
      apply exclusive
      unfold LockedEvent.selects Event.selects at selects
      dsimp only at selects
      split at selects
      · rfl
      · cases selects
  | enters _ => cases selects
  | visits _ => cases selects
  | leaves _ => cases selects

/-- The barrier counts the evictions that have selected a victim and are not over, however they end,
and is never left by one that is not counted. A teardown visits the entries of its table only while
the barrier counts none, and from its first visit until its last no eviction selects a victim. -/
theorem LockedTraffic.Run.teardown_excludes {history : List (LockedMoment bits)}
    {traffic : LockedTraffic bits} (run : LockedTraffic.Run history traffic) :
    traffic.inFlight = traffic.flights.length ∧
    history.countP (·.event.selects) =
      history.countP (·.event.finalises) + traffic.inFlight ∧
    (∀ moment ∈ history, ∀ flight written, moment.event ≠
      .went (.went (.finish flight written) (.ends (.stopped .exitWithoutEnter)))) ∧
    (∀ moment ∈ history, ∀ owner table removed, moment.event = .visited owner table removed →
      moment.before.inFlight = 0 ∧ moment.after.inFlight = 0) ∧
    ∀ selection between visit earlier owner table removed,
      selection :: (between ++ visit :: earlier) <:+ history → selection.event.selects = true →
      visit.event = .visited owner table removed →
      ∃ leave ∈ between, leave.event = .left owner table ∧
        ∃ clearance, leave.before.clearance = some clearance ∧ clearance.visited = table := by
  have counted := run.refines.counted
  refine ⟨counted, ?_, ?_, ?_, ?_⟩
  · rw [counted]
    exact run.accounts
  · intro moment member flight written
    obtain ⟨later, earlier, rfl⟩ := List.append_of_mem member
    obtain ⟨ran, step⟩ := run.at_moment (List.suffix_append later (moment :: earlier))
    exact step.leaves_barrier ran.refines.counted flight written
  · intro moment member owner table removed happened
    obtain ⟨later, earlier, rfl⟩ := List.append_of_mem member
    obtain ⟨ran, step⟩ := run.at_moment (List.suffix_append later (moment :: earlier))
    obtain ⟨before, event, after⟩ := moment
    subst happened
    have refines := step.refines ran.refines
    cases step with
    | visits _ => exact ⟨ran.refines.idle rfl, refines.idle rfl⟩
  · intro selection between visit earlier owner table removed past selects happened
    obtain ⟨ran, step⟩ := run.at_moment past
    rcases ran.clearance_open happened between with left | ⟨clearance, holds, _⟩
    · exact left
    · rw [step.selects_alone selects] at holds
      cases holds

inductive LockedMove
  | move (move : Move)
  | enter (place : Nat)
  | clear

def LockedTraffic.perform (traffic : LockedTraffic bits) :
    LockedMove → Option (LockedEvent × LockedTraffic bits)
  | .move move =>
      match traffic.toTraffic.perform move with
      | none => none
      | some (event, after) =>
          if event.tearsDown || (event.takesLock && traffic.clearance.isSome) then none
          else some (.went event, ⟨after, traffic.clearance⟩)
  | .enter place =>
      match traffic.clearance, traffic.calls.drop place with
      | none, .tearDown owner table :: later =>
          if traffic.inFlight = 0 then
            some (.entered owner table,
              ⟨⟨traffic.subsystem, traffic.calls.take place ++ later⟩,
                some { owner, found := traffic.subsystem.frames, pending := table }⟩)
          else
            none
      | _, _ => none
  | .clear =>
      match traffic.clearance with
      | none => none
      | some clearance =>
          match clearance.pending with
          | [] =>
              some (.left clearance.owner clearance.table,
                ⟨⟨traffic.subsystem, .release (clearance.records.map FrameRecord.kpage)
                  (.cleared (clearance.table.map fun _ => none)) :: traffic.calls⟩, none⟩)
          | entry :: pending =>
              let (removed, frames) := traffic.subsystem.frames.visit entry
              some (.visited clearance.owner clearance.table removed,
                ⟨⟨{ traffic.subsystem with frames }, traffic.calls⟩,
                  some { clearance with
                    visited := clearance.visited ++ [entry]
                    pending
                    records := clearance.records ++ removed.toList }⟩)

theorem LockedTraffic.step_of_perform {before after : LockedTraffic bits} {move : LockedMove}
    {event : LockedEvent} (performed : before.perform move = some (event, after)) :
    before.Step event after := by
  obtain ⟨⟨subsystem, calls⟩, clearance⟩ := before
  cases move with
  | move move =>
      unfold LockedTraffic.perform at performed
      dsimp only at performed
      split at performed
      · cases performed
      · next event after taken =>
        split at performed
        · cases performed
        · next allowed =>
          cases performed
          rw [Bool.or_eq_true, not_or, Bool.and_eq_true] at allowed
          apply LockedTraffic.Step.went (Traffic.step_of_perform taken)
          · simpa using allowed.1
          · intro takes
            simpa [takes] using allowed.2
  | enter place =>
      unfold LockedTraffic.perform at performed
      dsimp only at performed
      split at performed
      · next owner table later found =>
        split at performed
        · next idle =>
          cases performed
          have whole : calls = calls.take place ++ .tearDown owner table :: later := by
            rw [← found, List.take_append_drop]
          have step : LockedTraffic.Step
              ⟨⟨subsystem, calls.take place ++ .tearDown owner table :: later⟩, none⟩
              (.entered owner table) _ := .enters idle
          rw [← whole] at step
          exact step
        · cases performed
      · cases performed
  | clear =>
      unfold LockedTraffic.perform at performed
      dsimp only at performed
      split at performed
      · cases performed
      · next clearance =>
        split at performed
        · next done =>
          cases performed
          exact .leaves done
        · next entry pending next =>
          cases performed
          exact .visits next

def LockedTraffic.play : List LockedMove → List (LockedMoment bits) × LockedTraffic bits →
    List (LockedMoment bits) × LockedTraffic bits
  | [], run => run
  | move :: moves, (history, traffic) =>
      match traffic.perform move with
      | none => LockedTraffic.play moves (history, traffic)
      | some (event, after) => LockedTraffic.play moves (⟨traffic, event, after⟩ :: history, after)

theorem LockedTraffic.Run.play (moves : List LockedMove) :
    ∀ {history : List (LockedMoment bits)} {traffic : LockedTraffic bits},
      LockedTraffic.Run history traffic →
      LockedTraffic.Run (LockedTraffic.play moves (history, traffic)).1
        (LockedTraffic.play moves (history, traffic)).2 := by
  induction moves with
  | nil =>
      intro history traffic run
      exact run
  | cons move moves ih =>
      intro history traffic run
      unfold LockedTraffic.play
      cases performed : traffic.perform move with
      | none => exact ih run
      | some next => exact ih (run.step (LockedTraffic.step_of_perform performed))

end Steps

/-- Threads 1 and 3 have a frame each, and the frame of thread 3 is being written back for thread 2
when thread 1 ends. Its teardown sleeps until the writeback has failed. Before it has visited its
second entry, thread 2 asks again. -/
def LockedTraffic.teardownAmong : List (LockedMoment TouchedSet) × LockedTraffic TouchedSet :=
  LockedTraffic.play
    ((Move.through (.obtain (.simple 1)) 3 ++ Move.through (.obtain (.simple 3)) 3 ++
        Move.through (.unpin ⟨1, 0⟩) 1 ++ Move.through (.obtain (.simple 2)) 3 ++
        Move.through (.tearDown ⟨1⟩ [some ⟨0, 0⟩, none]) 1 ++
        [Move.proceed 1 false, Move.proceed 1 false, Move.proceed 0 true]).map .move ++
      [.enter 0, .clear] ++ (Move.through (.obtain (.simple 2)) 2).map .move ++
      [.clear, .clear] ++ [.move (.proceed 1 true)])
    ([], { toTraffic := Traffic.idle 2 })

theorem LockedTraffic.run_teardownAmong :
    LockedTraffic.Run LockedTraffic.teardownAmong.1 LockedTraffic.teardownAmong.2 :=
  LockedTraffic.Run.play _ (.start rfl)

theorem LockedTraffic.teardownAmong_excludes :
    LockedTraffic.teardownAmong.2.flights.length = 1 ∧
    LockedTraffic.teardownAmong.1.countP (·.event.selects) = 2 ∧
    ∀ moment ∈ LockedTraffic.teardownAmong.1, ∀ owner table removed,
      moment.event = .visited owner table removed → moment.before.inFlight = 0 := by
  have excludes := LockedTraffic.run_teardownAmong.teardown_excludes
  have busy : LockedTraffic.teardownAmong.2.inFlight = 1 := by decide +kernel
  have finalised : LockedTraffic.teardownAmong.1.countP (·.event.finalises) = 1 := by
    decide +kernel
  refine ⟨excludes.1.symm.trans busy, ?_, ?_⟩
  · rw [excludes.2.1, busy, finalised]
  · intro moment member owner table removed happened
    exact (excludes.2.2.2.1 moment member owner table removed happened).1

end KernelPaging
