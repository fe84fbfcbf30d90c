import KernelPaging.Proofs.Arena
import KernelPaging.Proofs.LockSections
import KernelPaging.Proofs.Marks
import KernelPaging.Proofs.SweepOrder

/-!
Cold frames do not escape the clock. The number of frames that a sweep meets before a given one is a
measure: each selection that does not take the frame lowers it, because the hand then rests in front
of the frame; a new frame raises it by one at most; and nothing else that is done to the other
frames raises it.
-/

set_option autoImplicit false

namespace KernelPaging

/-- The slot holds an unpinned frame, and its page is not touched. -/
def FrameTable.Cold {bits : Type} [AccessedBits bits] (table : FrameTable) (marks : bits)
    (slot : Nat) : Prop :=
  ∃ occupant, table.occupant? slot = some occupant ∧ occupant.pinned = false ∧
    Untouched occupant.owner occupant.uaddr marks

def FrameTable.Leads (table : FrameTable) : Option Nat → List Nat → Prop
  | _, [] => True
  | position, index :: path =>
      table.advance position = some index ∧ table.Leads (some index) path

theorem FrameTable.leads_ringFrom (table : FrameTable) (turns : Nat) : ∀ position,
    table.Leads position (table.ringFrom turns (table.advance position)) := by
  induction turns with
  | zero =>
      intro position
      exact trivial
  | succ turns ih =>
      intro position
      cases onward : table.advance position with
      | none => exact trivial
      | some index => exact ⟨onward, ih (some index)⟩

theorem FrameTable.leads_append (table : FrameTable) (path more : List Nat) : ∀ position,
    table.Leads position (path ++ more) → table.Leads position path := by
  induction path with
  | nil =>
      intro position _
      exact trivial
  | cons index path ih =>
      intro position leads
      exact ⟨leads.1, ih (some index) leads.2⟩

theorem FrameTable.leads_from (table : FrameTable) (passed : List Nat) (index : Nat)
    (path : List Nat) : ∀ position,
    table.Leads position (passed ++ index :: path) → table.Leads (some index) path := by
  induction passed with
  | nil =>
      intro position leads
      exact leads.2
  | cons first passed ih =>
      intro position leads
      exact ih (some first) leads.2

section Selection

variable {bits : Type} [AccessedBits bits] {table : FrameTable} {slot : Nat}

theorem FrameTable.seekUnpinned_leads (unpinned : table.unpinnedAt slot = true) (path : List Nat) :
    ∀ turns position, table.Leads position path → slot ∈ path → path.length ≤ turns →
      ∃ passed start rest, path = passed ++ start :: rest ∧
        FrameTable.seekUnpinned turns { table with hand := position } =
          (some start, { table with hand := some start }) := by
  induction path with
  | nil =>
      intro turns position _ member
      cases member
  | cons first path ih =>
      intro turns position leads member enough
      cases turns with
      | zero => cases enough
      | succ turns =>
          unfold FrameTable.seekUnpinned
          have onward : FrameTable.advance { table with hand := position } position = some first :=
            leads.1
          simp only [onward]
          by_cases free : table.unpinnedAt first = true
          · refine ⟨[], first, path, rfl, ?_⟩
            exact if_pos free
          · have later : slot ∈ path := by
              rcases List.mem_cons.mp member with same | later
              · rw [same] at unpinned
                exact absurd unpinned free
              · exact later
            obtain ⟨passed, start, rest, split, found⟩ :=
              ih turns (some first) leads.2 later (Nat.le_of_succ_le_succ enough)
            refine ⟨first :: passed, start, rest, ?_, ?_⟩
            · rw [split, List.cons_append]
            · exact (if_neg free).trans found

theorem FrameTable.examine_cold {marks left : bits} {taken : Bool} (cold : table.Cold marks slot)
    (looked : table.examine slot marks = .ok (taken, left)) : taken = true := by
  obtain ⟨occupant, found, unpinned, untouched, asked⟩ := cold
  unfold FrameTable.examine at looked
  simp only [found, unpinned, asked] at looked
  exact (congrArg Prod.fst (Except.ok.inj looked)).symm

theorem FrameTable.examine_untouched [AccessedBits.OnlyClears bits] {marks left : bits}
    {taken : Bool} {index : Nat} {owner : ThreadId} {uaddr : Address}
    (looked : table.examine index marks = .ok (taken, left))
    (untouched : Untouched owner uaddr marks) : Untouched owner uaddr left := by
  unfold FrameTable.examine at looked
  split at looked
  · cases looked
    exact untouched
  · split at looked
    · cases looked
      exact untouched
    · split at looked
      · cases looked
      · next asked =>
        cases looked
        exact AccessedBits.OnlyClears.asked asked untouched
      · next asked =>
        split at looked
        · cases looked
        · next cleared =>
          cases looked
          have still := AccessedBits.OnlyClears.asked asked untouched
          exact AccessedBits.OnlyClears.cleared cleared still

/-- A sweep that has a cold frame before it does not run past it: what it clears on its way are the
marks of other pages, or marks that were not set. -/
theorem FrameTable.sweep_leads [AccessedBits.OnlyClears bits] {start : Nat} (path : List Nat) :
    ∀ turns current (marks : bits) victim after left, table.Leads (some current) path →
      path.getLastD current = slot → start ∉ path → path.length < turns → table.Cold marks slot →
      FrameTable.sweep start turns current { table with hand := some current } marks =
        .ok (victim, after, left) →
      ∃ passed rest, current :: path = passed ++ victim :: rest ∧
        after = { table with hand := some victim } := by
  induction path with
  | nil =>
      intro turns current marks victim after left _ isLast _ enough cold swept
      cases isLast
      cases turns with
      | zero => cases enough
      | succ turns =>
          unfold FrameTable.sweep at swept
          split at swept
          · cases swept
          · cases swept
            exact ⟨[], [], rfl, rfl⟩
          · next looked =>
            have here : FrameTable.Cold { table with hand := some current } marks current := cold
            cases FrameTable.examine_cold here looked
  | cons next path ih =>
      intro turns current marks victim after left leads isLast elsewhere enough cold swept
      rw [List.getLastD_cons] at isLast
      cases turns with
      | zero => cases enough
      | succ turns =>
          unfold FrameTable.sweep at swept
          split at swept
          · cases swept
          · cases swept
            exact ⟨[], next :: path, rfl, rfl⟩
          · next marksLater looked =>
            have onward : FrameTable.advance { table with hand := some current } (some current) =
                some next := leads.1
            -- The sweep would give up its turn at the frame where it began, which lies behind.
            have notStart : next ≠ start := by
              intro same
              subst same
              exact elsewhere List.mem_cons_self
            simp only [onward, if_neg notStart] at swept
            have coldLater : table.Cold marksLater slot := by
              obtain ⟨occupant, found, unpinned, untouched⟩ := cold
              exact ⟨occupant, found, unpinned, FrameTable.examine_untouched looked untouched⟩
            have ahead : start ∉ path := fun member => elsewhere (List.mem_cons_of_mem _ member)
            have shorter := Nat.lt_of_succ_lt_succ enough
            obtain ⟨passed, rest, split, same⟩ := ih turns next marksLater victim after left leads.2
              isLast ahead shorter coldLater swept
            refine ⟨current :: passed, rest, ?_, same⟩
            rw [split, List.cons_append]

theorem FrameTable.WellFormed.selectVictim_cold [AccessedBits.OnlyClears bits] {after : FrameTable}
    {marks left : bits} {front back : List Nat} {outcome : Except AllocError Nat}
    (wellFormed : table.WellFormed) (order : table.sweepOrder = front ++ slot :: back)
    (cold : table.Cold marks slot)
    (selected : table.selectVictim marks = .ok (outcome, after, left)) :
    ∃ victim passed rest, outcome = .ok victim ∧ front ++ [slot] = passed ++ victim :: rest ∧
      after = { table with hand := some victim } := by
  have length := FrameTable.Represents.sweepOrder_length wellFormed
  have distinct := FrameTable.Represents.sweepOrder_nodup wellFormed
  have leads := table.leads_ringFrom table.count table.hand
  change table.Leads table.hand table.sweepOrder at leads
  have cut : front ++ slot :: back = front ++ [slot] ++ back := by simp
  rw [order, cut] at length distinct leads
  rw [List.length_append] at length
  have unpinned : table.unpinnedAt slot = true := by
    obtain ⟨occupant, found, free, _⟩ := cold
    exact FrameTable.unpinnedAt_iff.mpr ⟨occupant, found, free⟩
  have ahead := table.leads_append _ _ _ leads
  have member : slot ∈ front ++ [slot] := by simp
  have notEmpty : table.count ≠ 0 := by
    have positive := List.length_pos_of_mem member
    omega
  obtain ⟨passed, start, rest, split, sought⟩ :=
    FrameTable.seekUnpinned_leads unpinned _ table.count table.hand ahead member (by omega)
  have isLast : rest.getLastD start = slot := by
    have last := congrArg List.getLast? split
    rw [List.getLast?_concat, List.getLast?_append, List.getLast?_cons, Option.some_or] at last
    rw [List.getLastD_eq_getLast?]
    exact (Option.some.inj last).symm
  rw [split] at ahead distinct length
  have onward := table.leads_from passed start rest _ ahead
  have elsewhere : start ∉ rest := by
    have apart := (List.nodup_append.mp (List.nodup_append.mp distinct).1).2.1
    exact (List.nodup_cons.mp apart).1
  have enough : rest.length < table.count := by
    rw [List.length_append, List.length_cons] at length
    omega
  unfold FrameTable.selectVictim at selected
  rw [if_neg notEmpty, sought] at selected
  dsimp only at selected
  split at selected
  · cases selected
  · next victim tableLeft marksLeft swept =>
    cases selected
    obtain ⟨before, behind, turn, same⟩ := FrameTable.sweep_leads rest table.count start marks
      victim after left onward isLast elsewhere enough cold swept
    refine ⟨victim, passed ++ before, behind, rfl, ?_, same⟩
    rw [split, turn, List.append_assoc]

end Selection

/-- At most so many frames stand before a frame in the order of the sweep. -/
def FrameTable.ComesWithin (table : FrameTable) (slot distance : Nat) : Prop :=
  ∃ front back, table.sweepOrder = front ++ slot :: back ∧ front.length ≤ distance

theorem FrameTable.ComesWithin.select {bits : Type} [AccessedBits bits]
    [AccessedBits.OnlyClears bits] {table after : FrameTable} {slot distance : Nat}
    {marks left : bits} {outcome : Except AllocError Nat} (wellFormed : table.WellFormed)
    (within : table.ComesWithin slot distance) (cold : table.Cold marks slot)
    (selected : table.selectVictim marks = .ok (outcome, after, left)) :
    outcome = .ok slot ∨ 0 < distance ∧ after.ComesWithin slot (distance - 1) := by
  obtain ⟨front, back, order, short⟩ := within
  obtain ⟨victim, passed, rest, outcomeIs, split, same⟩ :=
    wellFormed.selectVictim_cold order cold selected
  cases List.eq_nil_or_concat rest with
  | inl alone =>
      subst alone
      have last := List.append_inj_right' split rfl
      cases last
      exact .inl outcomeIs
  | inr others =>
      obtain ⟨others, last, rfl⟩ := others
      rw [List.concat_eq_append, ← List.cons_append, ← List.append_assoc] at split
      have frontIs := List.append_inj_left' split rfl
      have lastIs := List.append_inj_right' split rfl
      cases lastIs
      subst same
      right
      -- The victim stood in front of the frame; those up to it go to the end of the order.
      have shorter := congrArg List.length frontIs
      rw [List.length_append, List.length_cons] at shorter
      refine ⟨by omega, others, back ++ passed ++ [victim], ?_, by omega⟩
      have turn : table.sweepOrder = passed ++ victim :: (others ++ slot :: back) := by
        rw [order, frontIs]
        simp
      rw [wellFormed.sweepOrder_setHand turn]
      simp

theorem FrameTable.ComesWithin.insert {table : FrameTable} {slot distance : Nat}
    (within : table.ComesWithin slot distance) (wellFormed : table.WellFormed)
    (record : FrameRecord) : (table.insert record).2.ComesWithin slot (distance + 1) := by
  obtain ⟨front, back, order, short⟩ := within
  obtain ⟨before, behind, old, new⟩ := wellFormed.sweepOrder_insert record
  generalize (table.insert record).1.id.index = index at new
  unfold FrameTable.ComesWithin
  rw [order] at old
  rw [new]
  rcases List.append_eq_append_iff.mp old with ⟨more, beforeIs, backIs⟩ | ⟨more, frontIs, behindIs⟩
  · cases more with
    | nil =>
        subst beforeIs
        refine ⟨front ++ [index], back, ?_, ?_⟩
        · rw [backIs]
          simp
        · rw [List.length_append, List.length_singleton]
          omega
    | cons first more =>
        subst beforeIs
        cases backIs
        refine ⟨front, more ++ index :: behind, ?_, by omega⟩
        simp
  · subst frontIs behindIs
    refine ⟨before ++ index :: more, back, ?_, ?_⟩
    · simp
    · rw [List.length_append] at short ⊢
      rw [List.length_cons]
      omega

theorem FrameTable.ComesWithin.remove {table after : FrameTable} {slot distance : Nat}
    {id : FrameId} {record : FrameRecord} (within : table.ComesWithin slot distance)
    (wellFormed : table.WellFormed) (other : id.index ≠ slot)
    (removed : table.remove id = some (record, after)) : after.ComesWithin slot distance := by
  obtain ⟨front, back, order, short⟩ := within
  unfold FrameTable.ComesWithin
  rw [wellFormed.sweepOrder_remove removed, order, List.erase_append]
  split
  · have shorter := List.length_erase_le (a := id.index) (l := front)
    exact ⟨front.erase id.index, back, rfl, Nat.le_trans shorter short⟩
  · refine ⟨front, back.erase id.index, ?_, short⟩
    rw [List.erase_cons_tail (by simpa using Ne.symm other)]

theorem FrameTable.ComesWithin.same {table after : FrameTable} {slot distance : Nat}
    (within : table.ComesWithin slot distance) (order : after.sweepOrder = table.sweepOrder) :
    after.ComesWithin slot distance := by
  unfold FrameTable.ComesWithin
  rw [order]
  exact within

structure Clocked (bits : Type) where
  table : FrameTable
  marks : bits

inductive ClockEvent
  | selected (outcome : Except AllocError Nat)
  | inserted
  | other

def FrameTable.Change.Spares (change : FrameTable.Change) (table : FrameTable) (slot : Nat) :
    Prop :=
  match change with
  | .remove id => id.index = slot → table.resolve id = none
  | _ => True

def FrameTable.Change.event : FrameTable.Change → ClockEvent
  | .insert _ => .inserted
  | _ => .other

/-- What may happen around a frame that is cold whenever a victim is selected. Between two
selections the marks may become anything, and evictions may begin and end. -/
inductive Clocked.Step {bits : Type} [AccessedBits bits] (slot : Nat) :
    Clocked bits → ClockEvent → Clocked bits → Prop
  | select {table after : FrameTable} {marks left : bits} {outcome : Except AllocError Nat} :
      table.Cold marks slot → table.selectVictim marks = .ok (outcome, after, left) →
      Step slot ⟨table, marks⟩ (.selected outcome) ⟨after, left⟩
  | change {table after : FrameTable} {change : FrameTable.Change} (marks : bits) :
      table.Changes change after → change ≠ .select → change.Spares table slot →
      Step slot ⟨table, marks⟩ change.event ⟨after, marks⟩
  | mark (table : FrameTable) (marks left : bits) : Step slot ⟨table, marks⟩ .other ⟨table, left⟩
  | setBarrier (table : FrameTable) (barrier : Barrier) (marks : bits) :
      Step slot ⟨table, marks⟩ .other ⟨{ table with barrier }, marks⟩

inductive Clocked.Run {bits : Type} [AccessedBits bits] (slot : Nat) :
    Clocked bits → List ClockEvent → Clocked bits → Prop
  | nil (state : Clocked bits) : Run slot state [] state
  | cons {before middle after : Clocked bits} {event : ClockEvent} {later : List ClockEvent} :
      Clocked.Step slot before event middle → Run slot middle later after →
      Run slot before (event :: later) after

def ClockEvent.selection? : ClockEvent → Option (Except AllocError Nat)
  | .selected outcome => some outcome
  | _ => none

def ClockEvent.isInsertion : ClockEvent → Bool
  | .inserted => true
  | _ => false

def selections (history : List ClockEvent) : List (Except AllocError Nat) :=
  history.filterMap ClockEvent.selection?

def insertions (history : List ClockEvent) : Nat :=
  history.countP ClockEvent.isInsertion

theorem selections_cons (event : ClockEvent) (later : List ClockEvent) :
    selections (event :: later) = selections [event] ++ selections later := by
  unfold selections
  rw [← List.filterMap_append]
  rfl

theorem insertions_cons (event : ClockEvent) (later : List ClockEvent) :
    insertions (event :: later) = insertions [event] + insertions later := by
  unfold insertions
  rw [← List.countP_append]
  rfl

theorem FrameTable.Change.selections_event (change : FrameTable.Change) :
    selections [change.event] = [] := by
  cases change <;> rfl

section Runs

variable {bits : Type} [AccessedBits bits] {slot : Nat}

theorem Clocked.Step.wellFormed {before after : Clocked bits} {event : ClockEvent}
    (step : Clocked.Step slot before event after) (wellFormed : before.table.WellFormed) :
    after.table.WellFormed := by
  cases step with
  | select _ selected => exact ((FrameTable.Changes.select selected).keeps wellFormed).wellFormed
  | change _ changes _ _ => exact (changes.keeps wellFormed).wellFormed
  | mark => exact wellFormed
  | setBarrier table barrier _ =>
      exact (FrameTable.Represents.setBarrier wellFormed barrier).wellFormed

theorem FrameTable.ComesWithin.change {table after : FrameTable} {change : FrameTable.Change}
    {distance : Nat} (within : table.ComesWithin slot distance) (wellFormed : table.WellFormed)
    (changes : table.Changes change after) (notSelect : change ≠ .select)
    (spares : change.Spares table slot) :
    after.ComesWithin slot (distance + insertions [change.event]) := by
  cases changes with
  | insert _ record => exact within.insert wellFormed record
  | remove removed =>
      apply within.remove wellFormed _ removed
      intro same
      have stale := FrameTable.remove_eq_none_iff.mpr (spares same)
      rw [stale] at removed
      cases removed
  | removeStale _ => exact within
  | reassign reassigned => exact within.same (wellFormed.sweepOrder_reassign reassigned)
  | reassignVacant _ => exact within
  | select _ => exact absurd rfl notSelect
  | setPinned _ index pinned => exact within.same (wellFormed.sweepOrder_setPinned index pinned)

/-- A step either selects the frame, or pays for its selections out of the distance. -/
theorem Clocked.Step.comesWithin [AccessedBits.OnlyClears bits] {before after : Clocked bits}
    {event : ClockEvent} {distance : Nat} (step : Clocked.Step slot before event after)
    (wellFormed : before.table.WellFormed) (within : before.table.ComesWithin slot distance) :
    event = .selected (.ok slot) ∨
      ∃ left, after.table.ComesWithin slot left ∧
        left + (selections [event]).length ≤ distance + insertions [event] := by
  cases step with
  | select cold selected =>
      rcases within.select wellFormed cold selected with taken | ⟨positive, closer⟩
      · left
        rw [taken]
      · right
        refine ⟨distance - 1, closer, ?_⟩
        change distance - 1 + 1 ≤ distance
        omega
  | change _ changes notSelect spares =>
      right
      refine ⟨_, within.change wellFormed changes notSelect spares, ?_⟩
      rw [FrameTable.Change.selections_event]
      exact Nat.le_refl _
  | mark => exact .inr ⟨distance, within, Nat.le_refl _⟩
  | setBarrier table barrier _ =>
      exact .inr ⟨distance, within.same (wellFormed.sweepOrder_setBarrier barrier), Nat.le_refl _⟩

theorem Clocked.Run.cold_selected [AccessedBits.OnlyClears bits] {start finish : Clocked bits}
    {history : List ClockEvent} (run : Clocked.Run slot start history finish) : ∀ distance,
    start.table.WellFormed → start.table.ComesWithin slot distance →
      distance + 1 + insertions history ≤ (selections history).length →
      .ok slot ∈ (selections history).take (distance + 1 + insertions history) := by
  induction run with
  | nil state =>
      intro distance _ _ enough
      cases enough
  | @cons before middle after event later step run ih =>
      intro distance wellFormed within enough
      rw [selections_cons, insertions_cons] at *
      rcases step.comesWithin wellFormed within with taken | ⟨left, closer, paid⟩
      · have first : distance + 1 + (insertions [event] + insertions later) =
            distance + (insertions [event] + insertions later) + 1 := by omega
        rw [first, taken]
        exact List.mem_cons_self
      · rw [List.length_append] at enough
        have selected := ih left (step.wellFormed wellFormed) closer (by omega)
        rw [List.take_append, List.mem_append]
        right
        apply List.take_subset_take_left _ _ selected
        omega

/-- A frame that stands at some place of the sweep, counted from 0, and is cold at every selection
is selected at the latest when the frames before it, the frame itself and the new ones have each had
one selection. -/
theorem Clocked.Run.selected_in_time [AccessedBits.OnlyClears bits] {start finish : Clocked bits}
    {history : List ClockEvent} {place : Nat} (wellFormed : start.table.WellFormed)
    (standing : start.table.sweepOrder[place]? = some slot)
    (run : Clocked.Run slot start history finish)
    (enough : place + 1 + insertions history ≤ (selections history).length) :
    .ok slot ∈ (selections history).take (place + 1 + insertions history) := by
  obtain ⟨short, isSlot⟩ := List.getElem?_eq_some_iff.mp standing
  have order : start.table.sweepOrder =
      start.table.sweepOrder.take place ++ slot :: start.table.sweepOrder.drop (place + 1) := by
    rw [← isSlot, ← List.drop_eq_getElem_cons short, List.take_append_drop]
  have within : start.table.ComesWithin slot place :=
    ⟨_, _, order, List.length_take_le _ _⟩
  exact run.cold_selected place wellFormed within enough

end Runs

/-! ### The sections under the lock -/

section Sections

variable {bits : Type} [AccessedBits bits] {table after : FrameTable} {marks left : bits}
  {slot : Nat}

theorem FrameTable.startEviction_run {eviction : Eviction} (cold : table.Cold marks slot)
    (started : table.startEviction marks = .ok (.ok eviction, after, left)) :
    Clocked.Run slot ⟨table, marks⟩ [.selected (.ok eviction.slot), .other, .other]
      ⟨after, left⟩ := by
  unfold FrameTable.startEviction at started
  split at started
  · cases started
  · cases started
  · next victim middle _ selected =>
    split at started
    · cases started
    · cases started
      apply Clocked.Run.cons (.select cold selected)
      apply Clocked.Run.cons (.change left (.setPinned middle victim true) (by simp) trivial)
      exact .cons (.setBarrier (middle.setPinned victim true) middle.barrier.enter left) (.nil _)

theorem FrameTable.finishEviction_run {eviction : Eviction} {owner : ThreadId} {uaddr : Address}
    {written : Bool} {ending : EvictionEnd}
    (finished : table.finishEviction eviction owner uaddr written = .ok (ending, after)) :
    Clocked.Run slot ⟨table, marks⟩ [.other, .other] ⟨after, marks⟩ := by
  have left : ∀ {middle : FrameTable}, after = { middle with barrier := after.barrier } →
      Clocked.Run slot ⟨middle, marks⟩ [.other] ⟨after, marks⟩ := by
    intro middle same
    rw [same]
    exact .cons (.setBarrier middle _ marks) (.nil _)
  unfold FrameTable.finishEviction at finished
  cases written with
  | false =>
      simp only [Bool.false_eq_true, if_false] at finished
      obtain ⟨_, _, same⟩ := FrameTable.finish_barrier finished
      have unpinned := FrameTable.Changes.setPinned table eviction.slot false
      exact .cons (.change marks unpinned (by simp) trivial) (left same)
  | true =>
      cases reassigned : table.reassign eviction.slot owner uaddr with
      | none =>
          simp only [reassigned, if_true] at finished
          obtain ⟨_, _, same⟩ := FrameTable.finish_barrier finished
          have vanished := FrameTable.Changes.reassignVacant reassigned
          exact .cons (.change marks vanished (by simp) trivial) (left same)
      | some rebound =>
          obtain ⟨frame, changed⟩ := rebound
          simp only [reassigned, if_true] at finished
          obtain ⟨_, _, same⟩ := FrameTable.finish_barrier finished
          have bound := FrameTable.Changes.reassign reassigned
          exact .cons (.change marks bound (by simp) trivial) (left same)

theorem FrameTable.enroll_run {owner : ThreadId} {uaddr kpage : Address} {frame : Frame}
    (enrolled : table.enroll owner uaddr kpage = .ok (frame, after)) :
    Clocked.Run slot ⟨table, marks⟩ [.inserted] ⟨after, marks⟩ := by
  unfold FrameTable.enroll at enrolled
  split at enrolled
  · cases enrolled
  · cases enrolled
    exact .cons (.change marks (.insert table _) (by simp) trivial) (.nil _)

theorem FrameTable.unpin_run {id : FrameId} (unpinned : table.unpin id = .ok after) :
    Clocked.Run slot ⟨table, marks⟩ [.other] ⟨after, marks⟩ := by
  unfold FrameTable.unpin at unpinned
  split at unpinned
  · cases unpinned
  · split at unpinned
    · cases unpinned
      exact .cons (.change marks (.setPinned table id.index false) (by simp) trivial) (.nil _)
    · cases unpinned

theorem FrameTable.removeNamed_run (entries : List (Option FrameId))
    (others : ∀ id, some id ∈ entries → id.index ≠ slot) : ∀ table : FrameTable,
    ∃ history, Clocked.Run slot ⟨table, marks⟩ history ⟨(table.removeNamed entries).2, marks⟩ := by
  induction entries with
  | nil =>
      intro table
      exact ⟨[], .nil _⟩
  | cons entry entries ih =>
      intro table
      have rest := ih fun id member => others id (List.mem_cons_of_mem _ member)
      cases entry with
      | none => exact rest table
      | some id =>
          have other := others id List.mem_cons_self
          unfold FrameTable.removeNamed
          cases removed : table.remove id with
          | none => exact rest table
          | some taken =>
              obtain ⟨record, middle⟩ := taken
              obtain ⟨history, run⟩ := rest middle
              refine ⟨.other :: history, .cons ?_ run⟩
              exact .change marks (.remove removed) (by simp) fun same => absurd same other

end Sections

def FrameTable.threeFree : FrameTable :=
  { ((FrameTable.three.setPinned 0 false).setPinned 1 false).setPinned 2 false with hand := some 0 }

theorem FrameTable.threeFree_wellFormed : FrameTable.threeFree.WellFormed := by
  have three := FrameTable.evolved_three.wellFormed.1
  have unpinned := ((three.setPinned 0 false).setPinned 1 false).setPinned 2 false
  have moved : FrameTable.threeFree.Represents _ := unpinned.setHand (by decide +kernel)
  exact moved.wellFormed

deriving instance DecidableEq for FrameTable, TouchedSet

def fourthRecord : FrameRecord :=
  { owner := ⟨2⟩, uaddr := default, kpage := default, pinned := false }

def FrameTable.fourFree (hand : Nat) : FrameTable :=
  { (FrameTable.threeFree.insert fourthRecord).2 with hand := some hand }

theorem Clocked.run_four :
    Clocked.Run 0 ⟨FrameTable.threeFree, ({} : TouchedSet)⟩
      [.inserted, .selected (.ok 1), .selected (.ok 2), .selected (.ok 3), .selected (.ok 0)]
      ⟨FrameTable.fourFree 0, {}⟩ := by
  have entered : (FrameTable.threeFree.insert fourthRecord).2 = FrameTable.fourFree 0 := by
    decide +kernel
  have cold : ∀ hand, (FrameTable.fourFree hand).Cold ({} : TouchedSet) 0 := by
    intro hand
    exact ⟨_, rfl, rfl, _, rfl⟩
  have turn : ∀ pair ∈ [(0, 1), (1, 2), (2, 3), (3, 0)],
      (FrameTable.fourFree pair.1).selectVictim ({} : TouchedSet) =
        .ok (.ok pair.2, FrameTable.fourFree pair.2, {}) := by
    decide +kernel
  have insert : Clocked.Step 0 ⟨FrameTable.threeFree, ({} : TouchedSet)⟩ .inserted
      ⟨FrameTable.fourFree 0, {}⟩ := by
    rw [← entered]
    exact .change _ (.insert _ _) (by simp) trivial
  apply Clocked.Run.cons insert
  apply Clocked.Run.cons (.select (cold 0) (turn (0, 1) (by decide)))
  apply Clocked.Run.cons (.select (cold 1) (turn (1, 2) (by decide)))
  apply Clocked.Run.cons (.select (cold 2) (turn (2, 3) (by decide)))
  exact .cons (.select (cold 3) (turn (3, 0) (by decide))) (.nil _)

/-- The first of three frames has the hand on it and nothing is touched. A fourth frame comes in,
and is the last that is selected before the first one is. -/
theorem Clocked.fourth_selection :
    let history : List ClockEvent :=
      [.inserted, .selected (.ok 1), .selected (.ok 2), .selected (.ok 3), .selected (.ok 0)]
    Clocked.Run 0 ⟨FrameTable.threeFree, ({} : TouchedSet)⟩ history ⟨FrameTable.fourFree 0, {}⟩ ∧
      FrameTable.threeFree.sweepOrder[2]? = some 0 ∧
      .ok 0 ∈ (selections history).take (2 + 1 + insertions history) := by
  have standing : FrameTable.threeFree.sweepOrder[2]? = some 0 := by decide +kernel
  have selected := Clocked.run_four.selected_in_time FrameTable.threeFree_wellFormed standing
    (by decide)
  exact ⟨Clocked.run_four, standing, selected⟩

end KernelPaging
