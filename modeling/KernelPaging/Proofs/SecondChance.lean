import KernelPaging.Proofs.FailedSweeps
import KernelPaging.Proofs.TableWalks

/-!
The clock as second chance on a plain list. What a selection does to the ring and to the record of
accessed bits is what second chance does with the unpinned frames, taken in the order of the sweep;
the pinned ones might as well not be there. Where a record answers without changing, and clears what
it is told to clear, this says which frame is selected and which marks are lost.
-/

set_option autoImplicit false

namespace KernelPaging

def FrameTable.unpinnedIn (table : FrameTable) (slots : List Nat) : List Frame :=
  (slots.filterMap table.frameAt?).filter fun frame => !frame.pinned

/-- The frames that a selection may take, in the order in which a sweep meets them. -/
def FrameTable.candidates (table : FrameTable) : List Frame :=
  table.unpinnedIn table.sweepOrder

variable {bits : Type} [AccessedBits bits]

/-- The frames get their second chances one after the other, and the first that is found untouched is
taken. If there is none, it is the frame in the slot `first`. -/
def secondChance (first : Nat) : List Frame → bits → Except Halt (Nat × bits)
  | [], marks => .ok (first, marks)
  | frame :: frames, marks =>
      match AccessedBits.isAccessed frame.owner frame.uaddr marks with
      | .error halt => .error halt
      | .ok (false, marks) => .ok (frame.id.index, marks)
      | .ok (true, marks) =>
          match AccessedBits.clearAccessed frame.owner frame.uaddr marks with
          | .error halt => .error halt
          | .ok marks => secondChance first frames marks

/-- The frames are found touched one after the other, and each loses its mark before the next one is
asked for. -/
inductive PassedOver : bits → List Frame → bits → Prop
  | nil (marks : bits) : PassedOver marks [] marks
  | cons {marks asked cleared left : bits} {frame : Frame} {frames : List Frame} :
      AccessedBits.isAccessed frame.owner frame.uaddr marks = .ok (true, asked) →
      AccessedBits.clearAccessed frame.owner frame.uaddr asked = .ok cleared →
      PassedOver cleared frames left → PassedOver marks (frame :: frames) left

/-- In a valid state the record answers, and it stays in valid states. -/
structure AccessedBits.Answers (valid : bits → Prop) : Prop where
  asked : ∀ {marks : bits} (owner : ThreadId) (uaddr : Address), valid marks →
    ∃ answer left, AccessedBits.isAccessed owner uaddr marks = .ok (answer, left) ∧ valid left
  cleared : ∀ {marks : bits} (owner : ThreadId) (uaddr : Address), valid marks →
    ∃ left, AccessedBits.clearAccessed owner uaddr marks = .ok left ∧ valid left

/-- Asking has no effect, and a mark that was cleared is gone. -/
structure AccessedBits.Faithful (valid : bits → Prop) : Prop
    extends AccessedBits.Answers valid where
  unmoved : ∀ {marks left : bits} {owner : ThreadId} {uaddr : Address} {answer : Bool},
    valid marks → AccessedBits.isAccessed owner uaddr marks = .ok (answer, left) → left = marks
  clears : ∀ {marks left : bits} {owner : ThreadId} {uaddr : Address}, valid marks →
    AccessedBits.clearAccessed owner uaddr marks = .ok left → Untouched owner uaddr left

omit [AccessedBits bits] in
theorem TouchedSet.faithful : AccessedBits.Faithful fun _ : TouchedSet => True where
  asked owner uaddr _ := ⟨_, _, rfl, trivial⟩
  cleared owner uaddr _ := ⟨_, rfl, trivial⟩
  unmoved := by
    intro marks left owner uaddr answer _ asked
    cases asked
    rfl
  clears := by
    intro marks left owner uaddr _ cleared
    cases cleared
    rw [TouchedSet.untouched_iff]
    simp [TouchedSet.contains, TouchedSet.clear]

theorem PageTables.Readable.answered {tables : PageTables} (readable : tables.Readable)
    (owner : ThreadId) (uaddr : Address) :
    ∃ accessed, tables.isAccessed owner uaddr = .ok accessed := by
  cases tables.ends_or_breaks owner uaddr with
  | inl found =>
      obtain ⟨place, ends⟩ := found
      exact ⟨_, readable.isAccessed_some ends⟩
  | inr breaks => exact ⟨_, readable.isAccessed_none breaks⟩

theorem PageTables.faithful : AccessedBits.Faithful PageTables.Readable where
  asked := by
    intro tables owner uaddr readable
    obtain ⟨accessed, answered⟩ := readable.answered owner uaddr
    refine ⟨accessed, tables, ?_, readable⟩
    simp only [AccessedBits.isAccessed, answered]
  cleared := by
    intro tables owner uaddr readable
    obtain ⟨after, done, cleared⟩ := readable.clearAccessed_ok owner uaddr
    exact ⟨after, done, cleared.readable readable⟩
  unmoved _ := PageTables.asked_same
  clears := by
    intro tables left owner uaddr readable cleared
    obtain ⟨after, done, same⟩ := readable.clearAccessed_ok owner uaddr
    cases done.symm.trans cleared
    have kept := same.walksKept readable
    rw [PageTables.untouched_iff]
    cases tables.ends_or_breaks owner uaddr with
    | inl found =>
        obtain ⟨place, ends⟩ := found
        exact kept.cleared owner uaddr place ends ends
    | inr breaks =>
        have still := (kept.breaks owner uaddr).mpr breaks
        exact (same.readable readable).isAccessed_none still

section Candidates

variable {table : FrameTable}

omit [AccessedBits bits]

theorem FrameTable.unpinnedIn_append (table : FrameTable) (slots more : List Nat) :
    table.unpinnedIn (slots ++ more) = table.unpinnedIn slots ++ table.unpinnedIn more := by
  unfold FrameTable.unpinnedIn
  rw [List.filterMap_append, List.filter_append]

theorem FrameTable.unpinnedIn_cons_unpinned {slot : Nat} {frame : Frame}
    (resident : table.frameAt? slot = some frame) (unpinned : frame.pinned = false)
    (slots : List Nat) : table.unpinnedIn (slot :: slots) = frame :: table.unpinnedIn slots := by
  unfold FrameTable.unpinnedIn
  rw [List.filterMap_cons_some resident]
  exact List.filter_cons_of_pos (by simp [unpinned])

theorem FrameTable.unpinnedIn_cons_other {slot : Nat} (other : table.unpinnedAt slot = false)
    (slots : List Nat) : table.unpinnedIn (slot :: slots) = table.unpinnedIn slots := by
  unfold FrameTable.unpinnedIn
  cases resident : table.frameAt? slot with
  | none => rw [List.filterMap_cons_none resident]
  | some frame =>
      rw [List.filterMap_cons_some resident]
      apply List.filter_cons_of_neg
      intro unpinned
      have taken := FrameTable.unpinnedAt_iff_frame.mpr ⟨frame, resident, by simpa using unpinned⟩
      rw [other] at taken
      cases taken

theorem FrameTable.unpinnedIn_eq_nil {slots : List Nat}
    (others : ∀ slot ∈ slots, table.unpinnedAt slot = false) : table.unpinnedIn slots = [] := by
  induction slots with
  | nil => rfl
  | cons slot slots ih =>
      rw [FrameTable.unpinnedIn_cons_other (others slot List.mem_cons_self)]
      exact ih fun later member => others later (List.mem_cons_of_mem _ member)

theorem FrameTable.WellFormed.mem_sweepOrder (wellFormed : table.WellFormed) {slot : Nat}
    {frame : Frame} (resident : table.frameAt? slot = some frame) : slot ∈ table.sweepOrder := by
  obtain ⟨occupant, found, _⟩ := FrameTable.frameAt?_eq_some_iff.mp resident
  have turned := FrameTable.Represents.turned wellFormed
  exact turned.mem_iff.mp (FrameTable.Represents.mem_of_occupant wellFormed found)

theorem FrameTable.WellFormed.mem_candidates (wellFormed : table.WellFormed) {frame : Frame} :
    frame ∈ table.candidates ↔
      table.frameAt? frame.id.index = some frame ∧ frame.pinned = false := by
  unfold FrameTable.candidates FrameTable.unpinnedIn
  rw [List.mem_filter, List.mem_filterMap, Bool.not_eq_true']
  constructor
  · rintro ⟨⟨slot, _, resident⟩, unpinned⟩
    have named := FrameTable.id_of_frameAt resident
    refine ⟨?_, unpinned⟩
    rw [named]
    exact resident
  · rintro ⟨resident, unpinned⟩
    exact ⟨⟨frame.id.index, wellFormed.mem_sweepOrder resident, resident⟩, unpinned⟩

theorem FrameTable.WellFormed.candidates_nodup (wellFormed : table.WellFormed) :
    table.candidates.Nodup := by
  apply List.Nodup.filter
  apply (FrameTable.Represents.sweepOrder_nodup wellFormed).filterMap
  intro left right frame leftResident rightResident
  have leftNamed := FrameTable.id_of_frameAt leftResident
  have rightNamed := FrameTable.id_of_frameAt rightResident
  exact congrArg FrameId.index (leftNamed.symm.trans rightNamed)

end Candidates

/-! ### The sweep as a walk along a list -/

section Sweeping

variable {table : FrameTable}

theorem FrameTable.examine_unpinned {slot : Nat} {frame : Frame}
    (resident : table.frameAt? slot = some frame) (unpinned : frame.pinned = false)
    (marks : bits) :
    table.examine slot marks =
      match AccessedBits.isAccessed frame.owner frame.uaddr marks with
      | .error halt => .error halt
      | .ok (false, marks) => .ok (true, marks)
      | .ok (true, marks) =>
          match AccessedBits.clearAccessed frame.owner frame.uaddr marks with
          | .error halt => .error halt
          | .ok marks => .ok (false, marks) := by
  obtain ⟨occupant, found, rfl⟩ := FrameTable.frameAt?_eq_some_iff.mp resident
  have free : ¬ occupant.pinned = true := Bool.eq_false_iff.mp unpinned
  unfold FrameTable.examine
  rw [found]
  exact if_neg free

theorem FrameTable.examine_other {slot : Nat} (other : table.unpinnedAt slot = false)
    (marks : bits) : table.examine slot marks = .ok (false, marks) := by
  unfold FrameTable.unpinnedAt at other
  unfold FrameTable.examine
  cases found : table.occupant? slot with
  | none => rfl
  | some occupant =>
      rw [found] at other
      exact if_pos (by simpa using other)

theorem FrameTable.secondChance_visit (first slot : Nat) (slots : List Nat) (marks : bits) :
    secondChance first (table.unpinnedIn (slot :: slots)) marks =
      match table.examine slot marks with
      | .error halt => .error halt
      | .ok (true, marks) => .ok (slot, marks)
      | .ok (false, marks) => secondChance first (table.unpinnedIn slots) marks := by
  cases unpinned : table.unpinnedAt slot with
  | false =>
      rw [FrameTable.unpinnedIn_cons_other unpinned, FrameTable.examine_other unpinned]
  | true =>
      obtain ⟨frame, resident, free⟩ := FrameTable.unpinnedAt_iff_frame.mp unpinned
      have index : frame.id.index = slot := by rw [FrameTable.id_of_frameAt resident]
      rw [FrameTable.unpinnedIn_cons_unpinned resident free,
        FrameTable.examine_unpinned resident free, secondChance, index]
      cases AccessedBits.isAccessed frame.owner frame.uaddr marks with
      | error halt => rfl
      | ok answered =>
          obtain ⟨answer, asked⟩ := answered
          cases answer with
          | false => rfl
          | true =>
              dsimp only
              cases AccessedBits.clearAccessed frame.owner frame.uaddr asked <;> rfl

def FrameTable.taking (table : FrameTable) (taken : Nat × bits) : Nat × FrameTable × bits :=
  (taken.1, { table with hand := some taken.1 }, taken.2)

omit [AccessedBits bits] in
theorem FrameTable.leads_setHand (table : FrameTable) (hand : Option Nat) (path : List Nat) :
    ∀ position, FrameTable.Leads { table with hand } position path ↔
      table.Leads position path := by
  induction path with
  | nil =>
      intro position
      exact Iff.rfl
  | cons index path ih =>
      intro position
      exact and_congr Iff.rfl (ih (some index))

/-- A sweep that may go around visits the unpinned frames on its way, and is back where it began. -/
theorem FrameTable.sweep_eq_secondChance {start : Nat} (path : List Nat) :
    ∀ turns current (marks : bits), table.Leads (some current) (path ++ [start]) →
      start ∉ path → path.length < turns →
      FrameTable.sweep start turns current { table with hand := some current } marks =
        (secondChance start (table.unpinnedIn (current :: path)) marks).map table.taking := by
  induction path with
  | nil =>
      intro turns current marks leads _ enough
      obtain ⟨turns, rfl⟩ := Nat.exists_eq_succ_of_ne_zero (Nat.ne_of_gt enough)
      have onward : FrameTable.advance { table with hand := some current } (some current) =
          some start := leads.1
      have looked : FrameTable.examine { table with hand := some current } current marks =
          table.examine current marks := rfl
      rw [FrameTable.secondChance_visit, FrameTable.sweep, looked]
      cases table.examine current marks with
      | error halt => rfl
      | ok verdict =>
          obtain ⟨taken, left⟩ := verdict
          cases taken with
          | true => rfl
          | false =>
              simp only [onward, if_true]
              rfl
  | cons next path ih =>
      intro turns current marks leads elsewhere enough
      obtain ⟨turns, rfl⟩ := Nat.exists_eq_succ_of_ne_zero (Nat.ne_zero_of_lt enough)
      have onward : FrameTable.advance { table with hand := some current } (some current) =
          some next := leads.1
      have looked : FrameTable.examine { table with hand := some current } current marks =
          table.examine current marks := rfl
      have notStart : next ≠ start := fun same => elsewhere (same ▸ List.mem_cons_self)
      have ahead : start ∉ path := fun member => elsewhere (List.mem_cons_of_mem _ member)
      rw [FrameTable.secondChance_visit, FrameTable.sweep, looked]
      cases table.examine current marks with
      | error halt => rfl
      | ok verdict =>
          obtain ⟨taken, left⟩ := verdict
          cases taken with
          | true => rfl
          | false =>
              simp only [onward, if_neg notStart]
              exact ih turns next left leads.2 ahead (Nat.lt_of_succ_lt_succ enough)

structure FrameTable.Around (table : FrameTable) (start : Nat) (path : List Nat) : Prop where
  leads : table.Leads (some start) (path ++ [start])
  elsewhere : start ∉ path
  short : path.length < table.count

/-- Before the sweep the hand goes once around, or comes to rest on the first candidate. From there
on the sweep meets the candidates in their order. -/
theorem FrameTable.WellFormed.seek_cases (wellFormed : table.WellFormed) :
    (table.candidates = [] ∧ table.seekUnpinned table.count =
        (none, { table with hand := table.sweepOrder.getLast? })) ∨
      ∃ start path, table.seekUnpinned table.count =
          (some start, { table with hand := some start }) ∧
        table.Around start path ∧ table.unpinnedAt start = true ∧
        table.candidates = table.unpinnedIn (start :: path) := by
  have length := FrameTable.Represents.sweepOrder_length wellFormed
  have distinct := FrameTable.Represents.sweepOrder_nodup wellFormed
  have sought := wellFormed.seekUnpinned_eq
  cases found : table.sweepOrder.find? table.unpinnedAt with
  | none =>
      left
      rw [found] at sought
      refine ⟨?_, sought⟩
      apply FrameTable.unpinnedIn_eq_nil
      intro slot member
      simpa using List.find?_eq_none.mp found slot member
  | some start =>
      right
      rw [found] at sought
      obtain ⟨unpinned, passed, rest, order, others⟩ := List.find?_eq_some_iff_append.mp found
      have nobody : table.unpinnedIn passed = [] := by
        apply FrameTable.unpinnedIn_eq_nil
        intro slot member
        simpa using others slot member
      refine ⟨start, rest ++ passed, sought, ?_, unpinned, ?_⟩
      · constructor
        · rw [← wellFormed.sweepOrder_setHand order]
          exact (table.leads_setHand (some start) _ _).mp (FrameTable.leads_ringFrom _ _ _)
        · rw [order, List.nodup_middle] at distinct
          rw [List.mem_append, or_comm, ← List.mem_append]
          exact (List.nodup_cons.mp distinct).1
        · rw [order] at length
          simp only [List.length_append, List.length_cons] at length ⊢
          omega
      · -- Those passed before the first candidate come last, and are not candidates.
        rw [FrameTable.candidates, order, FrameTable.unpinnedIn_append, nobody, List.nil_append,
          ← List.cons_append, FrameTable.unpinnedIn_append, nobody, List.append_nil]

theorem FrameTable.WellFormed.selectVictim_eq (wellFormed : table.WellFormed)
    (nonempty : table.count ≠ 0) (marks : bits) :
    table.selectVictim marks =
      match table.candidates with
      | [] => .ok (.error .allPinned, { table with hand := table.sweepOrder.getLast? }, marks)
      | first :: rest =>
          (secondChance first.id.index (first :: rest) marks).map fun taken =>
            (.ok taken.1, { table with hand := some taken.1 }, taken.2) := by
  unfold FrameTable.selectVictim
  rw [if_neg nonempty]
  rcases wellFormed.seek_cases with ⟨nobody, sought⟩ | ⟨start, path, sought, around, unpinned, order⟩
  · rw [sought, nobody]
  · obtain ⟨frame, resident, free⟩ := FrameTable.unpinnedAt_iff_frame.mp unpinned
    have index : frame.id.index = start := by rw [FrameTable.id_of_frameAt resident]
    rw [sought]
    dsimp only
    rw [FrameTable.sweep_eq_secondChance _ _ _ _ around.leads around.elsewhere around.short, order,
      FrameTable.unpinnedIn_cons_unpinned resident free]
    dsimp only
    rw [index]
    cases secondChance start (frame :: table.unpinnedIn path) marks <;> rfl

def FrameTable.AllPinned (table : FrameTable) : Prop :=
  ∀ slot frame, table.frameAt? slot = some frame → frame.pinned = true

omit [AccessedBits bits] in
theorem FrameTable.WellFormed.candidates_eq_nil_iff (wellFormed : table.WellFormed) :
    table.candidates = [] ↔ table.AllPinned := by
  constructor
  · intro nobody slot frame resident
    cases pinned : frame.pinned with
    | true => rfl
    | false =>
        have index : frame.id.index = slot := by rw [FrameTable.id_of_frameAt resident]
        have member := wellFormed.mem_candidates.mpr ⟨index.symm ▸ resident, pinned⟩
        rw [nobody] at member
        cases member
  · intro allPinned
    rw [List.eq_nil_iff_forall_not_mem]
    intro frame member
    obtain ⟨resident, free⟩ := wellFormed.mem_candidates.mp member
    rw [allPinned _ _ resident] at free
    cases free

omit [AccessedBits bits] in
theorem FrameTable.WellFormed.selectVictim_among (wellFormed : table.WellFormed)
    (takes : ¬ table.AllPinned) :
    ∃ first rest, table.candidates = first :: rest ∧
      ∀ {record : Type} [AccessedBits record] (marks : record), table.selectVictim marks =
        (secondChance first.id.index (first :: rest) marks).map fun taken =>
          (.ok taken.1, { table with hand := some taken.1 }, taken.2) := by
  rw [← wellFormed.candidates_eq_nil_iff] at takes
  have nonempty : table.count ≠ 0 := by
    intro empty
    apply takes
    unfold FrameTable.candidates FrameTable.sweepOrder
    rw [empty]
    rfl
  cases order : table.candidates with
  | nil => exact absurd order takes
  | cons first rest =>
      refine ⟨first, rest, rfl, ?_⟩
      intro record _ marks
      have selected := wellFormed.selectVictim_eq nonempty marks
      rw [order] at selected
      exact selected

theorem secondChance_taken {first slot : Nat} {frames : List Frame} : ∀ {marks left : bits},
    secondChance first frames marks = .ok (slot, left) →
      slot = first ∨ ∃ frame ∈ frames, frame.id.index = slot := by
  induction frames with
  | nil =>
      intro marks left taken
      cases taken
      exact .inl rfl
  | cons frame frames ih =>
      intro marks left taken
      unfold secondChance at taken
      split at taken
      · cases taken
      · cases taken
        exact .inr ⟨frame, List.mem_cons_self, rfl⟩
      · split at taken
        · cases taken
        · rcases ih taken with isFirst | ⟨other, member, index⟩
          · exact .inl isFirst
          · exact .inr ⟨other, List.mem_cons_of_mem _ member, index⟩

/-- The outcomes of a selection. It fails where there is nothing to select, and otherwise takes an
unpinned frame, unless the record of accessed bits stops it. -/
theorem FrameTable.WellFormed.selectVictim_cases (wellFormed : table.WellFormed) (marks : bits) :
    table.count = 0 ∧ table.selectVictim marks = .ok (.error .tableEmpty, table, marks) ∨
    table.count ≠ 0 ∧ table.AllPinned ∧ table.selectVictim marks =
      .ok (.error .allPinned, { table with hand := table.sweepOrder.getLast? }, marks) ∨
    table.count ≠ 0 ∧ ¬ table.AllPinned ∧
      ((∃ victim left, table.selectVictim marks =
          .ok (.ok victim, { table with hand := some victim }, left) ∧
          table.unpinnedAt victim = true) ∨
        ∃ halt, table.selectVictim marks = .error halt) := by
  by_cases empty : table.count = 0
  · left
    refine ⟨empty, ?_⟩
    unfold FrameTable.selectVictim
    exact if_pos empty
  · right
    have selected := wellFormed.selectVictim_eq empty marks
    cases order : table.candidates with
    | nil =>
        left
        rw [order] at selected
        exact ⟨empty, wellFormed.candidates_eq_nil_iff.mp order, selected⟩
    | cons first rest =>
        right
        rw [order] at selected
        have free : ∀ frame ∈ first :: rest, table.unpinnedAt frame.id.index = true := by
          intro frame member
          rw [← order, wellFormed.mem_candidates] at member
          exact FrameTable.unpinnedAt_iff_frame.mpr ⟨frame, member.1, member.2⟩
        have takes : ¬ table.AllPinned := by
          rw [← wellFormed.candidates_eq_nil_iff, order]
          exact List.cons_ne_nil first rest
        refine ⟨empty, takes, ?_⟩
        dsimp only at selected
        cases taken : secondChance first.id.index (first :: rest) marks with
        | error halt =>
            rw [taken] at selected
            exact .inr ⟨halt, selected⟩
        | ok choice =>
            obtain ⟨victim, left⟩ := choice
            rw [taken] at selected
            refine .inl ⟨victim, left, selected, ?_⟩
            rcases secondChance_taken taken with isFirst | ⟨frame, member, index⟩
            · rw [isFirst]
              exact free first List.mem_cons_self
            · rw [← index]
              exact free frame member

end Sweeping

section Passing

variable {marks left : bits} {frames : List Frame}

theorem PassedOver.secondChance (passed : PassedOver marks frames left) (first : Nat)
    (rest : List Frame) :
    secondChance first (frames ++ rest) marks = secondChance first rest left := by
  induction passed with
  | nil => rfl
  | cons asked cleared _ ih =>
      rw [List.cons_append, KernelPaging.secondChance, asked]
      dsimp only
      rw [cleared]
      exact ih

theorem AccessedBits.Answers.search {valid : bits → Prop} (answers : AccessedBits.Answers valid)
    (frames : List Frame) : ∀ marks, valid marks → ∃ passed left, PassedOver marks passed left ∧
      valid left ∧ (passed = frames ∨ ∃ victim rest after, frames = passed ++ victim :: rest ∧
        AccessedBits.isAccessed victim.owner victim.uaddr left = .ok (false, after)) := by
  induction frames with
  | nil =>
      intro marks sound
      exact ⟨[], marks, .nil marks, sound, .inl rfl⟩
  | cons frame frames ih =>
      intro marks sound
      obtain ⟨answer, asked, answered, askedSound⟩ :=
        answers.asked frame.owner frame.uaddr sound
      cases answer with
      | false =>
          exact ⟨[], marks, .nil marks, sound, .inr ⟨frame, frames, asked, rfl, answered⟩⟩
      | true =>
          obtain ⟨cleared, done, clearedSound⟩ :=
            answers.cleared frame.owner frame.uaddr askedSound
          obtain ⟨passed, left, passing, leftSound, found⟩ := ih cleared clearedSound
          refine ⟨frame :: passed, left, .cons answered done passing, leftSound, ?_⟩
          rcases found with all | ⟨victim, rest, after, order, untouched⟩
          · exact .inl (congrArg (frame :: ·) all)
          · exact .inr ⟨victim, rest, after, congrArg (frame :: ·) order, untouched⟩

theorem PassedOver.untouched [AccessedBits.OnlyClears bits]
    (passed : PassedOver marks frames left) {owner : ThreadId} {uaddr : Address} :
    Untouched owner uaddr marks → Untouched owner uaddr left := by
  intro untouched
  induction passed with
  | nil => exact untouched
  | cons asked cleared _ ih =>
      have still := AccessedBits.OnlyClears.asked asked untouched
      exact ih (AccessedBits.OnlyClears.cleared cleared still)

theorem PassedOver.marks_lost [AccessedBits.OnlyClears bits] {valid : bits → Prop}
    (faithful : AccessedBits.Faithful valid) (passed : PassedOver marks frames left) :
    valid marks → ∀ frame ∈ frames, ¬ Untouched frame.owner frame.uaddr marks ∧
      Untouched frame.owner frame.uaddr left := by
  induction passed with
  | nil =>
      intro _ frame member
      cases member
  | @cons marks asked cleared left frame frames answered done later ih =>
      intro sound other member
      have askedSound : valid asked := by
        rw [faithful.unmoved sound answered]
        exact sound
      have clearedSound : valid cleared := by
        obtain ⟨after, same, afterSound⟩ := faithful.cleared frame.owner frame.uaddr askedSound
        cases done.symm.trans same
        exact afterSound
      rcases List.mem_cons.mp member with rfl | member
      · constructor
        · rintro ⟨_, untouched⟩
          rw [answered] at untouched
          cases untouched
        · exact later.untouched (faithful.clears askedSound done)
      · obtain ⟨touched, lost⟩ := ih clearedSound other member
        refine ⟨?_, lost⟩
        intro untouched
        have still := AccessedBits.OnlyClears.asked answered untouched
        exact touched (AccessedBits.OnlyClears.cleared done still)

end Passing

/-! ### Calls to the record -/

inductive MarkCall
  | asked (owner : ThreadId) (uaddr : Address)
  | cleared (owner : ThreadId) (uaddr : Address)
deriving DecidableEq

def MarkCall.passing (frame : Frame) : List MarkCall :=
  [.asked frame.owner frame.uaddr, .cleared frame.owner frame.uaddr]

/-- A record of accessed bits that also keeps the calls made to it. It answers as without them. -/
structure Recorded (bits : Type) where
  marks : bits
  calls : List MarkCall := []
deriving DecidableEq

instance : AccessedBits (Recorded bits) where
  isAccessed owner uaddr recorded :=
    match AccessedBits.isAccessed owner uaddr recorded.marks with
    | .error halt => .error halt
    | .ok (answer, marks) => .ok (answer, ⟨marks, recorded.calls ++ [.asked owner uaddr]⟩)
  clearAccessed owner uaddr recorded :=
    match AccessedBits.clearAccessed owner uaddr recorded.marks with
    | .error halt => .error halt
    | .ok marks => .ok ⟨marks, recorded.calls ++ [.cleared owner uaddr]⟩

section Calls

variable {marks left : bits}

theorem Recorded.isAccessed_ok {owner : ThreadId} {uaddr : Address} {answer : Bool}
    (answered : AccessedBits.isAccessed owner uaddr marks = .ok (answer, left))
    (calls : List MarkCall) :
    AccessedBits.isAccessed owner uaddr (Recorded.mk marks calls) =
      .ok (answer, ⟨left, calls ++ [.asked owner uaddr]⟩) := by
  change (match AccessedBits.isAccessed owner uaddr marks with
    | .error halt => .error halt
    | .ok (answer, marks) => .ok (answer, ⟨marks, calls ++ [.asked owner uaddr]⟩) :
      Except Halt (Bool × Recorded bits)) = _
  rw [answered]

theorem Recorded.clearAccessed_ok {owner : ThreadId} {uaddr : Address}
    (cleared : AccessedBits.clearAccessed owner uaddr marks = .ok left)
    (calls : List MarkCall) :
    AccessedBits.clearAccessed owner uaddr (Recorded.mk marks calls) =
      .ok ⟨left, calls ++ [.cleared owner uaddr]⟩ := by
  change (match AccessedBits.clearAccessed owner uaddr marks with
    | .error halt => .error halt
    | .ok marks => .ok ⟨marks, calls ++ [.cleared owner uaddr]⟩ :
      Except Halt (Recorded bits)) = _
  rw [cleared]

theorem PassedOver.recorded {frames : List Frame} (passed : PassedOver marks frames left) :
    ∀ calls, PassedOver (Recorded.mk marks calls) frames
      ⟨left, calls ++ frames.flatMap MarkCall.passing⟩ := by
  induction passed with
  | nil marks =>
      intro calls
      rw [List.flatMap_nil, List.append_nil]
      exact .nil _
  | @cons marks asked cleared left frame frames answered done _ ih =>
      intro calls
      have order : calls ++ (frame :: frames).flatMap MarkCall.passing =
          calls ++ [.asked frame.owner frame.uaddr] ++ [.cleared frame.owner frame.uaddr] ++
            frames.flatMap MarkCall.passing := by
        simp [MarkCall.passing]
      rw [order]
      exact .cons (Recorded.isAccessed_ok answered _) (Recorded.clearAccessed_ok done _) (ih _)

theorem AccessedBits.Faithful.secondChance_recorded {valid : bits → Prop}
    (faithful : AccessedBits.Faithful valid) (sound : valid marks) (head : Frame)
    (rest : List Frame) :
    ∃ passed victim left calls,
      secondChance head.id.index (head :: rest) marks = .ok (victim.id.index, left) ∧
      secondChance head.id.index (head :: rest) (Recorded.mk marks []) =
        .ok (victim.id.index, ⟨left, calls⟩) ∧
      PassedOver marks passed left ∧
      ((∃ behind, head :: rest = passed ++ victim :: behind ∧
          Untouched victim.owner victim.uaddr left ∧
          calls = passed.flatMap MarkCall.passing ++ [.asked victim.owner victim.uaddr]) ∨
        (passed = head :: rest ∧ victim = head ∧ calls = passed.flatMap MarkCall.passing)) := by
  obtain ⟨passed, left, passing, leftSound, found⟩ :=
    faithful.search (head :: rest) marks sound
  have recorded := passing.recorded []
  rw [List.nil_append] at recorded
  rcases found with all | ⟨victim, behind, after, order, untouched⟩
  · have plainly := passing.secondChance head.id.index []
    have observed := recorded.secondChance head.id.index []
    rw [all, List.append_nil] at plainly observed
    exact ⟨passed, head, left, _, plainly, all ▸ observed, passing, .inr ⟨all, rfl, rfl⟩⟩
  · obtain rfl := faithful.unmoved leftSound untouched
    have plainly := passing.secondChance head.id.index (victim :: behind)
    have observed := recorded.secondChance head.id.index (victim :: behind)
    have answered := Recorded.isAccessed_ok untouched (passed.flatMap MarkCall.passing)
    rw [secondChance, untouched] at plainly
    rw [secondChance, answered] at observed
    refine ⟨passed, victim, after, _, ?_, ?_, passing, .inl ⟨behind, order, ⟨_, untouched⟩, rfl⟩⟩
    · rw [order, plainly]
    · rw [order, observed]

end Calls

/-- A selection among the candidates: some are passed over and the next one is taken, or all are
passed over and the first one is taken. -/
structure FrameTable.Picks (table : FrameTable) (marks : bits) (passed : List Frame)
    (victim : Frame) (left : bits) : Prop where
  passing : PassedOver marks passed left
  turn : (∃ behind, table.candidates = passed ++ victim :: behind ∧
      Untouched victim.owner victim.uaddr left) ∨
    (passed = table.candidates ∧ table.candidates.head? = some victim)

theorem FrameTable.Picks.candidate {table : FrameTable} {marks left : bits} {passed : List Frame}
    {victim : Frame} (picks : table.Picks marks passed victim left) :
    victim ∈ table.candidates := by
  rcases picks.turn with ⟨behind, order, _⟩ | ⟨_, isFirst⟩
  · rw [order]
    exact List.mem_append_right _ List.mem_cons_self
  · exact List.mem_of_head? isFirst

theorem FrameTable.WellFormed.selectVictim_picks {valid : bits → Prop}
    (faithful : AccessedBits.Faithful valid) {table : FrameTable} (wellFormed : table.WellFormed)
    (takes : ¬ table.AllPinned) {marks : bits} (sound : valid marks) :
    ∃ passed victim left, table.selectVictim marks =
        .ok (.ok victim.id.index, { table with hand := some victim.id.index }, left) ∧
      table.Picks marks passed victim left := by
  obtain ⟨first, rest, order, selects⟩ := wellFormed.selectVictim_among takes
  obtain ⟨passed, victim, left, _, chosen, _, passing, found⟩ :=
    faithful.secondChance_recorded sound first rest
  have selected := selects marks
  rw [chosen] at selected
  refine ⟨passed, victim, left, selected, passing, ?_⟩
  rw [order]
  rcases found with ⟨behind, split, untouched, _⟩ | ⟨all, isFirst, _⟩
  · exact .inl ⟨behind, split, untouched⟩
  · exact .inr ⟨all, congrArg some isFirst.symm⟩

/-- A selection takes the first candidate that is untouched when its turn comes, or, if all are
touched, the first of all. It asks for each candidate up to there once, in their order, and clears
the marks of those that it passes over. Of the table only the hand changes, which is left on the
victim. -/
theorem FrameTable.WellFormed.gives_second_chance [AccessedBits.OnlyClears bits]
    {valid : bits → Prop} (faithful : AccessedBits.Faithful valid) {table : FrameTable}
    (wellFormed : table.WellFormed) {slot : Nat} (unpinned : table.unpinnedAt slot = true)
    (marks : bits) (sound : valid marks) :
    ∃ passed victim left calls,
      table.selectVictim marks =
        .ok (.ok victim.id.index, { table with hand := some victim.id.index }, left) ∧
      table.selectVictim (Recorded.mk marks []) =
        .ok (.ok victim.id.index, { table with hand := some victim.id.index }, ⟨left, calls⟩) ∧
      PassedOver marks passed left ∧
      ((∃ behind, table.candidates = passed ++ victim :: behind ∧
          Untouched victim.owner victim.uaddr left ∧
          calls = passed.flatMap MarkCall.passing ++ [.asked victim.owner victim.uaddr]) ∨
        (passed = table.candidates ∧ table.candidates.head? = some victim ∧
          calls = passed.flatMap MarkCall.passing)) ∧
      table.candidates.Nodup ∧
      (∀ frame, frame ∈ table.candidates ↔
        table.frameAt? frame.id.index = some frame ∧ frame.pinned = false) ∧
      ∀ frame ∈ passed, ¬ Untouched frame.owner frame.uaddr marks ∧
        Untouched frame.owner frame.uaddr left := by
  have takes : ¬ table.AllPinned := by
    obtain ⟨frame, resident, free⟩ := FrameTable.unpinnedAt_iff_frame.mp unpinned
    intro allPinned
    rw [allPinned slot frame resident] at free
    cases free
  obtain ⟨first, rest, order, selects⟩ := wellFormed.selectVictim_among takes
  obtain ⟨passed, victim, left, calls, chosen, recorded, passing, found⟩ :=
    faithful.secondChance_recorded sound first rest
  have plain := selects marks
  have observed := selects (Recorded.mk marks [])
  rw [chosen] at plain
  rw [recorded] at observed
  refine ⟨passed, victim, left, calls, plain, observed, passing, ?_, wellFormed.candidates_nodup,
    fun _ => wellFormed.mem_candidates, passing.marks_lost faithful sound⟩
  rw [order]
  exact found.imp_right fun ⟨all, isFirst, made⟩ => ⟨all, congrArg some isFirst.symm, made⟩

def ownedRecord (owner : UInt64) (pinned : Bool) : FrameRecord :=
  { owner := ⟨owner⟩, uaddr := default, kpage := default, pinned }

def FrameTable.fourOwners : FrameTable :=
  let one := (({} : FrameTable).insert (ownedRecord 1 false)).2
  let two := (one.insert (ownedRecord 2 true)).2
  let three := (two.insert (ownedRecord 3 false)).2
  { (three.insert (ownedRecord 4 false)).2 with hand := some 3 }

theorem FrameTable.fourOwners_wellFormed : FrameTable.fourOwners.WellFormed := by
  have two := (FrameTable.represents_empty.insert (ownedRecord 1 false)).insert
    (ownedRecord 2 true)
  have four := (two.insert (ownedRecord 3 false)).insert (ownedRecord 4 false)
  have moved : FrameTable.fourOwners.Represents _ := four.setHand (by decide +kernel)
  exact moved.wellFormed

/-- The first of the four frames is touched and passed over, the pinned one is not asked for, and
the third one is taken. -/
theorem FrameTable.fourOwners_selected :
    FrameTable.fourOwners.unpinnedAt 2 = true ∧
      ∃ passed, ∃ victim : Frame, victim.id.index = 2 ∧
        PassedOver (⟨[(⟨1⟩, default), (⟨4⟩, default)]⟩ : TouchedSet) passed ⟨[(⟨4⟩, default)]⟩ ∧
        passed.flatMap MarkCall.passing ++ [.asked victim.owner victim.uaddr] =
          [.asked ⟨1⟩ default, .cleared ⟨1⟩ default, .asked ⟨3⟩ default] := by
  have unpinned : FrameTable.fourOwners.unpinnedAt 2 = true := by decide +kernel
  have evaluated : FrameTable.fourOwners.selectVictim
      (Recorded.mk (⟨[(⟨1⟩, default), (⟨4⟩, default)]⟩ : TouchedSet) []) =
        .ok (.ok 2, { FrameTable.fourOwners with hand := some 2 }, ⟨⟨[(⟨4⟩, default)]⟩,
          [.asked ⟨1⟩ default, .cleared ⟨1⟩ default, .asked ⟨3⟩ default]⟩) := by
    decide +kernel
  obtain ⟨passed, victim, left, calls, _, recorded, passing, found, _⟩ :=
    FrameTable.fourOwners_wellFormed.gives_second_chance TouchedSet.faithful unpinned
      ⟨[(⟨1⟩, default), (⟨4⟩, default)]⟩ trivial
  rw [evaluated] at recorded
  simp only [Except.ok.injEq, Prod.mk.injEq, Recorded.mk.injEq] at recorded
  obtain ⟨index, -, rfl, rfl⟩ := recorded
  refine ⟨unpinned, passed, victim, index.symm, passing, ?_⟩
  rcases found with ⟨_, _, _, made⟩ | ⟨_, isFirst, _⟩
  · exact made.symm
  · -- The first candidate stands in slot 0.
    have first : FrameTable.fourOwners.candidates.head?.map (fun frame => frame.id.index) =
        some 0 := by
      decide +kernel
    rw [isFirst] at first
    simp [← index] at first

end KernelPaging
