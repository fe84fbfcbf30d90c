import KernelPaging.Proofs.Marks
import KernelPaging.Proofs.Selection

/-!
What a walk through the page tables reads, and what it leaves behind. The entry whose accessed bit
is cleared may also be a link of other walks, or of the very walk that led to it, since tables may
be shared and may refer to themselves. A link does not depend on that bit, so every walk ends where
it ended before.
-/

set_option autoImplicit false

namespace KernelPaging

/-- The tables that the walk for a page comes to, by their levels. It passes on through entries that
are present and map no huge page. -/
inductive PageTables.Reaches (tables : PageTables) (owner : ThreadId) (uaddr : Address) :
    (level table : Nat) → Prop
  | root {word : UInt64} : tables.roots.lookup owner = some word →
      Reaches tables owner uaddr 3 word.toNat
  | link {level table place : Nat} : Reaches tables owner uaddr (level + 1) table →
      place = entryPlace table (uaddr.tableIndex (level + 1)) →
      (tables.word place).present = true → (tables.word place).huge = false →
      Reaches tables owner uaddr level (tables.word place).target

/-- The walk ends at an entry: the first one that maps a huge page, or the one at the last level. -/
inductive PageTables.EndsAt (tables : PageTables) (owner : ThreadId) (uaddr : Address)
    (place : Nat) : Prop
  | leaf {level table : Nat} : tables.Reaches owner uaddr level table →
      place = entryPlace table (uaddr.tableIndex level) →
      (tables.word place).present = true → level = 0 ∨ (tables.word place).huge = true →
      EndsAt tables owner uaddr place

/-- The walk has no table to begin with, or comes to an entry that is not present. -/
inductive PageTables.BreaksOff (tables : PageTables) (owner : ThreadId) (uaddr : Address) : Prop
  | rootless : tables.roots.lookup owner = none → BreaksOff tables owner uaddr
  | absent {level table : Nat} : tables.Reaches owner uaddr level table →
      (tables.word (entryPlace table (uaddr.tableIndex level))).present = false →
      BreaksOff tables owner uaddr

/-- Every table that a walk comes to lies in physical memory and is mapped by the linear map. -/
def PageTables.Readable (tables : PageTables) : Prop :=
  ∀ owner uaddr level table, tables.Reaches owner uaddr level table →
    table < 0x10000000000000 ∧ ∃ address, tables.linearBase.offset table = .ok address

/-- The accessed bits of some entries were cleared. Nothing else was, and nothing was set. -/
structure PageTables.Cleared (tables after : PageTables) (entries : Nat → Prop) : Prop where
  roots : after.roots = tables.roots
  linearBase : after.linearBase = tables.linearBase
  bits : ∀ place bit, (after.word place).getLsbD bit = true ↔
    (tables.word place).getLsbD bit = true ∧ ¬ (bit = 5 ∧ entries place)

/-- Every walk still ends at the same entry, and only those that end at one of the given entries may
answer otherwise than before: these answer that the page was not touched. -/
structure PageTables.WalksKept (tables after : PageTables) (entries : Nat → Prop) : Prop where
  ends : ∀ owner uaddr place,
    after.EndsAt owner uaddr place ↔ tables.EndsAt owner uaddr place
  breaks : ∀ owner uaddr, after.BreaksOff owner uaddr ↔ tables.BreaksOff owner uaddr
  cleared : ∀ owner uaddr place, tables.EndsAt owner uaddr place → entries place →
    after.isAccessed owner uaddr = .ok false
  others : ∀ owner uaddr, (∀ place, tables.EndsAt owner uaddr place → ¬ entries place) →
    after.isAccessed owner uaddr = tables.isAccessed owner uaddr

/-! ### The walk that is computed -/

section Walking

variable {tables : PageTables} {owner : ThreadId} {uaddr : Address}

theorem PageTables.leafBelow_step {level table : Nat}
    (mapped : ∃ address, tables.linearBase.offset table = .ok address) :
    tables.leafBelow uaddr level table =
      if (tables.word (entryPlace table (uaddr.tableIndex level))).present then
        match level with
        | 0 => .ok (some (entryPlace table (uaddr.tableIndex level)))
        | below + 1 =>
            if (tables.word (entryPlace table (uaddr.tableIndex level))).huge then
              .ok (some (entryPlace table (uaddr.tableIndex level)))
            else
              tables.leafBelow uaddr below
                (tables.word (entryPlace table (uaddr.tableIndex level))).target
      else
        .ok none := by
  obtain ⟨address, reached⟩ := mapped
  cases level with
  | zero => rw [PageTables.leafBelow, reached]
  | succ below => rw [PageTables.leafBelow, reached]

theorem PageTables.Readable.leaf_eq (readable : tables.Readable) {level table : Nat}
    (reaches : tables.Reaches owner uaddr level table) :
    tables.leaf owner uaddr = tables.leafBelow uaddr level table := by
  induction reaches with
  | @root word found =>
      have within := (readable _ uaddr _ _ (.root found)).1
      unfold PageTables.leaf PageTables.root physicalAddress
      rw [found]
      dsimp only
      rw [if_pos within]
  | link above same present small ih =>
      subst same
      rw [ih, PageTables.leafBelow_step (readable _ _ _ _ above).2, if_pos present]
      dsimp only
      rw [if_neg (by rw [small]; exact Bool.false_ne_true)]

theorem PageTables.Readable.leaf_some (readable : tables.Readable) {place : Nat}
    (ends : tables.EndsAt owner uaddr place) : tables.leaf owner uaddr = .ok (some place) := by
  cases ends with
  | @leaf level table reaches same present last =>
      subst same
      rw [readable.leaf_eq reaches, PageTables.leafBelow_step (readable _ _ _ _ reaches).2,
        if_pos present]
      cases level with
      | zero => rfl
      | succ below =>
          have huge := last.resolve_left (Nat.succ_ne_zero below)
          dsimp only
          rw [if_pos huge]

theorem PageTables.Readable.leaf_none (readable : tables.Readable)
    (breaks : tables.BreaksOff owner uaddr) : tables.leaf owner uaddr = .ok none := by
  cases breaks with
  | rootless missing =>
      unfold PageTables.leaf PageTables.root
      rw [missing]
  | absent reaches absent =>
      rw [readable.leaf_eq reaches, PageTables.leafBelow_step (readable _ _ _ _ reaches).2,
        if_neg (by rw [absent]; exact Bool.false_ne_true)]

theorem PageTables.Reaches.ends_or_breaks (level : Nat) : ∀ table,
    tables.Reaches owner uaddr level table →
      (∃ place, tables.EndsAt owner uaddr place) ∨ tables.BreaksOff owner uaddr := by
  induction level with
  | zero =>
      intro table reaches
      cases present : (tables.word (entryPlace table (uaddr.tableIndex 0))).present with
      | false => exact .inr (.absent reaches present)
      | true => exact .inl ⟨_, .leaf reaches rfl present (.inl rfl)⟩
  | succ below ih =>
      intro table reaches
      cases present : (tables.word (entryPlace table (uaddr.tableIndex (below + 1)))).present with
      | false => exact .inr (.absent reaches present)
      | true =>
          cases huge : (tables.word (entryPlace table (uaddr.tableIndex (below + 1)))).huge with
          | true => exact .inl ⟨_, .leaf reaches rfl present (.inr huge)⟩
          | false => exact ih _ (.link reaches rfl present huge)

theorem PageTables.ends_or_breaks (tables : PageTables) (owner : ThreadId) (uaddr : Address) :
    (∃ place, tables.EndsAt owner uaddr place) ∨ tables.BreaksOff owner uaddr := by
  cases found : tables.roots.lookup owner with
  | none => exact .inr (.rootless found)
  | some word => exact PageTables.Reaches.ends_or_breaks 3 _ (.root found)

theorem PageTables.Readable.isAccessed_some (readable : tables.Readable) {place : Nat}
    (ends : tables.EndsAt owner uaddr place) :
    tables.isAccessed owner uaddr = .ok ((tables.word place).getLsbD 5) := by
  unfold PageTables.isAccessed
  rw [readable.leaf_some ends]
  rfl

theorem PageTables.Readable.isAccessed_none (readable : tables.Readable)
    (breaks : tables.BreaksOff owner uaddr) : tables.isAccessed owner uaddr = .ok false := by
  unfold PageTables.isAccessed
  rw [readable.leaf_none breaks]

theorem PageTables.Readable.ends_once (readable : tables.Readable) {place : Nat}
    (ends : tables.EndsAt owner uaddr place) :
    (∀ other, tables.EndsAt owner uaddr other ↔ other = place) ∧
      ¬ tables.BreaksOff owner uaddr := by
  have found := readable.leaf_some ends
  constructor
  · intro other
    constructor
    · intro also
      have same := (readable.leaf_some also).symm.trans found
      exact Option.some.inj (Except.ok.inj same)
    · intro same
      rw [same]
      exact ends
  · intro breaks
    cases found.symm.trans (readable.leaf_none breaks)

end Walking

section Clearing

variable {tables after : PageTables} {entries : Nat → Prop}

theorem PageTables.Cleared.getLsbD (cleared : tables.Cleared after entries) (place : Nat)
    {bit : Nat} (other : bit ≠ 5) :
    (after.word place).getLsbD bit = (tables.word place).getLsbD bit := by
  apply Bool.eq_iff_iff.mpr
  rw [cleared.bits]
  exact and_iff_left fun both => other both.1

theorem PageTables.Cleared.target (cleared : tables.Cleared after entries) (place : Nat) :
    (after.word place).target = (tables.word place).target := by
  unfold TableWord.target
  apply congrArg BitVec.toNat
  apply BitVec.eq_of_getLsbD_eq
  intro bit _
  rw [BitVec.getLsbD_and, BitVec.getLsbD_and]
  by_cases accessed : bit = 5
  · -- The accessed bit is not part of the address.
    have outside : (0x000ffffffffff000#64).getLsbD 5 = false := by decide
    rw [accessed, outside, Bool.and_false, Bool.and_false]
  · rw [cleared.getLsbD place accessed]

theorem PageTables.Cleared.reaches (cleared : tables.Cleared after entries) {owner : ThreadId}
    {uaddr : Address} {level table : Nat} :
    after.Reaches owner uaddr level table ↔ tables.Reaches owner uaddr level table := by
  have present : ∀ place, (after.word place).present = (tables.word place).present :=
    fun place => cleared.getLsbD place (by decide)
  have huge : ∀ place, (after.word place).huge = (tables.word place).huge :=
    fun place => cleared.getLsbD place (by decide)
  constructor
  · intro reaches
    induction reaches with
    | root found => exact .root (cleared.roots ▸ found)
    | link _ same isPresent isSmall ih =>
        rw [present] at isPresent
        rw [huge] at isSmall
        rw [cleared.target]
        exact .link ih same isPresent isSmall
  · intro reaches
    induction reaches with
    | root found => exact .root (cleared.roots.symm ▸ found)
    | link _ same isPresent isSmall ih =>
        rw [← present] at isPresent
        rw [← huge] at isSmall
        rw [← cleared.target]
        exact .link ih same isPresent isSmall

theorem PageTables.Cleared.readable (cleared : tables.Cleared after entries)
    (readable : tables.Readable) : after.Readable := by
  intro owner uaddr level table reaches
  rw [cleared.linearBase]
  exact readable owner uaddr level table (cleared.reaches.mp reaches)

theorem PageTables.Cleared.endsAt (cleared : tables.Cleared after entries) (owner : ThreadId)
    (uaddr : Address) (place : Nat) :
    after.EndsAt owner uaddr place ↔ tables.EndsAt owner uaddr place := by
  have present : (after.word place).present = (tables.word place).present :=
    cleared.getLsbD place (by decide)
  have huge : (after.word place).huge = (tables.word place).huge :=
    cleared.getLsbD place (by decide)
  constructor
  · intro ends
    cases ends with
    | leaf reaches same isPresent last =>
        exact .leaf (cleared.reaches.mp reaches) same (present ▸ isPresent) (huge ▸ last)
  · intro ends
    cases ends with
    | leaf reaches same isPresent last =>
        exact .leaf (cleared.reaches.mpr reaches) same (present.symm ▸ isPresent)
          (huge.symm ▸ last)

theorem PageTables.Cleared.breaksOff (cleared : tables.Cleared after entries) (owner : ThreadId)
    (uaddr : Address) : after.BreaksOff owner uaddr ↔ tables.BreaksOff owner uaddr := by
  have present : ∀ place, (after.word place).present = (tables.word place).present :=
    fun place => cleared.getLsbD place (by decide)
  constructor
  · intro breaks
    cases breaks with
    | rootless missing => exact .rootless (cleared.roots ▸ missing)
    | absent reaches missing => exact .absent (cleared.reaches.mp reaches) (present _ ▸ missing)
  · intro breaks
    cases breaks with
    | rootless missing => exact .rootless (cleared.roots.symm ▸ missing)
    | absent reaches missing =>
        exact .absent (cleared.reaches.mpr reaches) ((present _).symm ▸ missing)

theorem PageTables.Cleared.walksKept (cleared : tables.Cleared after entries)
    (readable : tables.Readable) : tables.WalksKept after entries := by
  have stillReadable := cleared.readable readable
  constructor
  · exact cleared.endsAt
  · exact cleared.breaksOff
  · intro owner uaddr place ends isCleared
    rw [stillReadable.isAccessed_some ((cleared.endsAt owner uaddr place).mpr ends)]
    apply congrArg Except.ok
    apply Bool.eq_false_iff.mpr
    intro still
    exact ((cleared.bits place 5).mp still).2 ⟨rfl, isCleared⟩
  · intro owner uaddr elsewhere
    cases tables.ends_or_breaks owner uaddr with
    | inl found =>
        obtain ⟨place, ends⟩ := found
        rw [readable.isAccessed_some ends,
          stillReadable.isAccessed_some ((cleared.endsAt owner uaddr place).mpr ends)]
        apply congrArg Except.ok
        apply Bool.eq_iff_iff.mpr
        rw [cleared.bits]
        exact and_iff_left fun both => elsewhere place ends both.2
    | inr breaks =>
        rw [readable.isAccessed_none breaks,
          stillReadable.isAccessed_none ((cleared.breaksOff owner uaddr).mpr breaks)]

theorem PageTables.Cleared.refl (tables : PageTables) : tables.Cleared tables fun _ => False := by
  constructor
  · rfl
  · rfl
  · intro place bit
    exact (and_iff_left fun both => both.2).symm

theorem PageTables.Cleared.trans {middle : PageTables} {more : Nat → Prop}
    (first : tables.Cleared middle entries) (second : middle.Cleared after more) :
    tables.Cleared after fun place => entries place ∨ more place := by
  constructor
  · exact second.roots.trans first.roots
  · exact second.linearBase.trans first.linearBase
  · intro place bit
    rw [second.bits, first.bits, and_assoc, ← not_or, ← and_or_left]

theorem PageTables.clearEntry_cleared (tables : PageTables) (place : Nat) :
    tables.Cleared (tables.clearEntry place) fun other => other = place := by
  constructor
  · rfl
  · rfl
  · intro other bit
    rw [PageTables.word_clearEntry]
    by_cases same : place = other
    · rw [if_pos same]
      unfold TableWord.clearAccessed
      rw [BitVec.getLsbD_and, BitVec.getLsbD_not, BitVec.getLsbD_twoPow, Bool.and_eq_true]
      constructor
      · intro both
        refine ⟨both.1, ?_⟩
        intro accessed
        rw [accessed.1] at both
        exact absurd both.2 (by decide)
      · intro both
        have inside := BitVec.lt_of_getLsbD both.1
        have other : ¬ 5 = bit := fun five => both.2 ⟨five.symm, same.symm⟩
        exact ⟨both.1, by simp [inside, other]⟩
    · rw [if_neg same]
      exact (and_iff_left fun both => same both.2.symm).symm

theorem PageTables.Readable.clearAccessed_ok (readable : tables.Readable) (owner : ThreadId)
    (uaddr : Address) :
    ∃ after, tables.clearAccessed owner uaddr = .ok after ∧
      tables.Cleared after (tables.EndsAt owner uaddr) := by
  unfold PageTables.clearAccessed
  cases tables.ends_or_breaks owner uaddr with
  | inl found =>
      obtain ⟨place, ends⟩ := found
      rw [readable.leaf_some ends]
      refine ⟨tables.clearEntry place, rfl, ?_⟩
      have only := (readable.ends_once ends).1
      rw [funext fun other => propext (only other)]
      exact tables.clearEntry_cleared place
  | inr breaks =>
      rw [readable.leaf_none breaks]
      refine ⟨tables, rfl, ?_⟩
      have nowhere : tables.EndsAt owner uaddr = fun _ => False := by
        funext place
        apply propext
        constructor
        · intro ends
          exact (readable.ends_once ends).2 breaks
        · exact False.elim
      rw [nowhere]
      exact .refl tables

end Clearing

/-! ### Sweeps -/

section Sweeping

variable {tables : PageTables}

/-- The entry is the leaf of an unpinned frame's page. -/
def FrameTable.IsLeaf (frames : FrameTable) (tables : PageTables) (place : Nat) : Prop :=
  ∃ slot occupant, frames.occupant? slot = some occupant ∧ occupant.pinned = false ∧
    tables.EndsAt occupant.owner occupant.uaddr place

def FrameTable.Swept (frames : FrameTable) (tables after : PageTables) : Prop :=
  ∃ entries, tables.Cleared after entries ∧ ∀ place, entries place → frames.IsLeaf tables place

theorem FrameTable.Swept.refl (frames : FrameTable) (tables : PageTables) :
    frames.Swept tables tables :=
  ⟨fun _ => False, .refl tables, fun _ => False.elim⟩

theorem FrameTable.Swept.trans {frames : FrameTable} {middle after : PageTables}
    (first : frames.Swept tables middle) (second : frames.Swept middle after) :
    frames.Swept tables after := by
  obtain ⟨entries, cleared, leaves⟩ := first
  obtain ⟨more, clearedMore, leavesMore⟩ := second
  refine ⟨_, cleared.trans clearedMore, ?_⟩
  intro place either
  cases either with
  | inl sooner => exact leaves place sooner
  | inr later =>
      obtain ⟨slot, occupant, found, unpinned, ends⟩ := leavesMore place later
      exact ⟨slot, occupant, found, unpinned, (cleared.endsAt _ _ _).mp ends⟩

theorem FrameTable.Swept.readable {frames : FrameTable} {after : PageTables}
    (swept : frames.Swept tables after) (readable : tables.Readable) : after.Readable := by
  obtain ⟨entries, cleared, _⟩ := swept
  exact cleared.readable readable

theorem FrameTable.examine_swept (readable : tables.Readable) (frames : FrameTable)
    (index : Nat) :
    ∃ taken after, frames.examine index tables = .ok (taken, after) ∧
      frames.Swept tables after := by
  unfold FrameTable.examine
  cases found : frames.occupant? index with
  | none => exact ⟨false, tables, rfl, .refl frames tables⟩
  | some occupant =>
      dsimp only
      cases pinned : occupant.pinned with
      | true => exact ⟨false, tables, rfl, .refl frames tables⟩
      | false =>
          have answered : ∃ accessed,
              tables.isAccessed occupant.owner occupant.uaddr = .ok accessed := by
            cases tables.ends_or_breaks occupant.owner occupant.uaddr with
            | inl found => exact ⟨_, readable.isAccessed_some found.choose_spec⟩
            | inr breaks => exact ⟨_, readable.isAccessed_none breaks⟩
          obtain ⟨accessed, asked⟩ := answered
          obtain ⟨after, done, cleared⟩ :=
            readable.clearAccessed_ok occupant.owner occupant.uaddr
          simp only [AccessedBits.isAccessed, AccessedBits.clearAccessed, asked]
          cases accessed with
          | false => exact ⟨true, tables, rfl, .refl frames tables⟩
          | true =>
              simp only [done]
              refine ⟨false, after, rfl, _, cleared, ?_⟩
              intro place ends
              exact ⟨index, occupant, found, pinned, ends⟩

theorem FrameTable.sweep_swept (start turns : Nat) : ∀ (current : Nat) (frames : FrameTable)
    (tables : PageTables), tables.Readable →
      ∃ victim moved after, frames.sweep start turns current tables = .ok (victim, moved, after) ∧
        frames.Swept tables after := by
  induction turns with
  | zero =>
      intro current frames tables _
      exact ⟨start, frames, tables, rfl, .refl frames tables⟩
  | succ turns ih =>
      intro current frames tables readable
      obtain ⟨taken, middle, examined, first⟩ := frames.examine_swept readable current
      unfold FrameTable.sweep
      rw [examined]
      cases taken with
      | true => exact ⟨current, frames, middle, rfl, first⟩
      | false =>
          dsimp only
          cases frames.advance (some current) with
          | none => exact ⟨start, frames, middle, rfl, first⟩
          | some next =>
              dsimp only
              by_cases around : next = start
              · rw [if_pos around]
                exact ⟨start, { frames with hand := some next }, middle, rfl, first⟩
              · rw [if_neg around]
                obtain ⟨victim, moved, after, swept, rest⟩ :=
                  ih next { frames with hand := some next } middle (first.readable readable)
                exact ⟨victim, moved, after, swept, first.trans rest⟩

theorem FrameTable.selectVictim_swept (readable : tables.Readable) (frames : FrameTable) :
    ∃ outcome moved after, frames.selectVictim tables = .ok (outcome, moved, after) ∧
      frames.Swept tables after := by
  unfold FrameTable.selectVictim
  by_cases empty : frames.count = 0
  · rw [if_pos empty]
    exact ⟨_, frames, tables, rfl, .refl frames tables⟩
  · rw [if_neg empty]
    obtain ⟨hand, same, _⟩ := (FrameTable.seekUnpinned_spec frames.count frames).1
    cases sought : frames.seekUnpinned frames.count with | mk start middle =>
    rw [sought] at same
    subst same
    cases start with
    | none => exact ⟨_, { frames with hand }, tables, rfl, .refl frames tables⟩
    | some start =>
        obtain ⟨victim, moved, after, swept, entries, cleared, leaves⟩ :=
          FrameTable.sweep_swept start frames.count start { frames with hand } tables readable
        dsimp only
        rw [swept]
        exact ⟨_, moved, after, rfl, entries, cleared, leaves⟩

end Sweeping

/-- A page counts as accessed by bit 5 of the entry at which its walk ends. Clearing that bit
changes nothing else in the tables, a sweep changes nothing but such bits of unpinned frames' pages,
and after either every walk ends where it ended before. -/
theorem PageTables.clears_only_leaves {tables : PageTables} (readable : tables.Readable) :
    (∀ owner uaddr,
      ((∃ place, ∀ other, tables.EndsAt owner uaddr other ↔ other = place) ∧
          ¬ tables.BreaksOff owner uaddr ∨
        (∀ place, ¬ tables.EndsAt owner uaddr place) ∧ tables.BreaksOff owner uaddr) ∧
      (∀ place, tables.EndsAt owner uaddr place →
        tables.isAccessed owner uaddr = .ok ((tables.word place).getLsbD 5)) ∧
      (tables.BreaksOff owner uaddr → tables.isAccessed owner uaddr = .ok false)) ∧
    (∀ owner uaddr, ∃ after, tables.clearAccessed owner uaddr = .ok after ∧
      tables.Cleared after (tables.EndsAt owner uaddr) ∧
      after.isAccessed owner uaddr = .ok false ∧
      tables.WalksKept after (tables.EndsAt owner uaddr) ∧ after.Readable) ∧
    ∀ frames : FrameTable, ∃ outcome moved after entries,
      frames.selectVictim tables = .ok (outcome, moved, after) ∧
      tables.Cleared after entries ∧
      (∀ place, entries place → ∃ slot occupant, frames.occupant? slot = some occupant ∧
        occupant.pinned = false ∧ tables.EndsAt occupant.owner occupant.uaddr place) ∧
      tables.WalksKept after entries ∧ after.Readable := by
  refine ⟨?_, ?_, ?_⟩
  · intro owner uaddr
    refine ⟨?_, fun place => readable.isAccessed_some, readable.isAccessed_none⟩
    cases tables.ends_or_breaks owner uaddr with
    | inl found =>
        obtain ⟨place, ends⟩ := found
        have once := readable.ends_once ends
        exact .inl ⟨⟨place, once.1⟩, once.2⟩
    | inr breaks =>
        exact .inr ⟨fun place ends => (readable.ends_once ends).2 breaks, breaks⟩
  · intro owner uaddr
    obtain ⟨after, done, cleared⟩ := readable.clearAccessed_ok owner uaddr
    have kept := cleared.walksKept readable
    refine ⟨after, done, cleared, ?_, kept, cleared.readable readable⟩
    cases tables.ends_or_breaks owner uaddr with
    | inl found => exact kept.cleared owner uaddr _ found.choose_spec found.choose_spec
    | inr breaks =>
        have still := (kept.breaks owner uaddr).mpr breaks
        exact (cleared.readable readable).isAccessed_none still
  · intro frames
    obtain ⟨outcome, moved, after, selected, entries, cleared, leaves⟩ :=
      frames.selectVictim_swept readable
    exact ⟨outcome, moved, after, entries, selected, cleared, leaves,
      cleared.walksKept readable, cleared.readable readable⟩

/-- One table whose first entry refers to the table itself and was accessed. Every walk of thread 1
for the lowest page reads that one entry four times: thrice as a link, and last as the leaf. -/
def PageTables.selfReferring : PageTables where
  roots := [(⟨1⟩, 0x1000)]
  linearBase := ⟨0x300000000000, .inl (by decide)⟩
  words := (∅ : Std.HashMap Nat TableWord).insert 0x1000 0x1021

theorem PageTables.selfReferring_word (place : Nat) :
    PageTables.selfReferring.word place = if 0x1000 = place then 0x1021#64 else 0#64 := by
  unfold PageTables.word PageTables.selfReferring
  rw [Std.HashMap.getD_insert]
  by_cases same : 0x1000 = place
  · simp [same]
  · simp [same]

theorem PageTables.selfReferring_reaches {owner : ThreadId} {uaddr : Address} {level table : Nat}
    (reaches : PageTables.selfReferring.Reaches owner uaddr level table) : table = 0x1000 := by
  induction reaches with
  | @root word found =>
      unfold PageTables.selfReferring at found
      rw [List.lookup_cons] at found
      split at found
      · cases found
        rfl
      · cases found
  | @link _ _ place _ _ present _ _ =>
      rw [PageTables.selfReferring_word] at *
      split at present
      · next same =>
        rw [if_pos same]
        rfl
      · cases present

theorem PageTables.selfReferring_cleared :
    PageTables.selfReferring.Readable ∧
      PageTables.selfReferring.EndsAt ⟨1⟩ default 0x1000 ∧
      PageTables.selfReferring.isAccessed ⟨1⟩ default = .ok true ∧
      ∃ after, PageTables.selfReferring.clearAccessed ⟨1⟩ default = .ok after ∧
        (after.word 0x1000).present = true ∧ (after.word 0x1000).accessed = false ∧
        after.EndsAt ⟨1⟩ default 0x1000 ∧
        after.isAccessed ⟨1⟩ default = .ok false := by
  have readable : PageTables.selfReferring.Readable := by
    intro owner uaddr level table reaches
    rw [PageTables.selfReferring_reaches reaches]
    exact ⟨by decide, ⟨0x300000001000, .inl (by decide)⟩, by decide⟩
  have word : PageTables.selfReferring.word 0x1000 = 0x1021#64 := by
    rw [PageTables.selfReferring_word, if_pos rfl]
  have descend : ∀ level, PageTables.selfReferring.Reaches ⟨1⟩ default (level + 1) 0x1000 →
      PageTables.selfReferring.Reaches ⟨1⟩ default level 0x1000 := by
    intro level above
    have place : 0x1000 = entryPlace 0x1000 (Address.tableIndex default (level + 1)) := by
      have first : Address.tableIndex default (level + 1) = 0 := by
        unfold Address.tableIndex
        exact congrArg (· % 512) (Nat.zero_shiftRight _)
      rw [first]
      rfl
    have link := PageTables.Reaches.link above place (by rw [word]; decide) (by rw [word]; decide)
    rw [word] at link
    exact link
  have ends : PageTables.selfReferring.EndsAt ⟨1⟩ default 0x1000 := by
    have root : PageTables.selfReferring.Reaches ⟨1⟩ default 3 (0x1000 : UInt64).toNat :=
      .root rfl
    exact .leaf (descend 0 (descend 1 (descend 2 root))) (by decide) (by rw [word]; decide)
      (.inl rfl)
  obtain ⟨walks, clears, _⟩ := PageTables.clears_only_leaves readable
  have before := (walks ⟨1⟩ default).2.1 _ ends
  obtain ⟨after, done, cleared, untouched, kept, _⟩ := clears ⟨1⟩ default
  refine ⟨readable, ends, ?_, after, done, ?_, ?_, (kept.ends _ _ _).mpr ends, untouched⟩
  · rw [before, word]
    decide
  · apply (cleared.bits 0x1000 0).mpr
    rw [word]
    exact ⟨by decide, fun accessed => absurd accessed.1 (by decide)⟩
  · apply Bool.eq_false_iff.mpr
    intro still
    exact ((cleared.bits 0x1000 5).mp still).2 ⟨rfl, ends⟩

end KernelPaging
