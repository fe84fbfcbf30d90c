import KernelPaging.Accessed.Store

/-!
What asking for marks and clearing them does to the marks of other pages. A page that counts as
untouched stays untouched, also when page tables are shared, because clearing an entry of a page
table leaves every walk as it was.
-/

set_option autoImplicit false

namespace KernelPaging

def Untouched {bits : Type} [AccessedBits bits] (owner : ThreadId) (uaddr : Address)
    (marks : bits) : Prop :=
  ∃ left, AccessedBits.isAccessed owner uaddr marks = .ok (false, left)

/-- Looking for marks never sets any. -/
class AccessedBits.OnlyClears (bits : Type) [AccessedBits bits] : Prop where
  asked : ∀ {owner other : ThreadId} {uaddr place : Address} {marks left : bits} {answer : Bool},
    AccessedBits.isAccessed owner uaddr marks = .ok (answer, left) →
      Untouched other place marks → Untouched other place left
  cleared : ∀ {owner other : ThreadId} {uaddr place : Address} {marks left : bits},
    AccessedBits.clearAccessed owner uaddr marks = .ok left →
      Untouched other place marks → Untouched other place left

theorem TouchedSet.contains_clear {touched : TouchedSet} {owner other : ThreadId}
    {uaddr place : Address} (untouched : touched.contains other place = false) :
    (touched.clear owner uaddr).contains other place = false := by
  unfold TouchedSet.contains TouchedSet.clear at *
  rw [decide_eq_false_iff_not] at *
  intro member
  exact untouched (List.mem_filter.mp member).1

theorem TouchedSet.untouched_iff {touched : TouchedSet} {owner : ThreadId} {uaddr : Address} :
    Untouched owner uaddr touched ↔ touched.contains owner uaddr = false := by
  constructor
  · rintro ⟨left, asked⟩
    exact congrArg Prod.fst (Except.ok.inj asked)
  · intro absent
    refine ⟨touched, ?_⟩
    change Except.ok (touched.contains owner uaddr, touched) = _
    rw [absent]

instance TouchedSet.onlyClears : AccessedBits.OnlyClears TouchedSet where
  asked := by
    intro owner other uaddr place marks left answer asked untouched
    cases asked
    exact untouched
  cleared := by
    intro owner other uaddr place marks left cleared untouched
    cases cleared
    rw [TouchedSet.untouched_iff] at *
    exact TouchedSet.contains_clear untouched

theorem TableWord.clearAccessed_present (word : TableWord) :
    word.clearAccessed.present = word.present := by
  unfold TableWord.clearAccessed TableWord.present
  simp

theorem TableWord.clearAccessed_huge (word : TableWord) :
    word.clearAccessed.huge = word.huge := by
  unfold TableWord.clearAccessed TableWord.huge
  simp

theorem TableWord.clearAccessed_target (word : TableWord) :
    word.clearAccessed.target = word.target := by
  unfold TableWord.clearAccessed TableWord.target
  rw [BitVec.and_assoc]
  rfl

theorem TableWord.clearAccessed_accessed (word : TableWord) :
    word.clearAccessed.accessed = false := by
  unfold TableWord.clearAccessed TableWord.accessed
  simp

section Walks

variable (tables : PageTables) (place : Nat)

def PageTables.clearEntry : PageTables :=
  tables.setWord place (tables.word place).clearAccessed

theorem PageTables.word_clearEntry (other : Nat) :
    (tables.clearEntry place).word other =
      if place = other then (tables.word other).clearAccessed else tables.word other := by
  unfold PageTables.clearEntry PageTables.setWord PageTables.word
  rw [Std.HashMap.getD_insert]
  by_cases same : place = other
  · subst same
    simp
  · simp [same]

theorem PageTables.present_clearEntry (other : Nat) :
    ((tables.clearEntry place).word other).present = (tables.word other).present := by
  rw [PageTables.word_clearEntry]
  split
  · exact TableWord.clearAccessed_present _
  · rfl

theorem PageTables.huge_clearEntry (other : Nat) :
    ((tables.clearEntry place).word other).huge = (tables.word other).huge := by
  rw [PageTables.word_clearEntry]
  split
  · exact TableWord.clearAccessed_huge _
  · rfl

theorem PageTables.target_clearEntry (other : Nat) :
    ((tables.clearEntry place).word other).target = (tables.word other).target := by
  rw [PageTables.word_clearEntry]
  split
  · exact TableWord.clearAccessed_target _
  · rfl

/-- A walk reads the present bit, the huge bit and the target of the entries on its way, and none of
them is the accessed bit. -/
theorem PageTables.leafBelow_clearEntry (uaddr : Address) (level : Nat) : ∀ table,
    (tables.clearEntry place).leafBelow uaddr level table =
      tables.leafBelow uaddr level table := by
  induction level with
  | zero =>
      intro table
      unfold PageTables.leafBelow
      dsimp only
      rw [PageTables.present_clearEntry]
      rfl
  | succ below ih =>
      intro table
      unfold PageTables.leafBelow
      dsimp only
      rw [PageTables.present_clearEntry, PageTables.huge_clearEntry,
        PageTables.target_clearEntry, ih]
      rfl

theorem PageTables.leaf_clearEntry (owner : ThreadId) (uaddr : Address) :
    (tables.clearEntry place).leaf owner uaddr = tables.leaf owner uaddr := by
  unfold PageTables.leaf
  simp only [PageTables.leafBelow_clearEntry]
  rfl

theorem PageTables.isAccessed_clearEntry {owner : ThreadId} {uaddr : Address}
    (untouched : tables.isAccessed owner uaddr = .ok false) :
    (tables.clearEntry place).isAccessed owner uaddr = .ok false := by
  unfold PageTables.isAccessed at *
  rw [PageTables.leaf_clearEntry]
  split at untouched
  · cases untouched
  · rfl
  · next leaf _ =>
    rw [PageTables.word_clearEntry]
    split
    · rw [TableWord.clearAccessed_accessed]
    · exact untouched

end Walks

theorem PageTables.cleared_cases {tables left : PageTables} {owner : ThreadId} {uaddr : Address}
    (cleared : tables.clearAccessed owner uaddr = .ok left) :
    left = tables ∨ ∃ place, left = tables.clearEntry place := by
  unfold PageTables.clearAccessed at cleared
  split at cleared
  · cases cleared
  · exact .inl (Except.ok.inj cleared).symm
  · next place _ => exact .inr ⟨place, (Except.ok.inj cleared).symm⟩

theorem PageTables.untouched_iff {tables : PageTables} {owner : ThreadId} {uaddr : Address} :
    Untouched owner uaddr tables ↔ tables.isAccessed owner uaddr = .ok false := by
  unfold Untouched AccessedBits.isAccessed instAccessedBitsPageTables
  dsimp only
  cases tables.isAccessed owner uaddr with
  | error halt => simp
  | ok accessed => simp

theorem PageTables.asked_same {tables left : PageTables} {owner : ThreadId} {uaddr : Address}
    {answer : Bool} (asked : AccessedBits.isAccessed owner uaddr tables = .ok (answer, left)) :
    left = tables := by
  unfold AccessedBits.isAccessed instAccessedBitsPageTables at asked
  dsimp only at asked
  split at asked
  · cases asked
  · exact (congrArg Prod.snd (Except.ok.inj asked)).symm

instance PageTables.onlyClears : AccessedBits.OnlyClears PageTables where
  asked := by
    intro owner other uaddr place marks left answer asked untouched
    have same := PageTables.asked_same asked
    rw [same]
    exact untouched
  cleared := by
    intro owner other uaddr place marks left cleared untouched
    rw [PageTables.untouched_iff] at *
    rcases PageTables.cleared_cases cleared with rfl | ⟨entry, rfl⟩
    · exact untouched
    · exact marks.isAccessed_clearEntry entry untouched

theorem AccessedStore.untouched_without_tables {touched : TouchedSet} {owner : ThreadId}
    {uaddr : Address} :
    Untouched owner uaddr (AccessedStore.mk touched none) ↔ Untouched owner uaddr touched := by
  rw [TouchedSet.untouched_iff]
  unfold Untouched AccessedBits.isAccessed instAccessedBitsAccessedStore
  simp

theorem AccessedStore.untouched_with_tables {touched : TouchedSet} {tables : PageTables}
    {owner : ThreadId} {uaddr : Address} :
    Untouched owner uaddr (AccessedStore.mk touched (some tables)) ↔
      Untouched owner uaddr tables := by
  rw [PageTables.untouched_iff]
  unfold Untouched AccessedBits.isAccessed instAccessedBitsAccessedStore
  dsimp only
  cases tables.isAccessed owner uaddr with
  | error halt => simp
  | ok accessed => simp

theorem AccessedStore.asked_same {store left : AccessedStore} {owner : ThreadId} {uaddr : Address}
    {answer : Bool} (asked : AccessedBits.isAccessed owner uaddr store = .ok (answer, left)) :
    left = store := by
  unfold AccessedBits.isAccessed instAccessedBitsAccessedStore at asked
  dsimp only at asked
  split at asked
  · exact (congrArg Prod.snd (Except.ok.inj asked)).symm
  · split at asked
    · cases asked
    · exact (congrArg Prod.snd (Except.ok.inj asked)).symm

instance AccessedStore.onlyClears : AccessedBits.OnlyClears AccessedStore where
  asked := by
    intro owner other uaddr place marks left answer asked untouched
    have same := AccessedStore.asked_same asked
    rw [same]
    exact untouched
  cleared := by
    intro owner other uaddr place marks left cleared untouched
    obtain ⟨touched, tables⟩ := marks
    unfold AccessedBits.clearAccessed instAccessedBitsAccessedStore at cleared
    dsimp only at cleared
    cases tables with
    | none =>
        cases cleared
        rw [AccessedStore.untouched_without_tables] at *
        exact TouchedSet.onlyClears.cleared rfl untouched
    | some tables =>
        dsimp only at cleared
        split at cleared
        · cases cleared
        · next tablesLeft clearedTables =>
          cases cleared
          rw [AccessedStore.untouched_with_tables] at *
          exact PageTables.onlyClears.cleared clearedTables untouched

end KernelPaging
