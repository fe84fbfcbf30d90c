import KernelPaging.Proofs.RingChanges

/-!
What the clock may do, whatever the accessed bits answer: it moves the hand along the ring and
changes nothing else, and the slot it selects holds an unpinned frame.
-/

set_option autoImplicit false

namespace KernelPaging

theorem FrameTable.unpinnedAt_iff {table : FrameTable} {index : Nat} :
    table.unpinnedAt index = true ↔
      ∃ occupant, table.occupant? index = some occupant ∧ occupant.pinned = false := by
  unfold FrameTable.unpinnedAt
  cases table.occupant? index with
  | none => simp
  | some occupant => simp

/-- The table after the hand alone has moved, and has stayed on the ring. -/
def FrameTable.HandMoved (table after : FrameTable) : Prop :=
  ∃ hand, after = { table with hand } ∧
    ∀ ring, table.Represents ring → ∀ index, hand = some index → index ∈ ring

theorem FrameTable.HandMoved.refl (table : FrameTable) : table.HandMoved table :=
  ⟨table.hand, rfl, fun _ represents => represents.hand⟩

theorem FrameTable.HandMoved.represents {table after : FrameTable} (moved : table.HandMoved after)
    {ring : List Nat} (represents : table.Represents ring) : after.Represents ring := by
  obtain ⟨hand, same, onRing⟩ := moved
  rw [same]
  exact represents.setHand (onRing ring represents)

theorem FrameTable.HandMoved.trans {table middle after : FrameTable}
    (first : table.HandMoved middle) (second : middle.HandMoved after) :
    table.HandMoved after := by
  obtain ⟨hand, same, onRing⟩ := second
  refine ⟨hand, ?_, fun ring represents => onRing ring (first.represents represents)⟩
  obtain ⟨_, sameFirst, _⟩ := first
  rw [same, sameFirst]

theorem FrameTable.HandMoved.advance {table : FrameTable} {position : Option Nat} {index : Nat}
    (onward : table.advance position = some index) :
    table.HandMoved { table with hand := some index } := by
  refine ⟨some index, rfl, ?_⟩
  intro ring represents other same
  cases same
  exact represents.advance_mem onward

theorem FrameTable.HandMoved.unpinnedAt {table after : FrameTable} (moved : table.HandMoved after)
    (index : Nat) : after.unpinnedAt index = table.unpinnedAt index := by
  obtain ⟨_, same, _⟩ := moved
  rw [same]
  rfl

theorem FrameTable.seekUnpinned_spec (turns : Nat) :
    ∀ table : FrameTable, table.HandMoved (table.seekUnpinned turns).2 ∧
      ∀ index, (table.seekUnpinned turns).1 = some index → table.unpinnedAt index = true := by
  induction turns with
  | zero =>
      intro table
      refine ⟨.refl table, ?_⟩
      intro index impossible
      cases impossible
  | succ turns ih =>
      intro table
      unfold FrameTable.seekUnpinned
      cases onward : table.advance table.hand with
      | none =>
          refine ⟨.refl table, ?_⟩
          intro index impossible
          cases impossible
      | some next =>
          have step := FrameTable.HandMoved.advance onward
          dsimp only
          split
          · next unpinned =>
            refine ⟨step, ?_⟩
            intro index same
            cases same
            exact unpinned
          · have later := ih { table with hand := some next }
            refine ⟨step.trans later.1, ?_⟩
            intro index found
            exact later.2 index found

theorem FrameTable.examine_taken {bits : Type} [AccessedBits bits] {table : FrameTable}
    {index : Nat} {marks after : bits} (taken : table.examine index marks = .ok (true, after)) :
    table.unpinnedAt index = true := by
  unfold FrameTable.examine at taken
  cases found : table.occupant? index with
  | none => rw [found] at taken; cases taken
  | some occupant =>
      rw [found] at taken
      rw [FrameTable.unpinnedAt_iff]
      refine ⟨occupant, found, ?_⟩
      cases pinned : occupant.pinned with
      | false => rfl
      | true => simp [pinned] at taken

theorem FrameTable.sweep_spec {bits : Type} [AccessedBits bits] {start : Nat} (turns : Nat) :
    ∀ (current victim : Nat) (table after : FrameTable) (marks left : bits),
      table.unpinnedAt start = true →
      table.sweep start turns current marks = .ok (victim, after, left) →
        table.HandMoved after ∧ table.unpinnedAt victim = true := by
  induction turns with
  | zero =>
      intro current victim table after marks left unpinned swept
      cases swept
      exact ⟨.refl table, unpinned⟩
  | succ turns ih =>
      intro current victim table after marks left unpinned swept
      unfold FrameTable.sweep at swept
      cases looked : table.examine current marks with
      | error halt => rw [looked] at swept; cases swept
      | ok verdict =>
          obtain ⟨taken, marks⟩ := verdict
          rw [looked] at swept
          cases taken with
          | true =>
              cases swept
              exact ⟨.refl table, FrameTable.examine_taken looked⟩
          | false =>
              dsimp only at swept
              cases onward : table.advance (some current) with
              | none =>
                  rw [onward] at swept
                  cases swept
                  exact ⟨.refl table, unpinned⟩
              | some next =>
                  have step := FrameTable.HandMoved.advance onward
                  rw [onward] at swept
                  dsimp only at swept
                  split at swept
                  · cases swept
                    exact ⟨step, unpinned⟩
                  · have later :=
                      ih next victim { table with hand := some next } after marks left unpinned swept
                    exact ⟨step.trans later.1, later.2⟩

/-- The record of accessed bits stops the kernel when it is asked something. -/
def AccessedBits.Stops (bits : Type) [AccessedBits bits] (halt : Halt) : Prop :=
  ∃ (owner : ThreadId) (uaddr : Address) (marks : bits),
    AccessedBits.isAccessed owner uaddr marks = .error halt ∨
      AccessedBits.clearAccessed owner uaddr marks = .error halt

section Stops

variable {bits : Type} [AccessedBits bits] {table : FrameTable} {marks : bits} {halt : Halt}

theorem FrameTable.examine_error {index : Nat}
    (stopped : table.examine index marks = .error halt) : AccessedBits.Stops bits halt := by
  unfold FrameTable.examine at stopped
  split at stopped
  · cases stopped
  · next occupant _ =>
    split at stopped
    · cases stopped
    · split at stopped
      · next asked =>
        cases stopped
        exact ⟨_, _, _, .inl asked⟩
      · cases stopped
      · split at stopped
        · next cleared =>
          cases stopped
          exact ⟨_, _, _, .inr cleared⟩
        · cases stopped

theorem FrameTable.sweep_error {start : Nat} (turns : Nat) :
    ∀ (current : Nat) (table : FrameTable) (marks : bits),
      table.sweep start turns current marks = .error halt → AccessedBits.Stops bits halt := by
  induction turns with
  | zero =>
      intro current table marks stopped
      cases stopped
  | succ turns ih =>
      intro current table marks stopped
      unfold FrameTable.sweep at stopped
      split at stopped
      · next looked =>
        cases stopped
        exact FrameTable.examine_error looked
      · cases stopped
      · split at stopped
        · cases stopped
        · dsimp only at stopped
          split at stopped
          · cases stopped
          · exact ih _ _ _ stopped

theorem FrameTable.selectVictim_error (stopped : table.selectVictim marks = .error halt) :
    AccessedBits.Stops bits halt := by
  unfold FrameTable.selectVictim at stopped
  split at stopped
  · cases stopped
  · split at stopped
    · cases stopped
    · split at stopped
      · next swept =>
        cases stopped
        exact FrameTable.sweep_error _ _ _ _ swept
      · cases stopped

end Stops

/-- Selection only moves the hand, and selects an unpinned frame if it selects one. -/
theorem FrameTable.selectVictim_spec {bits : Type} [AccessedBits bits] {table after : FrameTable}
    {marks left : bits} {outcome : Except AllocError Nat}
    (selected : table.selectVictim marks = .ok (outcome, after, left)) :
    table.HandMoved after ∧ ∀ victim, outcome = .ok victim → table.unpinnedAt victim = true := by
  unfold FrameTable.selectVictim at selected
  split at selected
  · cases selected
    refine ⟨.refl table, ?_⟩
    intro victim impossible
    cases impossible
  · have sought := FrameTable.seekUnpinned_spec table.count table
    generalize table.seekUnpinned table.count = found at sought selected
    obtain ⟨start, middle⟩ := found
    cases start with
    | none =>
        cases selected
        refine ⟨sought.1, ?_⟩
        intro victim impossible
        cases impossible
    | some start =>
        have unpinned : middle.unpinnedAt start = true :=
          (sought.1.unpinnedAt start).trans (sought.2 start rfl)
        dsimp only at selected
        split at selected
        · cases selected
        · next swept =>
          cases selected
          have spec := FrameTable.sweep_spec _ _ _ _ _ _ _ unpinned swept
          refine ⟨sought.1.trans spec.1, ?_⟩
          intro victim same
          cases same
          rw [← sought.1.unpinnedAt]
          exact spec.2

end KernelPaging
