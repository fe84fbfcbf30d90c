import KernelPaging.Proofs.SecondChance

/-!
The clock without a bound. A selection is a machine here that goes on turn after turn until it has
an outcome; its second loop counts nothing. On a ring it ends within two revolutions, whatever the
record of accessed bits answers, and with what the bounded selection gives.
-/

set_option autoImplicit false

namespace KernelPaging

variable {bits : Type}

/-- Where a selection stands: looking for a frame to start from, on its way from there, or done. -/
inductive SelectionStage
  | seeking (turns : Nat)
  | sweeping (start current : Nat)
  | ended (outcome : Except AllocError Nat)
  | halted (halt : Halt)

/-- A selection under way, with the number of times that the hand has been moved. -/
structure Selection (bits : Type) where
  stage : SelectionStage
  table : FrameTable
  marks : bits
  moves : Nat

def Selection.result? (selection : Selection bits) :
    Option (Except Halt (Except AllocError Nat × FrameTable × bits)) :=
  match selection.stage with
  | .ended outcome => some (.ok (outcome, selection.table, selection.marks))
  | .halted halt => some (.error halt)
  | _ => none

def FrameTable.selection (table : FrameTable) (marks : bits) : Selection bits :=
  let stage : SelectionStage :=
    if table.count = 0 then .ended (.error .tableEmpty) else .seeking table.count
  { stage, table, marks, moves := 0 }

variable [AccessedBits bits]

/-- One turn of the loop that the selection is in. -/
def Selection.turn (selection : Selection bits) : Selection bits :=
  let table := selection.table
  match selection.stage with
  | .ended _ | .halted _ => selection
  | .seeking 0 => { selection with stage := .ended (.error .allPinned) }
  | .seeking (turns + 1) =>
      match table.advance table.hand with
      | none => { selection with stage := .ended (.error .allPinned) }
      | some index =>
          let moved := { table with hand := some index }
          let stage : SelectionStage :=
            if moved.unpinnedAt index then .sweeping index index else .seeking turns
          { selection with stage, table := moved, moves := selection.moves + 1 }
  | .sweeping start current =>
      match table.examine current selection.marks with
      | .error halt => { selection with stage := .halted halt }
      | .ok (true, marks) => { selection with stage := .ended (.ok current), marks }
      | .ok (false, marks) =>
          match table.advance (some current) with
          | none => { selection with stage := .ended (.ok start), marks }
          | some next =>
              let moved := { table with hand := some next }
              let stage : SelectionStage :=
                if next = start then .ended (.ok start) else .sweeping start next
              { stage, table := moved, marks, moves := selection.moves + 1 }

def Selection.Within (limit : Nat) (selection last : Selection bits) : Prop :=
  ∃ turns, turns ≤ limit ∧ Selection.turn^[turns] selection = last

section Turns

variable {selection middle last : Selection bits} {limit more : Nat}

theorem Selection.Within.refl (limit : Nat) (selection : Selection bits) :
    Selection.Within limit selection selection :=
  ⟨0, Nat.zero_le limit, rfl⟩

theorem Selection.Within.step (later : Selection.Within limit selection.turn last) :
    Selection.Within (limit + 1) selection last := by
  obtain ⟨turns, few, reached⟩ := later
  exact ⟨turns + 1, Nat.succ_le_succ few, reached⟩

theorem Selection.Within.trans (first : Selection.Within limit selection middle)
    (later : Selection.Within more middle last) :
    Selection.Within (limit + more) selection last := by
  obtain ⟨turns, few, reached⟩ := first
  obtain ⟨further, fewMore, same⟩ := later
  refine ⟨further + turns, by omega, ?_⟩
  rw [Function.iterate_add_apply, reached, same]

end Turns

theorem Selection.seeks (turns : Nat) : ∀ (table : FrameTable) (marks : bits) moves,
    ∃ stage moved, Selection.Within (turns + 1) ⟨.seeking turns, table, marks, moves⟩
        ⟨stage, (table.seekUnpinned turns).2, marks, moved⟩ ∧
      moved ≤ moves + turns ∧
      stage = match (table.seekUnpinned turns).1 with
        | none => .ended (.error .allPinned)
        | some start => .sweeping start start := by
  induction turns with
  | zero =>
      intro table marks moves
      exact ⟨_, moves, .step (.refl 0 _), Nat.le_refl _, rfl⟩
  | succ turns ih =>
      intro table marks moves
      unfold FrameTable.seekUnpinned
      cases onward : table.advance table.hand with
      | none =>
          refine ⟨_, moves, .step ?_, by omega, rfl⟩
          simp only [Selection.turn, onward]
          exact .refl _ _
      | some index =>
          by_cases unpinned : FrameTable.unpinnedAt { table with hand := some index } index = true
          · simp only [unpinned, if_true]
            refine ⟨_, moves + 1, .step ?_, by omega, rfl⟩
            simp only [Selection.turn, onward, unpinned, if_true]
            exact .refl _ _
          · obtain ⟨stage, moved, later, few, ends⟩ :=
              ih { table with hand := some index } marks (moves + 1)
            simp only [if_neg unpinned]
            refine ⟨stage, moved, .step ?_, by omega, ends⟩
            simp only [Selection.turn, onward, if_neg unpinned]
            exact later

theorem Selection.sweeps {table : FrameTable} {start : Nat} (path : List Nat) :
    ∀ turns current (marks : bits) moves, table.Leads (some current) (path ++ [start]) →
      start ∉ path → path.length < turns →
      ∃ last, Selection.Within (path.length + 1)
          ⟨.sweeping start current, { table with hand := some current }, marks, moves⟩ last ∧
        last.moves ≤ moves + (path.length + 1) ∧
        last.result? =
          some ((FrameTable.sweep start turns current { table with hand := some current } marks).map
            fun taken => (.ok taken.1, taken.2)) := by
  induction path with
  | nil =>
      intro turns current marks moves leads _ enough
      obtain ⟨turns, rfl⟩ := Nat.exists_eq_succ_of_ne_zero (Nat.ne_of_gt enough)
      have onward : FrameTable.advance { table with hand := some current } (some current) =
          some start := leads.1
      refine ⟨_, .step (.refl 0 _), ?_⟩
      simp only [Selection.turn, FrameTable.sweep]
      cases FrameTable.examine { table with hand := some current } current marks with
      | error halt => exact ⟨Nat.le_add_right _ _, rfl⟩
      | ok verdict =>
          obtain ⟨taken, left⟩ := verdict
          cases taken with
          | true => exact ⟨Nat.le_add_right _ _, rfl⟩
          | false =>
              simp only [onward, if_true]
              exact ⟨Nat.le_refl _, rfl⟩
  | cons next path ih =>
      intro turns current marks moves leads elsewhere enough
      obtain ⟨turns, rfl⟩ := Nat.exists_eq_succ_of_ne_zero (Nat.ne_zero_of_lt enough)
      have onward : FrameTable.advance { table with hand := some current } (some current) =
          some next := leads.1
      have notStart : next ≠ start := fun same => elsewhere (same ▸ List.mem_cons_self)
      have ahead : start ∉ path := fun member => elsewhere (List.mem_cons_of_mem _ member)
      cases looked : FrameTable.examine { table with hand := some current } current marks with
      | error halt =>
          refine ⟨_, .step (.refl _ _), ?_⟩
          simp only [Selection.turn, FrameTable.sweep, looked]
          exact ⟨Nat.le_add_right _ _, rfl⟩
      | ok verdict =>
          obtain ⟨taken, left⟩ := verdict
          cases taken with
          | true =>
              refine ⟨_, .step (.refl _ _), ?_⟩
              simp only [Selection.turn, FrameTable.sweep, looked]
              exact ⟨Nat.le_add_right _ _, rfl⟩
          | false =>
              obtain ⟨last, later, few, ends⟩ := ih turns next left (moves + 1) leads.2 ahead
                (Nat.lt_of_succ_lt_succ enough)
              refine ⟨last, .step ?_, ?_, ?_⟩
              · simp only [Selection.turn, looked, onward, if_neg notStart]
                exact later
              · rw [List.length_cons]
                omega
              · simp only [FrameTable.sweep, looked, onward, if_neg notStart]
                exact ends

section Bounds

variable {table : FrameTable}

theorem FrameTable.WellFormed.selection_ends (wellFormed : table.WellFormed) (marks : bits) :
    ∃ last, Selection.Within (2 * table.count + 1) (table.selection marks) last ∧
      last.moves ≤ 2 * table.count ∧ last.result? = some (table.selectVictim marks) := by
  by_cases empty : table.count = 0
  · refine ⟨table.selection marks, .refl _ _, Nat.zero_le _, ?_⟩
    simp only [FrameTable.selection, FrameTable.selectVictim, empty, if_true]
    rfl
  · obtain ⟨stage, moved, sought, few, stageIs⟩ := Selection.seeks table.count table marks 0
    have begun : table.selection marks = ⟨.seeking table.count, table, marks, 0⟩ := by
      simp only [FrameTable.selection, if_neg empty]
    unfold FrameTable.selectVictim
    rw [if_neg empty, begun]
    have twice : 2 * table.count + 1 = table.count + 1 + table.count := by omega
    rcases wellFormed.seek_cases with ⟨_, nobody⟩ | ⟨start, path, found, around, _⟩
    · rw [nobody] at sought stageIs ⊢
      rw [twice]
      refine ⟨_, sought.trans (.refl _ _), ?_, ?_⟩
      · dsimp only
        omega
      · rw [stageIs]
        rfl
    · rw [found] at sought stageIs ⊢
      dsimp only at stageIs
      rw [stageIs] at sought
      have short := around.short
      obtain ⟨last, swept, fewMore, ends⟩ := Selection.sweeps path table.count start marks moved
        around.leads around.elsewhere short
      refine ⟨last, ?_, by omega, ?_⟩
      · obtain ⟨turns, within, reached⟩ := sought.trans swept
        exact ⟨turns, by omega, reached⟩
      · rw [ends]
        dsimp only
        cases FrameTable.sweep start table.count start { table with hand := some start } marks <;>
          rfl

/-- A selection ends, without more than two revolutions of the hand, whatever the record of accessed
bits does. It fails exactly where there is no frame or no unpinned one, and otherwise leaves the
hand on an unpinned frame, its victim, unless the record itself stops the kernel. -/
theorem FrameTable.WellFormed.selection_bounded (wellFormed : table.WellFormed) (marks : bits) :
    (∃ last, Selection.Within (2 * table.count + 1) (table.selection marks) last ∧
      last.moves ≤ 2 * table.count ∧ last.result? = some (table.selectVictim marks)) ∧
    ((∃ after left, table.selectVictim marks = .ok (.error .tableEmpty, after, left)) ↔
      table.count = 0) ∧
    ((∃ after left, table.selectVictim marks = .ok (.error .allPinned, after, left)) ↔
      table.count ≠ 0 ∧ table.AllPinned) ∧
    (table.count ≠ 0 ∧ ¬ table.AllPinned →
      (∃ victim left, table.selectVictim marks =
          .ok (.ok victim, { table with hand := some victim }, left) ∧
        table.unpinnedAt victim = true) ∨
      ∃ halt, table.selectVictim marks = .error halt ∧ AccessedBits.Stops bits halt) := by
  refine ⟨wellFormed.selection_ends marks, ?_⟩
  rcases wellFormed.selectVictim_cases marks with
    ⟨empty, selected⟩ | ⟨nonempty, allPinned, selected⟩ |
      ⟨nonempty, takes, ⟨victim, left, selected, free⟩ | ⟨halt, stopped⟩⟩
  · simp [selected, empty]
  · simp [selected, nonempty, allPinned]
  · simp [selected, nonempty, takes, free]
  · have stops := FrameTable.selectVictim_error stopped
    simp [stopped, nonempty, takes, stops]

end Bounds

/-- A record of accessed bits that reports every page as touched, whatever was cleared, and counts
how often it was asked. -/
structure Contrary where
  asked : Nat := 0
deriving DecidableEq

instance : AccessedBits Contrary where
  isAccessed _ _ contrary := .ok (true, ⟨contrary.asked + 1⟩)
  clearAccessed _ _ contrary := .ok contrary

/-- Of three frames the last alone is unpinned. The hand goes there, and once around to it again. -/
theorem FrameTable.lastFree_selected :
    let table := FrameTable.three.setPinned 2 false
    table.WellFormed ∧ (Selection.turn^[6] (table.selection (⟨0⟩ : Contrary))).moves = 2 * 3 ∧
      ∃ last, Selection.Within (2 * 3 + 1) (table.selection ⟨0⟩) last ∧ last.moves ≤ 2 * 3 ∧
        last.result? = some (.ok (.ok 2, { table with hand := some 2 }, (⟨1⟩ : Contrary))) := by
  have wellFormed : (FrameTable.three.setPinned 2 false).WellFormed :=
    (FrameTable.evolved_three.wellFormed.1.setPinned 2 false).wellFormed
  obtain ⟨ends, _⟩ := wellFormed.selection_bounded (⟨0⟩ : Contrary)
  have selected : (FrameTable.three.setPinned 2 false).selectVictim (⟨0⟩ : Contrary) =
      .ok (.ok 2, { FrameTable.three.setPinned 2 false with hand := some 2 }, ⟨1⟩) := by
    decide +kernel
  rw [selected] at ends
  exact ⟨wellFormed, by decide +kernel, ends⟩

end KernelPaging
