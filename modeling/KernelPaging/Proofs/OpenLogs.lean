import KernelPaging.Proofs.Waits
import KernelPaging.Subsystem.Kernel

/-!
Logs that take whatever is written to them, and what they hold afterwards. A log with a sink stops
the kernel once the time since boot does not fit a word any more. Until then, and without a sink, it
takes every record and goes on doing so.
-/

set_option autoImplicit false

namespace KernelPaging

def Logger.Accepts (logger : Logger) : Prop :=
  logger.sink = none ∨ ∃ milliseconds, logger.milliseconds = .ok milliseconds

variable {bits : Type}

theorem Logger.Accepts.write {logger : Logger} (accepts : logger.Accepts) (record : Record) :
    ∃ after, logger.write record = .ok after ∧ after.Accepts := by
  unfold Logger.write
  split
  · exact ⟨logger, rfl, accepts⟩
  · split
    · exact ⟨logger, rfl, accepts⟩
    · next sink heard =>
      rcases accepts with unheard | ⟨milliseconds, timely⟩
      · rw [heard] at unheard
        cases unheard
      · rw [timely]
        exact ⟨_, rfl, .inr ⟨milliseconds, timely⟩⟩

/-- What a log holds more afterwards. Without a sink that is nothing, and a sink is given the
deliveries at or above the level of the log, all at the time that the log began with. -/
structure Logger.Gains (before : Logger) (deliveries : String → Nat → List Delivery)
    (after : Logger) : Prop where
  unheard : before.sink = none → after = before
  heard : ∀ {sink milliseconds}, before.sink = some sink →
    before.milliseconds = .ok milliseconds →
      after = { before with
        delivered := before.delivered ++ ((deliveries sink milliseconds).filter fun delivery =>
          before.level.rank ≤ delivery.level.rank).toArray }

section Gaining

variable {before middle after : Logger} {deliveries others : String → Nat → List Delivery}

theorem Logger.gains_write {record : Record} {delivery : String → Nat → Delivery}
    (printed : ∀ sink milliseconds,
      delivery sink milliseconds = ⟨sink, record.level, record.line milliseconds⟩)
    (written : before.write record = .ok after) :
    before.Gains (fun sink milliseconds => [delivery sink milliseconds]) after := by
  unfold Logger.write at written
  constructor
  · intro unheard
    rw [unheard] at written
    split at written
    · exact (Except.ok.inj written).symm
    · exact (Except.ok.inj written).symm
  · intro sink milliseconds heard timely
    rw [heard, timely] at written
    rw [printed]
    by_cases quiet : record.level.rank < before.level.rank
    · rw [if_pos quiet] at written
      cases written
      simp [Nat.not_le.mpr quiet]
    · rw [if_neg quiet] at written
      cases written
      simp [Nat.not_lt.mp quiet, heard]

theorem Logger.Gains.append (first : before.Gains deliveries middle)
    (rest : middle.Gains others after) :
    before.Gains (fun sink milliseconds =>
      deliveries sink milliseconds ++ others sink milliseconds) after := by
  constructor
  · intro unheard
    have same := first.unheard unheard
    subst same
    exact rest.unheard unheard
  · intro sink milliseconds heard timely
    have gained := first.heard heard timely
    subst gained
    rw [rest.heard heard timely, List.filter_append, ← List.append_toArray, Array.append_assoc]

end Gaining

theorem Record.line_of_opening {record : Record} {opening : String} (plain : record.suffix = "")
    (opens : "s] [" ++ record.level.tag ++ "] [" ++ record.origin ++ "] " = opening)
    (milliseconds : Nat) :
    record.line milliseconds = "[t=" ++ timestamp milliseconds ++ opening ++ record.text := by
  unfold Record.line
  rw [plain, ← opens]
  simp only [String.append_assoc, String.append_empty]

theorem announce_of_written {notice : Notice} {state : Subsystem bits} {log : Logger}
    (written : state.log.write notice.record = .ok log) :
    announce notice state = .ok () { state with log } := by
  have read : (get : Kernel bits (Subsystem bits)) state = .ok state state := rfl
  unfold announce
  rw [bind_of_ok read, written]
  rfl

theorem announce_ok_iff {notice : Notice} {state after : Subsystem bits} {value : Unit} :
    announce notice state = .ok value after ↔
      ∃ log, state.log.write notice.record = .ok log ∧ after = { state with log } := by
  constructor
  · intro announced
    have read : (get : Kernel bits (Subsystem bits)) state = .ok state state := rfl
    unfold announce at announced
    rw [bind_of_ok read] at announced
    cases written : state.log.write notice.record with
    | ok log =>
        rw [written] at announced
        cases announced
        exact ⟨log, rfl, rfl⟩
    | error halt =>
        rw [written] at announced
        cases announced
  · rintro ⟨log, written, rfl⟩
    exact announce_of_written written

theorem announce_of_accepts (state : Subsystem bits) (accepts : state.log.Accepts)
    (notice : Notice) :
    ∃ log, log.Accepts ∧ announce notice state = .ok () { state with log } := by
  obtain ⟨log, written, still⟩ := accepts.write notice.record
  exact ⟨log, still, announce_of_written written⟩

end KernelPaging
