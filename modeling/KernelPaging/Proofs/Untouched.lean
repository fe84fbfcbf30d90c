import KernelPaging.Proofs.Waits
import KernelPaging.Subsystem.Release

/-!
Kernel code that leaves a part of memory management alone. The part is whatever a function reads off
the state. Notices only write the log, and a release only changes the supply besides.
-/

set_option autoImplicit false

namespace KernelPaging

variable {bits result other part : Type}

/-- The code leaves the part alone, also where it stops. -/
def Leaves (view : Subsystem bits → part) (code : Kernel bits result) : Prop :=
  ∀ state, match code state with
    | .ok _ after | .error _ after => view after = view state

section Code

variable {view : Subsystem bits → part}

theorem Leaves.pure (value : result) : Leaves view (Pure.pure value : Kernel bits result) :=
  fun _ => rfl

theorem Leaves.throw (halt : Halt) : Leaves view (throw halt : Kernel bits result) :=
  fun _ => rfl

theorem Leaves.get : Leaves view (get : Kernel bits (Subsystem bits)) :=
  fun _ => rfl

theorem Leaves.modify {change : Subsystem bits → Subsystem bits}
    (same : ∀ state, view (change state) = view state) :
    Leaves view (modify change : Kernel bits PUnit) :=
  same

theorem Leaves.of_ok {code : Kernel bits result} {value : result} {state after : Subsystem bits}
    (leaves : Leaves view code) (returned : code state = .ok value after) :
    view after = view state := by
  have left := leaves state
  rw [returned] at left
  exact left

theorem Leaves.bind {code : Kernel bits result} {next : result → Kernel bits other}
    (first : Leaves view code) (rest : ∀ value, Leaves view (next value)) :
    Leaves view (code >>= next) := by
  intro state
  have left := first state
  cases ran : code state with
  | ok value after =>
      rw [ran] at left
      rw [bind_of_ok ran]
      have further := rest value after
      cases ended : next value after with
      | ok _ last =>
          rw [ended] at further
          exact further.trans left
      | error _ last =>
          rw [ended] at further
          exact further.trans left
  | error halt after =>
      rw [ran] at left
      rw [bind_of_error ran]
      exact left

section Waiting

variable {barrier : Subsystem bits → Barrier} {rounds : List (Kernel bits other)}

theorem awaitEpoch_leaves (played : ∀ round ∈ rounds, Leaves view round) :
    ∀ seen, Leaves view (awaitEpoch barrier seen rounds) := by
  induction rounds with
  | nil =>
      intro seen
      exact Leaves.throw _
  | cons round later ih =>
      intro seen
      have rest := ih fun other member =>
        played other (List.mem_cons_of_mem _ member)
      unfold awaitEpoch
      apply (played round List.mem_cons_self).bind
      intro value
      apply Leaves.get.bind
      intro current
      dsimp only
      split
      · exact (rest _).bind fun _ => Leaves.pure _
      · split
        · exact Leaves.pure _
        · exact (rest _).bind fun _ => Leaves.pure _

theorem awaitIdle_leaves (played : ∀ round ∈ rounds, Leaves view round) :
    Leaves view (awaitIdle barrier rounds) := by
  apply Leaves.get.bind
  intro current
  dsimp only
  split
  · exact Leaves.pure _
  · exact awaitEpoch_leaves played _

end Waiting

theorem zeroPage_leaves (unwritten : ∀ (subsystem : Subsystem bits) memory,
    view { subsystem with memory } = view subsystem) (page : Address) :
    Leaves view (zeroPage page : Kernel bits Unit) :=
  Leaves.modify fun state => unwritten state _

section Notices

variable (unlogged : ∀ (subsystem : Subsystem bits) log,
  view { subsystem with log } = view subsystem)

include unlogged

theorem announce_leaves (notice : Notice) : Leaves view (announce notice : Kernel bits Unit) := by
  intro state
  have read : (get : Kernel bits (Subsystem bits)) state = .ok state state := rfl
  unfold announce
  rw [bind_of_ok read]
  cases state.log.write notice.record with
  | ok log => exact unlogged state log
  | error halt => rfl

theorem announce?_leaves (notice : Option Notice) :
    Leaves view (announce? notice : Kernel bits Unit) := by
  cases notice with
  | none => exact Leaves.pure _
  | some notice => exact announce_leaves unlogged notice

theorem stop_leaves (halt : Halt) : Leaves view (stop halt : Kernel bits result) :=
  (announce?_leaves unlogged halt.notice?).bind fun _ => Leaves.throw halt

theorem orStop_leaves (outcome : Except Halt result) :
    Leaves view (orStop outcome : Kernel bits result) := by
  cases outcome with
  | ok value => exact Leaves.pure value
  | error halt => exact stop_leaves unlogged halt

variable (unsupplied : ∀ (subsystem : Subsystem bits) supply,
  view { subsystem with supply } = view subsystem)

include unsupplied

theorem releasePage_leaves (page : Address) :
    Leaves view (releasePage page : Kernel bits Unit) := by
  apply Leaves.get.bind
  intro current
  apply (orStop_leaves unlogged _).bind
  intro released
  apply Leaves.bind
  · exact Leaves.modify fun state => unsupplied state released.2
  · intro _
    exact announce?_leaves unlogged _

theorem releaseAll_leaves (records : List FrameRecord) :
    Leaves view (records.forM fun record => (releasePage record.kpage : Kernel bits Unit)) := by
  induction records with
  | nil => exact Leaves.pure _
  | cons record records ih =>
      exact (releasePage_leaves unlogged unsupplied record.kpage).bind fun _ => ih

theorem obtainPage_leaves (unwritten : ∀ (subsystem : Subsystem bits) memory,
    view { subsystem with memory } = view subsystem) (flags : PageFlags) :
    Leaves view (obtainPage flags : Kernel bits (Option Address)) := by
  apply Leaves.get.bind
  intro current
  apply (orStop_leaves unlogged _).bind
  intro obtained
  cases obtained with
  | none => exact Leaves.pure none
  | some taken =>
      refine Leaves.bind (Leaves.modify fun state => unsupplied state taken.2) fun _ => ?_
      dsimp only
      split
      · exact (zeroPage_leaves unwritten _).bind fun _ => Leaves.pure _
      · exact Leaves.pure _

end Notices

end Code

end KernelPaging
