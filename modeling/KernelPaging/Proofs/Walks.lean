import KernelPaging.Accessed.Store
import KernelPaging.Proofs.Selection

/-!
How the records of accessed bits may stop the kernel. The set of touched pages never does, and a walk
through the page tables only where an address it computes does not exist.
-/

set_option autoImplicit false

namespace KernelPaging

def Halt.ofAddress : Halt → Bool
  | .notCanonical _ | .additionOverflow | .physicalOutOfRange => true
  | _ => false

theorem Address.offset_error {address : Address} {distance : Nat} {halt : Halt}
    (stopped : address.offset distance = .error halt) : halt.ofAddress = true := by
  unfold Address.offset at stopped
  split at stopped
  · unfold Address.ofWord at stopped
    split at stopped
    · cases stopped
    · cases stopped
      rfl
  · cases stopped
    rfl

theorem TouchedSet.stops (halt : Halt) : ¬ AccessedBits.Stops TouchedSet halt := by
  rintro ⟨owner, uaddr, touched, asked | cleared⟩
  · cases asked
  · cases cleared

section Walks

variable {tables : PageTables} {owner : ThreadId} {uaddr : Address} {halt : Halt}

theorem PageTables.root_error (stopped : tables.root owner = .error halt) :
    halt.ofAddress = true := by
  unfold PageTables.root at stopped
  split at stopped
  · cases stopped
  · next word _ =>
    unfold physicalAddress at stopped
    split at stopped
    · next outOfRange =>
      split at outOfRange
      · cases outOfRange
      · cases outOfRange
        cases stopped
        rfl
    · cases stopped

theorem PageTables.leafBelow_error (level : Nat) : ∀ table,
    tables.leafBelow uaddr level table = .error halt → halt.ofAddress = true := by
  induction level with
  | zero =>
      intro table stopped
      unfold PageTables.leafBelow at stopped
      split at stopped
      · next missing =>
        cases stopped
        exact Address.offset_error missing
      · dsimp only at stopped
        split at stopped
        · cases stopped
        · cases stopped
  | succ below ih =>
      intro table stopped
      unfold PageTables.leafBelow at stopped
      split at stopped
      · next missing =>
        cases stopped
        exact Address.offset_error missing
      · dsimp only at stopped
        split at stopped
        · split at stopped
          · cases stopped
          · exact ih _ stopped
        · cases stopped

theorem PageTables.leaf_error (stopped : tables.leaf owner uaddr = .error halt) :
    halt.ofAddress = true := by
  unfold PageTables.leaf at stopped
  split at stopped
  · next missing =>
    cases stopped
    exact PageTables.root_error missing
  · cases stopped
  · exact PageTables.leafBelow_error 3 _ stopped

theorem PageTables.isAccessed_error (stopped : tables.isAccessed owner uaddr = .error halt) :
    halt.ofAddress = true := by
  unfold PageTables.isAccessed at stopped
  split at stopped
  · next walked =>
    cases stopped
    exact PageTables.leaf_error walked
  · cases stopped
  · cases stopped

theorem PageTables.clearAccessed_error (stopped : tables.clearAccessed owner uaddr = .error halt) :
    halt.ofAddress = true := by
  unfold PageTables.clearAccessed at stopped
  split at stopped
  · next walked =>
    cases stopped
    exact PageTables.leaf_error walked
  · cases stopped
  · cases stopped

end Walks

theorem AccessedStore.stops {halt : Halt} (stops : AccessedBits.Stops AccessedStore halt) :
    halt.ofAddress = true := by
  obtain ⟨owner, uaddr, store, asked | cleared⟩ := stops
  · unfold AccessedBits.isAccessed instAccessedBitsAccessedStore at asked
    dsimp only at asked
    split at asked
    · cases asked
    · split at asked
      · next walked =>
        cases asked
        exact PageTables.isAccessed_error walked
      · cases asked
  · unfold AccessedBits.clearAccessed instAccessedBitsAccessedStore at cleared
    dsimp only at cleared
    split at cleared
    · cases cleared
    · split at cleared
      · next walked =>
        cases cleared
        exact PageTables.clearAccessed_error walked
      · cases cleared

end KernelPaging
