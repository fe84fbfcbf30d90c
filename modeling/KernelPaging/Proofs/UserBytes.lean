import KernelPaging.Proofs.UserMirrors

/-!
User memory whose loads are fixed for the time of a call. A copy from it is the bytes that can be
read from its first address on, up to the first that cannot.
-/

set_option autoImplicit false

namespace KernelPaging

structure Steady where
  content : UInt64 → Option UInt8

instance : FaultingAccess Steady where
  load address steady := (steady.content address, steady)
  store _ _ steady := (false, steady)

section

variable {memory : Type} [FaultingAccess memory]

def afterLoads : (addresses : List UInt64) → memory → memory
  | [], user => user
  | address :: rest, user => afterLoads rest (FaultingAccess.load address user).2

/-- Whatever was loaded before, an address is answered by its content. -/
def LoadsFixed (content : UInt64 → Option UInt8) (user : memory) : Prop :=
  ∀ earlier address, (FaultingAccess.load address (afterLoads earlier user)).1 = content address

theorem loadsFixed_agree :
    LoadsAgree fun (user : memory) (steady : Steady) => LoadsFixed steady.content user := by
  intro address user steady fixed
  constructor
  · exact fixed [] address
  · intro earlier later
    exact fixed (address :: earlier) later

end

variable (window : UserWindow) (content : UInt64 → Option UInt8)

def UserWindow.visible? (place : Nat) : Option UInt8 :=
  if place < window.top.toNat then content (UInt64.ofNat place) else none

/-- The bytes from a place on, at most so many and up to the first that cannot be read. -/
def UserWindow.readable : (place length : Nat) → List UInt8
  | _, 0 => []
  | place, length + 1 =>
      match window.visible? content place with
      | some byte => byte :: UserWindow.readable (place + 1) length
      | none => []

theorem UserWindow.readable_length_le (place length : Nat) :
    (window.readable content place length).length ≤ length := by
  induction length generalizing place with
  | zero => exact Nat.le_refl 0
  | succ length ih =>
      unfold UserWindow.readable
      split
      · exact Nat.succ_le_succ (ih (place + 1))
      · exact Nat.zero_le _

theorem UserWindow.readable_behind {place : Nat} (behind : window.top.toNat ≤ place)
    (length : Nat) : window.readable content place length = [] := by
  have hidden : window.visible? content place = none := if_neg (Nat.not_lt.mpr behind)
  cases length with
  | zero => rfl
  | succ length => rw [UserWindow.readable, hidden]

theorem UserWindow.readable_add (place count length : Nat) :
    window.readable content place (count + length) =
      window.readable content place count ++
        if (window.readable content place count).length = count then
          window.readable content (place + count) length
        else [] := by
  induction count generalizing place with
  | zero => simp [UserWindow.readable]
  | succ count ih =>
      rw [Nat.add_right_comm, UserWindow.readable, UserWindow.readable]
      cases window.visible? content place with
      | none => simp
      | some byte =>
          simp only [ih (place + 1), List.length_cons, Nat.add_right_cancel_iff, List.cons_append,
            Nat.add_right_comm place 1 count, Nat.add_assoc]

/-- The same bytes in two parts, of which the second counts if the first is complete. -/
theorem UserWindow.readable_split {place count length : Nat} (le : count ≤ length) :
    window.readable content place length =
      window.readable content place count ++
        if (window.readable content place count).length = count then
          window.readable content (place + count) (length - count)
        else [] := by
  rw [← window.readable_add content place count (length - count), Nat.add_sub_cancel' le]

theorem UserWindow.probe_steady (address : UInt64) :
    window.probe address (Steady.mk content) =
      ((window.visible? content address.toNat).elim (.error address) .ok, ⟨content⟩) := by
  unfold UserWindow.probe UserWindow.visible?
  by_cases below : address < window.top
  · have reached : ¬ window.top ≤ address := UInt64.not_le.mpr below
    rw [if_neg reached, if_pos (UInt64.lt_iff_toNat_lt.mp below), UInt64.ofNat_toNat]
    simp only [FaultingAccess.load]
    cases content address <;> rfl
  · have reached : window.top ≤ address := UInt64.not_lt.mp below
    rw [if_pos reached, if_neg (fun less => below (UInt64.lt_iff_toNat_lt.mpr less))]
    rfl

theorem UserWindow.probeAt_steady (start : UInt64) (offset : Nat) :
    window.probeAt start offset (Steady.mk content) =
      ((window.visible? content (start.toNat + offset)).elim
        (.error ((addressAt? start offset).getD lastAddress)) .ok, ⟨content⟩) := by
  unfold UserWindow.probeAt
  cases found : addressAt? start offset with
  | some address =>
      rw [← addressAt?_eq_some found]
      exact window.probe_steady content address
  | none =>
      have behind := addressAt?_eq_none found
      have bounded := window.top.toNat_lt
      have hidden : window.visible? content (start.toNat + offset) = none := if_neg (by omega)
      rw [hidden]
      rfl

theorem UserWindow.copyFromAt_steady (start : UInt64) (offset : Nat) (destination : List UInt8) :
    ∃ copy, window.copyFromAt start offset destination (Steady.mk content) = (copy, ⟨content⟩) ∧
      copy.destination.take copy.copied =
        window.readable content (start.toNat + offset) destination.length ∧
      copy.copied =
        (window.readable content (start.toNat + offset) destination.length).length := by
  induction destination generalizing offset with
  | nil => exact ⟨_, rfl, rfl, rfl⟩
  | cons old rest ih =>
      rw [List.length_cons, UserWindow.readable, UserWindow.copyFromAt, window.probeAt_steady]
      cases window.visible? content (start.toNat + offset) with
      | none => exact ⟨_, rfl, rfl, rfl⟩
      | some byte =>
          obtain ⟨copy, copied, bytes, count⟩ := ih (offset + 1)
          simp only [Option.elim_some, copied]
          refine ⟨_, rfl, ?_, ?_⟩
          · simpa [Nat.add_assoc] using bytes
          · simpa [Nat.add_assoc] using count

def CopyIn.bytes (copy : CopyIn) : List UInt8 :=
  copy.destination.take copy.copied

theorem UserWindow.copyFrom_fixed {memory : Type} [FaultingAccess memory]
    {content : UInt64 → Option UInt8} {user : memory} (fixed : LoadsFixed content user)
    (start : UInt64) (destination : List UInt8) :
    (window.copyFrom start destination user).1.bytes =
        window.readable content start.toNat destination.length ∧
      (window.copyFrom start destination user).1.copied =
        (window.readable content start.toNat destination.length).length := by
  have agree : Agree _ (window.copyFrom start destination user)
      (window.copyFrom start destination (Steady.mk content)) :=
    window.copyFromAt_agree loadsFixed_agree fixed start 0 destination
  obtain ⟨copy, copied, bytes, count⟩ := window.copyFromAt_steady content start 0 destination
  rw [agree.result, UserWindow.copyFrom, copied]
  exact ⟨bytes, count⟩

end KernelPaging
