import KernelPaging.Proofs.UserMirrors

/-!
What a call does to user memory, as an observer between the kernel and the memory sees it: every
load and store with its address and its answer. The calls stay below the boundary of user memory and
inside the range they were asked for, go up through it one byte after the other, and end with the
first byte that faults.
-/

set_option autoImplicit false

namespace KernelPaging

inductive Access
  | load (address : UInt64) (answer : Option UInt8)
  | store (address : UInt64) (byte : UInt8) (done : Bool)
deriving DecidableEq

def Access.address : Access → UInt64
  | .load address _ | .store address _ _ => address

def Access.succeeded : Access → Bool
  | .load _ answer => answer.isSome
  | .store _ _ done => done

/-- User memory under observation. It answers as it would unobserved. -/
structure Watched (memory : Type) where
  user : memory
  accesses : List Access := []

/-- Accesses to one place after the other, from `first` on: each below the boundary, no more than
`length` of them, and only the last of them may have faulted. -/
structure Confined (top : UInt64) (first length : Nat) (accesses : List Access) : Prop where
  ascending : accesses.map (fun access => access.address.toNat) =
    List.range' first accesses.length
  below : ∀ access ∈ accesses, access.address < top
  within : accesses.length ≤ length
  untilFault : ∀ access ∈ accesses.dropLast, access.succeeded

variable {memory sink : Type}

def UserCall.start : UserCall sink → UInt64
  | .probe address | .poke address _ | .readWord address => address
  | .copyFrom start _ | .copyTo start _ | .stream start _ _ _ | .copyText start _ => start

def UserCall.length : UserCall sink → Nat
  | .probe _ | .poke _ _ => 1
  | .readWord _ => 8
  | .copyFrom _ bytes | .copyTo _ bytes | .copyText _ bytes => bytes.length
  | .stream _ length _ _ => length

section

variable [FaultingAccess memory]

instance : FaultingAccess (Watched memory) where
  load address watched :=
    let (answer, user) := FaultingAccess.load address watched.user
    (answer, ⟨user, watched.accesses ++ [.load address answer]⟩)
  store address byte watched :=
    let (done, user) := FaultingAccess.store address byte watched.user
    (done, ⟨user, watched.accesses ++ [.store address byte done]⟩)

theorem watched_loads :
    LoadsAgree fun (watched : Watched memory) (user : memory) => watched.user = user := by
  intro address watched user same
  cases same
  exact ⟨rfl, rfl⟩

theorem watched_stores :
    StoresAgree fun (watched : Watched memory) (user : memory) => watched.user = user := by
  intro address byte watched user same
  cases same
  exact ⟨rfl, rfl⟩

end

/-- What some work adds to the accesses seen before it. Work that is done with its whole range
touched every place of it. -/
def Touches (top : UInt64) (first length : Nat) (whole : Prop) (before after : List Access) : Prop :=
  ∃ made, after = before ++ made ∧ Confined top first length made ∧
    (whole → made.length = length ∧ ∀ access ∈ made, access.succeeded)

theorem Touches.nothing (top : UInt64) (first length : Nat) (whole : Prop)
    (accesses : List Access) (empty : whole → length = 0) :
    Touches top first length whole accesses accesses := by
  refine ⟨[], by simp, ?_, ?_⟩
  · constructor <;> simp
  · intro done
    simp [empty done]

theorem Touches.one (top : UInt64) (first : Nat) (whole : Prop) (before : List Access)
    (access : Access) (place : access.address.toNat = first) (below : access.address < top)
    (succeeded : whole → access.succeeded) :
    Touches top first 1 whole before (before ++ [access]) := by
  refine ⟨[access], rfl, ?_, ?_⟩
  · constructor <;> simp [place, below]
  · intro done
    simp [succeeded done]

theorem Touches.widen {top : UInt64} {first length : Nat} {whole : Prop}
    {before after : List Access} (touches : Touches top first length whole before after)
    {wider : Nat} (le : length ≤ wider) {wholly : Prop} (broken : ¬ wholly) :
    Touches top first wider wholly before after := by
  obtain ⟨made, added, confined, _⟩ := touches
  refine ⟨made, added, ?_, ?_⟩
  · exact { confined with within := Nat.le_trans confined.within le }
  · intro done
    exact absurd done broken

theorem Touches.imp {top : UInt64} {first length : Nat} {whole wholly : Prop}
    {before after : List Access} (touches : Touches top first length whole before after)
    (only : wholly → whole) : Touches top first length wholly before after := by
  obtain ⟨made, added, confined, complete⟩ := touches
  exact ⟨made, added, confined, fun done => complete (only done)⟩

theorem Touches.trans {top : UInt64} {first count length : Nat} {part whole : Prop}
    {before middle after : List Access} (earlier : Touches top first count part before middle)
    (done : part) (later : Touches top (first + count) length whole middle after) :
    Touches top first (count + length) whole before after := by
  obtain ⟨made, rfl, confined, complete⟩ := earlier
  obtain ⟨more, rfl, others, ending⟩ := later
  obtain ⟨full, answered⟩ := complete done
  refine ⟨made ++ more, by simp, ?_, ?_⟩
  · constructor
    · rw [List.map_append, confined.ascending, others.ascending, List.length_append, ← full]
      exact List.range'_append_1
    · intro access member
      cases List.mem_append.mp member with
      | inl inMade => exact confined.below access inMade
      | inr inMore => exact others.below access inMore
    · have bounded : more.length ≤ length := others.within
      rw [List.length_append]
      omega
    · intro access member
      cases more with
      | nil =>
          rw [List.append_nil] at member
          exact confined.untilFault access member
      | cons next rest =>
          rw [List.dropLast_append_of_ne_nil (List.cons_ne_nil next rest)] at member
          cases List.mem_append.mp member with
          | inl inMade => exact answered access inMade
          | inr inMore => exact others.untilFault access inMore
  · intro finished
    obtain ⟨fullMore, answeredMore⟩ := ending finished
    constructor
    · rw [List.length_append]
      omega
    · intro access member
      cases List.mem_append.mp member with
      | inl inMade => exact answered access inMade
      | inr inMore => exact answeredMore access inMore

section

variable [FaultingAccess memory] (window : UserWindow)

theorem UserWindow.probe_touches (address : UInt64) (watched : Watched memory) :
    Touches window.top address.toNat 1 ((window.probe address watched).1.isOk)
      watched.accesses (window.probe address watched).2.accesses := by
  unfold UserWindow.probe
  split
  · apply Touches.nothing
    simp [Except.isOk, Except.toBool]
  · next reached =>
      have below : address < window.top := UInt64.not_le.mp reached
      simp only [FaultingAccess.load]
      cases FaultingAccess.load address watched.user with
      | mk answer user =>
          cases answer <;> apply Touches.one <;> simp [Except.isOk, Except.toBool, Access.address,
            Access.succeeded, below]

theorem UserWindow.poke_touches (address : UInt64) (byte : UInt8) (watched : Watched memory) :
    Touches window.top address.toNat 1 ((window.poke address byte watched).1.isOk)
      watched.accesses (window.poke address byte watched).2.accesses := by
  unfold UserWindow.poke
  split
  · apply Touches.nothing
    simp [Except.isOk, Except.toBool]
  · next reached =>
      have below : address < window.top := UInt64.not_le.mp reached
      simp only [FaultingAccess.store]
      cases FaultingAccess.store address byte watched.user with
      | mk done user =>
          cases done <;> apply Touches.one <;> simp [Except.isOk, Except.toBool, Access.address,
            Access.succeeded, below]

theorem UserWindow.probeAt_touches (start : UInt64) (offset : Nat) (watched : Watched memory) :
    Touches window.top (start.toNat + offset) 1 ((window.probeAt start offset watched).1.isOk)
      watched.accesses (window.probeAt start offset watched).2.accesses := by
  unfold UserWindow.probeAt
  cases found : addressAt? start offset with
  | none =>
      apply Touches.nothing
      simp [Except.isOk, Except.toBool]
  | some address =>
      rw [← addressAt?_eq_some found]
      exact window.probe_touches address watched

theorem UserWindow.pokeAt_touches (start : UInt64) (offset : Nat) (byte : UInt8)
    (watched : Watched memory) :
    Touches window.top (start.toNat + offset) 1
      ((window.pokeAt start offset byte watched).1.isOk)
      watched.accesses (window.pokeAt start offset byte watched).2.accesses := by
  unfold UserWindow.pokeAt
  cases found : addressAt? start offset with
  | none =>
      apply Touches.nothing
      simp [Except.isOk, Except.toBool]
  | some address =>
      rw [← addressAt?_eq_some found]
      exact window.poke_touches address byte watched

theorem UserWindow.copyFromAt_touches (start : UInt64) (offset : Nat) (destination : List UInt8)
    (watched : Watched memory) :
    Touches window.top (start.toNat + offset) destination.length
      ((window.copyFromAt start offset destination watched).1.copied = destination.length)
      watched.accesses (window.copyFromAt start offset destination watched).2.accesses := by
  induction destination generalizing offset watched with
  | nil => exact Touches.nothing _ _ _ _ _ (fun _ => rfl)
  | cons old rest ih =>
      have first := window.probeAt_touches start offset watched
      simp only [UserWindow.copyFromAt]
      revert first
      cases window.probeAt start offset watched with
      | mk answer after =>
          intro first
          cases answer with
          | error address => exact first.widen (by simp) (by simp)
          | ok byte =>
              have others := ih (offset + 1) after
              have both := first.trans rfl others
              rw [List.length_cons, Nat.add_comm rest.length 1]
              exact both.imp (by simp; omega)

theorem UserWindow.copyToAt_touches (start : UInt64) (offset : Nat) (bytes : List UInt8)
    (watched : Watched memory) :
    Touches window.top (start.toNat + offset) bytes.length
      ((window.copyToAt start offset bytes watched).1 = bytes.length)
      watched.accesses (window.copyToAt start offset bytes watched).2.accesses := by
  induction bytes generalizing offset watched with
  | nil => exact Touches.nothing _ _ _ _ _ (fun _ => rfl)
  | cons byte rest ih =>
      have first := window.pokeAt_touches start offset byte watched
      simp only [UserWindow.copyToAt]
      revert first
      cases window.pokeAt start offset byte watched with
      | mk answer after =>
          intro first
          cases answer with
          | error address => exact first.widen (by simp) (by simp)
          | ok done =>
              have others := ih (offset + 1) after
              have both := first.trans rfl others
              rw [List.length_cons, Nat.add_comm rest.length 1]
              exact both.imp (by simp; omega)

/-- A text ends at its terminator, so a copy of it is never known to have gone through its range. -/
theorem UserWindow.copyTextAt_touches (start : UInt64) (offset : Nat) (buffer : List UInt8)
    (watched : Watched memory) :
    Touches window.top (start.toNat + offset) buffer.length False
      watched.accesses (window.copyTextAt start offset buffer watched).2.accesses := by
  induction buffer generalizing offset watched with
  | nil => exact Touches.nothing _ _ _ _ _ (fun _ => rfl)
  | cons old rest ih =>
      have first := window.probeAt_touches start offset watched
      simp only [UserWindow.copyTextAt]
      revert first
      cases window.probeAt start offset watched with
      | mk answer after =>
          intro first
          cases answer with
          | error address => exact first.widen (by simp) id
          | ok byte =>
              simp only
              split
              · exact first.widen (by simp) id
              · have others := ih (offset + 1) after
                have both := first.trans rfl others
                rw [List.length_cons, Nat.add_comm rest.length 1]
                exact both

theorem UserWindow.streamRest_touches (start : UInt64) (length : Nat)
    (offer : List UInt8 → sink → Nat × sink) (remaining : Nat) (watched : Watched memory)
    (consumer : sink) (part : remaining ≤ length) :
    Touches window.top (start.toNat + (length - remaining)) remaining False watched.accesses
      (window.streamRest start length offer remaining watched consumer).2.1.accesses := by
  induction remaining using UserWindow.stream_induction window start length
    generalizing watched consumer with
  | done =>
      rw [UserWindow.streamRest_zero]
      exact Touches.nothing _ _ _ _ _ False.elim
  | behind remaining missing =>
      rw [UserWindow.streamRest_of_none missing]
      exact Touches.nothing _ _ _ _ _ False.elim
  | pass remaining cursor more found ih =>
      have chunk := window.copyFromAt_touches cursor 0
        (List.replicate (min remaining window.chunk) 0) watched
      have atMost := window.copied_le cursor 0
        (List.replicate (min remaining window.chunk) 0) watched
      rcases copied : window.copyFromAt cursor 0
        (List.replicate (min remaining window.chunk) 0) watched with ⟨copy, after⟩
      rcases answered : offer (copy.destination.take copy.copied) consumer with ⟨answer, later⟩
      rw [copied, addressAt?_eq_some found, List.length_replicate, Nat.add_zero] at chunk
      rw [copied, List.length_replicate] at atMost
      rw [UserWindow.streamRest_pass more found copied answered]
      split
      · exact chunk.widen (Nat.min_le_left _ _) id
      · have full : copy.copied = min remaining window.chunk := by
          simp only at atMost
          omega
        have others := ih after later (by omega)
        have place : start.toNat + (length - (remaining - min remaining window.chunk)) =
            start.toNat + (length - remaining) + min remaining window.chunk := by
          omega
        rw [place] at others
        have both := chunk.trans full others
        rw [Nat.add_sub_cancel' (Nat.min_le_left _ _)] at both
        exact both

theorem UserCall.perform_touches (call : UserCall sink) (watched : Watched memory) :
    Touches window.top call.start.toNat call.length False watched.accesses
      (call.perform window watched).2.accesses := by
  cases call with
  | probe address => exact (window.probe_touches address watched).imp False.elim
  | poke address byte => exact (window.poke_touches address byte watched).imp False.elim
  | copyFrom start destination =>
      exact (window.copyFromAt_touches start 0 destination watched).imp False.elim
  | copyTo start bytes => exact (window.copyToAt_touches start 0 bytes watched).imp False.elim
  | readWord address =>
      have word := window.copyFromAt_touches address 0 (List.replicate 8 0) watched
      rcases copied : window.copyFromAt address 0 (List.replicate 8 0) watched with ⟨copy, after⟩
      rw [copied] at word
      simp only [UserCall.perform, UserWindow.readWord, UserWindow.copyFrom, copied]
      split <;> exact word.imp False.elim
  | stream start length offer consumer =>
      have all := window.streamRest_touches start length offer length watched consumer
        (Nat.le_refl length)
      rw [Nat.sub_self] at all
      exact all
  | copyText start buffer => exact window.copyTextAt_touches start 0 buffer watched

/-- Whatever the arguments and however memory and consumer answer, no call reaches the boundary of
user memory or leaves its range, and none goes on after a fault. The observer does not matter: reply
and memory are those of the call without it. -/
theorem UserCall.accesses_confined (config : Config) (call : UserCall sink) (user : memory) :
    Agree (fun watched user => watched.user = user)
        (call.perform config.window (Watched.mk user [])) (call.perform config.window user) ∧
      Confined config.userTop call.start.toNat call.length
        (call.perform config.window (Watched.mk user [])).2.accesses := by
  constructor
  · exact UserCall.perform_agree config.window watched_loads watched_stores rfl call
  · obtain ⟨made, added, confined, _⟩ := call.perform_touches config.window (Watched.mk user [])
    rw [added]
    exact confined

end

end KernelPaging
