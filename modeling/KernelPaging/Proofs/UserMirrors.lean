import KernelPaging.User.Stream
import KernelPaging.User.Copy

/-!
Two user memories that answer alike. Kernel code only learns about user memory from the answers to
its loads and stores, so no call tells such memories apart.
-/

set_option autoImplicit false

namespace KernelPaging

inductive UserCall (sink : Type)
  | probe (address : UInt64)
  | poke (address : UInt64) (byte : UInt8)
  | copyFrom (start : UInt64) (destination : List UInt8)
  | copyTo (start : UInt64) (bytes : List UInt8)
  | readWord (address : UInt64)
  | stream (start : UInt64) (length : Nat) (offer : List UInt8 → sink → Nat × sink)
      (consumer : sink)
  | copyText (start : UInt64) (buffer : List UInt8)

variable {sink : Type}

def UserCall.Reply : UserCall sink → Type
  | .probe _ => Except UInt64 UInt8
  | .poke _ _ => Except UInt64 Unit
  | .copyFrom _ _ => CopyIn
  | .copyTo _ _ => Nat
  | .readWord _ => Except UInt64 UInt64 × CopyIn
  | .stream _ _ _ _ => Streamed × sink
  | .copyText _ _ => TextCopy

def UserCall.perform {memory : Type} [FaultingAccess memory] (window : UserWindow) :
    (call : UserCall sink) → memory → call.Reply × memory
  | .probe address, user => window.probe address user
  | .poke address byte, user => window.poke address byte user
  | .copyFrom start destination, user => window.copyFrom start destination user
  | .copyTo start bytes, user => window.copyTo start bytes user
  | .readWord address, user =>
      let (word, copy, user) := window.readWord address user
      ((word, copy), user)
  | .stream start length offer consumer, user =>
      let (streamed, user, consumer) := window.stream start length offer user consumer
      ((streamed, consumer), user)
  | .copyText start buffer, user => window.copyText start buffer user

variable {left right : Type}

/-- The same result, with memories that are still related. -/
structure Agree {result : Type} (same : left → right → Prop) (one : result × left)
    (other : result × right) : Prop where
  result : one.1 = other.1
  related : same one.2 other.2

theorem Agree.split {result : Type} {same : left → right → Prop} {one : result × left}
    {other : result × right} (agree : Agree same one other) :
    ∃ value leftAfter rightAfter, one = (value, leftAfter) ∧ other = (value, rightAfter) ∧
      same leftAfter rightAfter :=
  ⟨one.1, one.2, other.2, rfl, Prod.ext agree.result.symm rfl, agree.related⟩

variable [FaultingAccess left] [FaultingAccess right]

def LoadsAgree (same : left → right → Prop) : Prop :=
  ∀ address one other, same one other →
    Agree same (FaultingAccess.load address one) (FaultingAccess.load address other)

def StoresAgree (same : left → right → Prop) : Prop :=
  ∀ address byte one other, same one other →
    Agree same (FaultingAccess.store address byte one) (FaultingAccess.store address byte other)

variable {same : left → right → Prop} {one : left} {other : right} (window : UserWindow)

theorem UserWindow.probe_agree (loads : LoadsAgree same) (related : same one other)
    (address : UInt64) : Agree same (window.probe address one) (window.probe address other) := by
  unfold UserWindow.probe
  split
  · exact ⟨rfl, related⟩
  · obtain ⟨answer, _, _, load, load', after⟩ := (loads address one other related).split
    rw [load, load']
    cases answer <;> exact ⟨rfl, after⟩

theorem UserWindow.poke_agree (stores : StoresAgree same) (related : same one other)
    (address : UInt64) (byte : UInt8) :
    Agree same (window.poke address byte one) (window.poke address byte other) := by
  unfold UserWindow.poke
  split
  · exact ⟨rfl, related⟩
  · obtain ⟨done, _, _, store, store', after⟩ := (stores address byte one other related).split
    rw [store, store']
    cases done <;> exact ⟨rfl, after⟩

theorem UserWindow.probeAt_agree (loads : LoadsAgree same) (related : same one other)
    (start : UInt64) (offset : Nat) :
    Agree same (window.probeAt start offset one) (window.probeAt start offset other) := by
  unfold UserWindow.probeAt
  cases addressAt? start offset with
  | none => exact ⟨rfl, related⟩
  | some address => exact window.probe_agree loads related address

theorem UserWindow.pokeAt_agree (stores : StoresAgree same) (related : same one other)
    (start : UInt64) (offset : Nat) (byte : UInt8) :
    Agree same (window.pokeAt start offset byte one) (window.pokeAt start offset byte other) := by
  unfold UserWindow.pokeAt
  cases addressAt? start offset with
  | none => exact ⟨rfl, related⟩
  | some address => exact window.poke_agree stores related address byte

theorem UserWindow.copyFromAt_agree (loads : LoadsAgree same) (related : same one other)
    (start : UInt64) (offset : Nat) (destination : List UInt8) :
    Agree same (window.copyFromAt start offset destination one)
      (window.copyFromAt start offset destination other) := by
  induction destination generalizing offset one other with
  | nil => exact ⟨rfl, related⟩
  | cons old rest ih =>
      obtain ⟨answer, _, _, probe, probe', after⟩ :=
        (window.probeAt_agree loads related start offset).split
      simp only [UserWindow.copyFromAt, probe, probe']
      cases answer with
      | error address => exact ⟨rfl, after⟩
      | ok byte =>
          obtain ⟨copy, _, _, copied, copied', final⟩ := (ih after (offset + 1)).split
          simp only [copied, copied']
          exact ⟨rfl, final⟩

theorem UserWindow.copyToAt_agree (stores : StoresAgree same) (related : same one other)
    (start : UInt64) (offset : Nat) (bytes : List UInt8) :
    Agree same (window.copyToAt start offset bytes one)
      (window.copyToAt start offset bytes other) := by
  induction bytes generalizing offset one other with
  | nil => exact ⟨rfl, related⟩
  | cons byte rest ih =>
      obtain ⟨answer, _, _, poke, poke', after⟩ :=
        (window.pokeAt_agree stores related start offset byte).split
      simp only [UserWindow.copyToAt, poke, poke']
      cases answer with
      | error address => exact ⟨rfl, after⟩
      | ok done =>
          obtain ⟨copied, _, _, copy, copy', final⟩ := (ih after (offset + 1)).split
          simp only [copy, copy']
          exact ⟨rfl, final⟩

theorem UserWindow.copyTextAt_agree (loads : LoadsAgree same) (related : same one other)
    (start : UInt64) (offset : Nat) (buffer : List UInt8) :
    Agree same (window.copyTextAt start offset buffer one)
      (window.copyTextAt start offset buffer other) := by
  induction buffer generalizing offset one other with
  | nil => exact ⟨rfl, related⟩
  | cons old rest ih =>
      obtain ⟨answer, _, _, probe, probe', after⟩ :=
        (window.probeAt_agree loads related start offset).split
      simp only [UserWindow.copyTextAt, probe, probe']
      cases answer with
      | error address => exact ⟨rfl, after⟩
      | ok byte =>
          obtain ⟨text, _, _, copied, copied', final⟩ := (ih after (offset + 1)).split
          simp only [copied, copied']
          split
          · exact ⟨rfl, after⟩
          · exact ⟨rfl, final⟩

theorem UserWindow.streamRest_agree (loads : LoadsAgree same) (related : same one other)
    (start : UInt64) (length : Nat) (offer : List UInt8 → sink → Nat × sink) (remaining : Nat)
    (consumer : sink) :
    ∃ streamed consumerAfter leftAfter rightAfter,
      window.streamRest start length offer remaining one consumer =
          (streamed, leftAfter, consumerAfter) ∧
        window.streamRest start length offer remaining other consumer =
          (streamed, rightAfter, consumerAfter) ∧
        same leftAfter rightAfter := by
  induction remaining using UserWindow.stream_induction window start length
    generalizing one other consumer with
  | done =>
      rw [UserWindow.streamRest_zero, UserWindow.streamRest_zero]
      exact ⟨_, _, _, _, rfl, rfl, related⟩
  | behind remaining missing =>
      rw [UserWindow.streamRest_of_none missing, UserWindow.streamRest_of_none missing]
      exact ⟨_, _, _, _, rfl, rfl, related⟩
  | pass remaining cursor more found ih =>
      obtain ⟨copy, _, _, copied, copied', after⟩ :=
        (window.copyFromAt_agree loads related cursor 0
        (List.replicate (min remaining window.chunk) 0)).split
      rcases answered : offer (copy.destination.take copy.copied) consumer with ⟨answer, later⟩
      rw [UserWindow.streamRest_pass more found copied answered,
        UserWindow.streamRest_pass more found copied' answered]
      split
      · exact ⟨_, _, _, _, rfl, rfl, after⟩
      · obtain ⟨_, _, _, _, rest, rest', final⟩ := ih after later
        simp only [rest, rest']
        exact ⟨_, _, _, _, rfl, rfl, final⟩

/-- No call tells memories apart whose loads and stores are answered alike. -/
theorem UserCall.perform_agree (loads : LoadsAgree same) (stores : StoresAgree same)
    (related : same one other) (call : UserCall sink) :
    Agree same (call.perform window one) (call.perform window other) := by
  cases call with
  | probe address => exact window.probe_agree loads related address
  | poke address byte => exact window.poke_agree stores related address byte
  | copyFrom start destination => exact window.copyFromAt_agree loads related start 0 destination
  | copyTo start bytes => exact window.copyToAt_agree stores related start 0 bytes
  | readWord address =>
      obtain ⟨copy, _, _, copied, copied', after⟩ :=
        (window.copyFromAt_agree loads related address 0 (List.replicate 8 0)).split
      simp only [UserCall.perform, UserWindow.readWord, UserWindow.copyFrom, copied, copied']
      split <;> exact ⟨rfl, after⟩
  | stream start length offer consumer =>
      obtain ⟨_, _, _, _, streamed, streamed', after⟩ :=
        window.streamRest_agree loads related start length offer length consumer
      simp only [UserCall.perform, UserWindow.stream, streamed, streamed']
      exact ⟨rfl, after⟩
  | copyText start buffer => exact window.copyTextAt_agree loads related start 0 buffer

end KernelPaging
