import KernelPaging.User.Copy

/-!
Streaming of user memory into a consumer, through a bounce buffer of a chunk at a time. The stream
ends at the first short copy and at the first chunk that is not consumed whole.
-/

set_option autoImplicit false

namespace KernelPaging

variable {memory sink : Type} [FaultingAccess memory]

structure Streamed where
  consumed : Nat
  /-- The copy that fell short and ended the stream. -/
  short : Option CopyIn

/-- Streams the last `remaining` of `length` bytes. The consumer is offered a chunk and answers how
many of its bytes it took; more than were offered count as all of them. -/
def UserWindow.streamRest (window : UserWindow) (start : UInt64) (length : Nat)
    (offer : List UInt8 → sink → Nat × sink) (remaining : Nat) (user : memory) (consumer : sink) :
    Streamed × memory × sink :=
  if remaining = 0 then
    (⟨0, none⟩, user, consumer)
  else
    let attempt := min remaining window.chunk
    match addressAt? start (length - remaining) with
    | none => (⟨0, none⟩, user, consumer)
    | some cursor =>
        let (copy, user) := window.copyFrom cursor (List.replicate attempt 0) user
        let (answer, consumer) := offer (copy.destination.take copy.copied) consumer
        let written := min answer copy.copied
        if written < attempt then
          (⟨written, copy.fault.map fun _ => copy⟩, user, consumer)
        else
          let (rest, user, consumer) :=
            window.streamRest start length offer (remaining - copy.copied) user consumer
          (⟨written + rest.consumed, rest.short⟩, user, consumer)
termination_by remaining
decreasing_by
  have := window.chunk_pos
  omega

section

variable {window : UserWindow} {start : UInt64} {length remaining : Nat}
  {offer : List UInt8 → sink → Nat × sink} {user after : memory} {consumer later : sink}

theorem UserWindow.streamRest_zero :
    window.streamRest start length offer 0 user consumer = (⟨0, none⟩, user, consumer) := by
  rw [UserWindow.streamRest]
  rfl

theorem UserWindow.streamRest_of_none (missing : addressAt? start (length - remaining) = none) :
    window.streamRest start length offer remaining user consumer = (⟨0, none⟩, user, consumer) := by
  rw [UserWindow.streamRest, missing]
  split <;> rfl

theorem UserWindow.streamRest_pass {cursor : UInt64} {copy : CopyIn} {answer : Nat}
    (more : remaining ≠ 0) (found : addressAt? start (length - remaining) = some cursor)
    (copied : window.copyFrom cursor (List.replicate (min remaining window.chunk) 0) user =
      (copy, after))
    (answered : offer (copy.destination.take copy.copied) consumer = (answer, later)) :
    window.streamRest start length offer remaining user consumer =
      if min answer copy.copied < min remaining window.chunk then
        (⟨min answer copy.copied, copy.fault.map fun _ => copy⟩, after, later)
      else
        let rest := window.streamRest start length offer
          (remaining - min remaining window.chunk) after later
        (⟨min remaining window.chunk + rest.1.consumed, rest.1.short⟩, rest.2) := by
  have atMost := window.copied_le cursor 0 (List.replicate (min remaining window.chunk) 0) user
  rw [← UserWindow.copyFrom, copied, List.length_replicate] at atMost
  rw [UserWindow.streamRest, if_neg more, found]
  simp only [copied, answered]
  split
  · rfl
  · next whole =>
      have full : copy.copied = min remaining window.chunk := by
        simp only at atMost
        omega
      have taken : min answer copy.copied = min remaining window.chunk := by omega
      rw [taken, full]

end

/-- A stream has nothing left to do, or would go on behind the last address, or it goes on with a
pass, after which less is left. -/
@[elab_as_elim]
theorem UserWindow.stream_induction (window : UserWindow) (start : UInt64) (length : Nat)
    {motive : Nat → Prop} (done : motive 0)
    (behind : ∀ remaining, addressAt? start (length - remaining) = none → motive remaining)
    (pass : ∀ remaining cursor, remaining ≠ 0 →
      addressAt? start (length - remaining) = some cursor →
      motive (remaining - min remaining window.chunk) → motive remaining)
    (remaining : Nat) : motive remaining := by
  induction remaining using Nat.strongRecOn with
  | ind remaining ih =>
      by_cases more : remaining = 0
      · rw [more]
        exact done
      · cases found : addressAt? start (length - remaining) with
        | none => exact behind remaining found
        | some cursor =>
            have positive := window.chunk_pos
            exact pass remaining cursor more found (ih _ (by omega))

def UserWindow.stream (window : UserWindow) (start : UInt64) (length : Nat)
    (offer : List UInt8 → sink → Nat × sink) (user : memory) (consumer : sink) :
    Streamed × memory × sink :=
  window.streamRest start length offer length user consumer

end KernelPaging
