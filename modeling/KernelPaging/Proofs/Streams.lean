import KernelPaging.Proofs.UserBytes
import Mathlib.Logic.Relation

/-!
Streaming compared with one copy of the whole range. The chunks cut the bytes of the copy in a row;
the consumer's answers decide how many of them are offered.
-/

set_option autoImplicit false

namespace KernelPaging

structure Offer where
  chunk : List UInt8
  answer : Nat
deriving DecidableEq

def Offer.accepted (offer : Offer) : List UInt8 :=
  offer.chunk.take offer.answer

structure Heard (sink : Type) where
  consumer : sink
  offers : List Offer := []

variable {memory sink : Type}

/-- The consumer answers as before, and what it is offered is written down. -/
def heed (offer : List UInt8 → sink → Nat × sink) (chunk : List UInt8) (heard : Heard sink) :
    Nat × Heard sink :=
  let (answer, consumer) := offer chunk heard.consumer
  (answer, ⟨consumer, heard.offers ++ [⟨chunk, answer⟩]⟩)

/-- How many bytes are asked for when so many chunks have gone before. -/
def UserWindow.attempt (window : UserWindow) (length index : Nat) : Nat :=
  min (length - index * window.chunk) window.chunk

/-- The offers hand over the bytes in a row, each but the last as a whole attempt and taken whole;
`consumed` counts what was taken. -/
structure Handover (window : UserWindow) (length : Nat) (bytes : List UInt8) (offers : List Offer)
    (consumed : Nat) : Prop where
  offered : (offers.map Offer.chunk).flatten <+: bytes
  accepted : (offers.map Offer.accepted).flatten = bytes.take consumed
  counted : consumed ≤ bytes.length
  attempted : ∀ index offer, offers[index]? = some offer →
    1 ≤ window.attempt length index ∧ window.attempt length index ≤ 256 ∧
      offer.chunk.length ≤ window.attempt length index
  whole : ∀ index offer, offers[index]? = some offer → index + 1 < offers.length →
    offer.chunk.length = window.attempt length index ∧
      offer.accepted.length = window.attempt length index
  willing : (∀ offer ∈ offers, offer.chunk.length ≤ offer.answer) →
    consumed = bytes.length ∧ (offers.map Offer.chunk).flatten = bytes

section

variable (window : UserWindow)

@[simp]
theorem UserWindow.attempt_zero (length : Nat) :
    window.attempt length 0 = min length window.chunk := by
  simp [UserWindow.attempt]

theorem UserWindow.attempt_pos {length : Nat} (more : length ≠ 0) :
    1 ≤ window.attempt length 0 := by
  have positive := window.chunk_pos
  unfold UserWindow.attempt
  omega

theorem UserWindow.attempt_le (length index : Nat) : window.attempt length index ≤ 256 := by
  have bounded : window.chunk ≤ 256 := window.chunk_le
  unfold UserWindow.attempt
  omega

theorem UserWindow.attempt_succ (length index : Nat) :
    window.attempt length (index + 1) =
      window.attempt (length - window.attempt length 0) index := by
  unfold UserWindow.attempt
  rw [Nat.succ_mul, Nat.zero_mul]
  omega

variable {window} {length : Nat} {bytes : List UInt8}

theorem Handover.nothing (length : Nat) : Handover window length [] [] 0 := by
  constructor <;> simp

theorem Handover.last (offer : Offer) (more : length ≠ 0) (part : offer.chunk <+: bytes)
    (bounded : offer.chunk.length ≤ window.attempt length 0)
    (short : offer.chunk.length ≤ offer.answer → offer.chunk = bytes) :
    Handover window length bytes [offer] (min offer.answer offer.chunk.length) := by
  have atMost : offer.chunk.length ≤ bytes.length := part.length_le
  constructor
  · simpa using part
  · obtain ⟨tail, rfl⟩ := part
    rw [List.take_append_of_le_length (Nat.min_le_right _ _), ← List.take_eq_take_min]
    simp [Offer.accepted]
  · omega
  · intro index only found
    cases index with
    | zero =>
        cases found
        exact ⟨window.attempt_pos more, window.attempt_le length 0, bounded⟩
    | succ index => simp at found
  · intro index only found inside
    simp at inside
  · intro willing
    have all := willing offer (List.mem_singleton_self offer)
    have same := short all
    constructor
    · rw [Nat.min_eq_right all, same]
    · simpa using same

theorem Handover.cons {offers : List Offer} {consumed : Nat} (offer : Offer) (more : length ≠ 0)
    (full : offer.chunk.length = window.attempt length 0)
    (taken : offer.chunk.length ≤ offer.answer)
    (rest : Handover window (length - window.attempt length 0) bytes offers consumed) :
    Handover window length (offer.chunk ++ bytes) (offer :: offers)
      (offer.chunk.length + consumed) := by
  have accepted : offer.accepted = offer.chunk := List.take_of_length_le taken
  constructor
  · simpa using rest.offered
  · rw [List.map_cons, List.flatten_cons, accepted, rest.accepted, List.take_length_add_append]
  · have counted := rest.counted
    rw [List.length_append]
    omega
  · intro index chosen found
    cases index with
    | zero =>
        cases found
        exact ⟨window.attempt_pos more, window.attempt_le length 0, Nat.le_of_eq full⟩
    | succ index =>
        rw [window.attempt_succ]
        exact rest.attempted index chosen found
  · intro index chosen found inside
    cases index with
    | zero =>
        cases found
        rw [accepted]
        exact ⟨full, full⟩
    | succ index =>
        rw [window.attempt_succ]
        exact rest.whole index chosen found (by simpa using inside)
  · intro willing
    have others := rest.willing fun other member => willing other (List.mem_cons_of_mem _ member)
    constructor
    · rw [others.1, List.length_append]
    · rw [List.map_cons, List.flatten_cons, others.2]

end

variable (window : UserWindow)

theorem UserWindow.streamRest_steady {content : UInt64 → Option UInt8} {start cursor : UInt64}
    {length remaining answer : Nat} {offer : List UInt8 → sink → Nat × sink} {heard : Heard sink}
    {consumer : sink} {first : List UInt8} (more : remaining ≠ 0)
    (found : addressAt? start (length - remaining) = some cursor)
    (read : window.readable content cursor.toNat (min remaining window.chunk) = first)
    (answered : offer first heard.consumer = (answer, consumer)) :
    ∃ short, window.streamRest start length (heed offer) remaining (Steady.mk content) heard =
      let later := ⟨consumer, heard.offers ++ [⟨first, answer⟩]⟩
      if min answer first.length < min remaining window.chunk then
        (⟨min answer first.length, short⟩, ⟨content⟩, later)
      else
        let rest := window.streamRest start length (heed offer)
          (remaining - min remaining window.chunk) (Steady.mk content) later
        (⟨min remaining window.chunk + rest.1.consumed, rest.1.short⟩, rest.2) := by
  obtain ⟨copy, copied, taken, count⟩ :=
    window.copyFromAt_steady content cursor 0 (List.replicate (min remaining window.chunk) 0)
  rw [Nat.add_zero, List.length_replicate, read] at taken count
  have heeded : heed offer (copy.destination.take copy.copied) heard =
      (answer, ⟨consumer, heard.offers ++ [⟨first, answer⟩]⟩) := by
    rw [taken, heed, answered]
  rw [UserWindow.streamRest_pass more found copied heeded, count]
  exact ⟨_, rfl⟩

theorem UserWindow.handsOver_last {content : UInt64 → Option UInt8} {place remaining answer : Nat}
    {first : List UInt8} (more : remaining ≠ 0)
    (read : window.readable content place (min remaining window.chunk) = first)
    (partly : min answer first.length < min remaining window.chunk) :
    Handover window remaining (window.readable content place remaining) [⟨first, answer⟩]
      (min answer first.length) := by
  have size := window.readable_length_le content place (min remaining window.chunk)
  rw [window.readable_split content (Nat.min_le_left remaining window.chunk), read]
  rw [read] at size
  apply Handover.last ⟨first, answer⟩ more (List.prefix_append _ _)
  · rw [window.attempt_zero]
    exact size
  · intro all
    have fewer : first.length ≠ min remaining window.chunk := by
      simp only at all
      omega
    rw [if_neg fewer, List.append_nil]

theorem UserWindow.handsOver_more {content : UInt64 → Option UInt8}
    {place remaining answer consumed : Nat} {first : List UInt8} {offers : List Offer}
    (more : remaining ≠ 0)
    (read : window.readable content place (min remaining window.chunk) = first)
    (full : first.length = min remaining window.chunk) (taken : first.length ≤ answer)
    (rest : Handover window (remaining - min remaining window.chunk)
      (window.readable content (place + min remaining window.chunk)
        (remaining - min remaining window.chunk)) offers consumed) :
    Handover window remaining (window.readable content place remaining)
      (⟨first, answer⟩ :: offers) (min remaining window.chunk + consumed) := by
  rw [window.readable_split content (Nat.min_le_left remaining window.chunk), read, if_pos full,
    ← full]
  apply Handover.cons ⟨first, answer⟩ more
  · rw [window.attempt_zero]
    exact full
  · exact taken
  · rw [window.attempt_zero, full]
    exact rest

theorem UserWindow.streamRest_handsOver (content : UInt64 → Option UInt8) (start : UInt64)
    (length : Nat) (offer : List UInt8 → sink → Nat × sink) (remaining : Nat)
    (part : remaining ≤ length) (heard : Heard sink) :
    ∃ streamed consumer offers,
      window.streamRest start length (heed offer) remaining (Steady.mk content) heard =
          (streamed, ⟨content⟩, ⟨consumer, heard.offers ++ offers⟩) ∧
        Handover window remaining
          (window.readable content (start.toNat + (length - remaining)) remaining) offers
          streamed.consumed := by
  induction remaining using UserWindow.stream_induction window start length
    generalizing heard with
  | done => exact ⟨_, _, [], by rw [List.append_nil, UserWindow.streamRest_zero], .nothing 0⟩
  | behind remaining missing =>
      have behind := addressAt?_eq_none missing
      have bounded := window.top.toNat_lt
      rw [window.readable_behind content (by omega) remaining,
        UserWindow.streamRest_of_none missing]
      exact ⟨_, _, [], by rw [List.append_nil], .nothing remaining⟩
  | pass remaining cursor more found ih =>
      have size := window.readable_length_le content cursor.toNat (min remaining window.chunk)
      generalize read : window.readable content cursor.toNat (min remaining window.chunk) =
        first at size
      rcases answered : offer first heard.consumer with ⟨answer, consumer⟩
      obtain ⟨short, pass⟩ := window.streamRest_steady more found read answered
      rw [pass, ← addressAt?_eq_some found]
      split
      · next partly =>
          exact ⟨_, consumer, [⟨first, answer⟩], rfl, window.handsOver_last more read partly⟩
      · next whole =>
          obtain ⟨rest, last, offers, streamed, handedOver⟩ :=
            ih (by omega) ⟨consumer, heard.offers ++ [⟨first, answer⟩]⟩
          have place : start.toNat + (length - (remaining - min remaining window.chunk)) =
              cursor.toNat + min remaining window.chunk := by
            rw [addressAt?_eq_some found]
            omega
          rw [place] at handedOver
          simp only [streamed, List.append_assoc]
          exact ⟨_, last, ⟨first, answer⟩ :: offers, rfl,
            window.handsOver_more more read (by omega) (by omega) handedOver⟩

section

variable [FaultingAccess memory]

theorem UserWindow.streamRest_heed (start : UInt64) (length : Nat)
    (offer : List UInt8 → sink → Nat × sink) (remaining : Nat) (user : memory)
    (heard : Heard sink) :
    let outcome := window.streamRest start length (heed offer) remaining user heard
    window.streamRest start length offer remaining user heard.consumer =
      (outcome.1, outcome.2.1, outcome.2.2.consumer) := by
  induction remaining using UserWindow.stream_induction window start length
    generalizing user heard with
  | done => rw [UserWindow.streamRest_zero, UserWindow.streamRest_zero]
  | behind remaining missing =>
      rw [UserWindow.streamRest_of_none missing, UserWindow.streamRest_of_none missing]
  | pass remaining cursor more found ih =>
      rcases copied : window.copyFrom cursor (List.replicate (min remaining window.chunk) 0) user
        with ⟨copy, after⟩
      rcases answered : offer (copy.destination.take copy.copied) heard.consumer with
        ⟨answer, consumer⟩
      have heeded : heed offer (copy.destination.take copy.copied) heard =
          (answer, ⟨consumer,
            heard.offers ++ [⟨copy.destination.take copy.copied, answer⟩]⟩) := by
        rw [heed, answered]
      rw [UserWindow.streamRest_pass more found copied answered,
        UserWindow.streamRest_pass more found copied heeded]
      split
      · rfl
      · have rest := ih after ⟨consumer,
          heard.offers ++ [⟨copy.destination.take copy.copied, answer⟩]⟩
        simp only [rest]

structure StreamHead (memory sink : Type) where
  remaining : Nat
  user : memory
  consumer : sink

/-- A pass after which the stream goes on. -/
inductive UserWindow.Pass (start : UInt64) (length : Nat)
    (offer : List UInt8 → sink → Nat × sink) :
    (before after : StreamHead memory sink) → Prop
  | whole {remaining : Nat} {user after : memory} {consumer later : sink} {cursor : UInt64}
      {copy : CopyIn} {answer : Nat} (more : remaining ≠ 0)
      (found : addressAt? start (length - remaining) = some cursor)
      (copied : window.copyFrom cursor (List.replicate (min remaining window.chunk) 0) user =
        (copy, after))
      (answered : offer (copy.destination.take copy.copied) consumer = (answer, later))
      (taken : min remaining window.chunk ≤ min answer copy.copied) :
      UserWindow.Pass start length offer ⟨remaining, user, consumer⟩
        ⟨remaining - copy.copied, after, later⟩

variable {window} {start : UInt64} {length : Nat} {offer : List UInt8 → sink → Nat × sink}
  {before after : StreamHead memory sink}

def StreamHead.rest (window : UserWindow) (start : UInt64) (length : Nat)
    (offer : List UInt8 → sink → Nat × sink) (head : StreamHead memory sink) :
    Streamed × memory × sink :=
  window.streamRest start length offer head.remaining head.user head.consumer

theorem UserWindow.Pass.decreases (pass : window.Pass start length offer before after) :
    after.remaining < before.remaining := by
  cases pass with
  | whole more found copied answered taken =>
      have positive := window.chunk_pos
      simp only
      omega

theorem UserWindow.Pass.rest (pass : window.Pass start length offer before after) :
    before.rest window start length offer =
      (⟨min before.remaining window.chunk + (after.rest window start length offer).1.consumed,
        (after.rest window start length offer).1.short⟩,
        (after.rest window start length offer).2) := by
  cases pass with
  | @whole remaining user later consumer _ cursor copy answer more found copied answered taken =>
      have atMost := window.copied_le cursor 0 (List.replicate (min remaining window.chunk) 0) user
      rw [UserWindow.copyFrom] at copied
      rw [copied, List.length_replicate] at atMost
      have full : copy.copied = min remaining window.chunk := by
        simp only at atMost
        omega
      unfold StreamHead.rest
      rw [UserWindow.streamRest_pass more found copied answered, if_neg (Nat.not_lt.mpr taken),
        full]

theorem UserWindow.probeAt_below (window : UserWindow) {offset : Nat} {user after : memory}
    {byte : UInt8} (read : window.probeAt start offset user = (.ok byte, after)) :
    start.toNat + offset < window.top.toNat := by
  unfold UserWindow.probeAt at read
  cases found : addressAt? start offset with
  | none =>
      rw [found] at read
      cases read
  | some address =>
      rw [found] at read
      unfold UserWindow.probe at read
      simp only at read
      split at read
      · cases read
      · next reached =>
          rw [← addressAt?_eq_some found]
          exact UInt64.lt_iff_toNat_lt.mp (UInt64.not_le.mp reached)

theorem UserWindow.copied_below (window : UserWindow) (start : UInt64) (offset : Nat)
    (destination : List UInt8) (user : memory)
    (nonzero : (window.copyFromAt start offset destination user).1.copied ≠ 0) :
    start.toNat + offset + (window.copyFromAt start offset destination user).1.copied ≤
      window.top.toNat := by
  induction destination generalizing offset user with
  | nil => exact absurd rfl nonzero
  | cons old rest ih =>
      rw [UserWindow.copyFromAt] at nonzero ⊢
      rcases read : window.probeAt start offset user with ⟨answer, after⟩
      rw [read] at nonzero
      cases answer with
      | error address => exact absurd rfl nonzero
      | ok byte =>
          have below := window.probeAt_below read
          have others := ih (offset + 1) after
          simp only
          omega

/-- The sum for the next cursor is checked but never too large: the bytes before it were read. -/
theorem UserWindow.Pass.fits (pass : window.Pass start length offer before after)
    (part : before.remaining ≤ length) :
    start.toNat + (length - after.remaining) ≤ window.top.toNat := by
  cases pass with
  | @whole remaining user later consumer _ cursor copy answer more found copied answered taken =>
      have reached := window.copied_below cursor 0
        (List.replicate (min remaining window.chunk) 0) user
      rw [UserWindow.copyFrom] at copied
      rw [copied, addressAt?_eq_some found] at reached
      have positive := window.chunk_pos
      simp only at reached part ⊢
      omega

theorem UserWindow.Pass.inside
    (passes : Relation.ReflTransGen (window.Pass start length offer) before after)
    (part : before.remaining ≤ length)
    (fits : start.toNat + (length - before.remaining) < 0x10000000000000000) :
    after.remaining ≤ length ∧
      start.toNat + (length - after.remaining) < 0x10000000000000000 := by
  induction passes with
  | refl => exact ⟨part, fits⟩
  | tail earlier pass ih =>
      have fewer := pass.decreases
      have below := pass.fits ih.1
      have bounded := window.top.toNat_lt
      constructor <;> omega

theorem UserWindow.Pass.ends (head : StreamHead memory sink) :
    ∃ last, Relation.ReflTransGen (window.Pass start length offer) head last ∧
      (∀ next, ¬ window.Pass start length offer last next) ∧
      (head.rest window start length offer).2 = (last.rest window start length offer).2 := by
  induction size : head.remaining using Nat.strongRecOn generalizing head with
  | ind remaining ih =>
      by_cases onward : ∃ next, window.Pass start length offer head next
      · obtain ⟨next, pass⟩ := onward
        obtain ⟨last, passes, final, same⟩ := ih next.remaining (size ▸ pass.decreases) next rfl
        refine ⟨last, Relation.ReflTransGen.head pass passes, final, ?_⟩
        rw [pass.rest, same]
      · exact ⟨head, .refl, fun next pass => onward ⟨next, pass⟩, rfl⟩

/-- A stream hands over the bytes that one copy of its range brings, as far as the consumer takes
them. It comes to an end, and no sum for a cursor on the way is too large. -/
theorem UserWindow.stream_as_copy (config : Config) (start : UInt64) (buffer : List UInt8)
    (offer : List UInt8 → sink → Nat × sink) (consumer : sink) (user : memory)
    (content : UInt64 → Option UInt8) (fixed : LoadsFixed content user) :
    let window := config.window
    let copy := (window.copyFrom start buffer user).1
    let outcome := window.stream start buffer.length (heed offer) user ⟨consumer, []⟩
    let passes := Relation.ReflTransGen (window.Pass start buffer.length offer)
      ⟨buffer.length, user, consumer⟩
    window.stream start buffer.length offer user consumer =
        (outcome.1, outcome.2.1, outcome.2.2.consumer) ∧
      copy.bytes.length = copy.copied ∧
      Handover window buffer.length copy.bytes outcome.2.2.offers outcome.1.consumed ∧
      (∃ last, passes last ∧ (∀ next, ¬ window.Pass start buffer.length offer last next) ∧
        (window.stream start buffer.length offer user consumer).2 =
          (last.rest window start buffer.length offer).2) ∧
      ∀ head, passes head → head.remaining ≠ 0 →
        ∃ cursor, addressAt? start (buffer.length - head.remaining) = some cursor := by
  intro window copy outcome passes
  obtain ⟨bytes, count⟩ := window.copyFrom_fixed fixed start buffer
  refine ⟨window.streamRest_heed start buffer.length offer buffer.length user ⟨consumer, []⟩,
    ?_, ?_, ?_, ?_⟩
  · rw [bytes, count]
  · obtain ⟨streamed, heard, _, _, here, there, _⟩ :=
      window.streamRest_agree loadsFixed_agree fixed start buffer.length (heed offer)
      buffer.length ⟨consumer, []⟩
    obtain ⟨streamed', last, offers, steady, handedOver⟩ :=
      window.streamRest_handsOver content start buffer.length offer buffer.length
      (Nat.le_refl _) ⟨consumer, []⟩
    rw [there] at steady
    cases steady
    rw [Nat.sub_self, Nat.add_zero, ← bytes] at handedOver
    have outcome_eq : outcome = (streamed, _, ⟨last, [] ++ offers⟩) := here
    rw [outcome_eq]
    exact handedOver
  · exact UserWindow.Pass.ends ⟨buffer.length, user, consumer⟩
  · intro head reached _
    have bounded := start.toNat_lt
    have inside := UserWindow.Pass.inside reached (Nat.le_refl _) (by simp; omega)
    exact ⟨_, if_pos inside.2⟩

end

def threeBytes : Steady :=
  ⟨fun address => if 0x400000 ≤ address ∧ address < 0x400003 then some 7 else none⟩

theorem Steady.loadsFixed (steady : Steady) : LoadsFixed steady.content steady := by
  intro earlier address
  induction earlier with
  | nil => rfl
  | cons first rest ih => exact ih

/-- Five bytes are asked for in chunks of two; the second chunk falls short. -/
theorem threeBytes_streamed :
    LoadsFixed threeBytes.content threeBytes ∧
      Handover ({ copyChunk := 2 } : Config).window 5 [7, 7, 7] [⟨[7, 7], 2⟩, ⟨[7], 1⟩] 3 := by
  have whole := UserWindow.stream_as_copy { copyChunk := 2 } 0x400000 (List.replicate 5 0)
    (fun chunk (_ : Unit) => (chunk.length, ())) () threeBytes _ threeBytes.loadsFixed
  have bytes : (({ copyChunk := 2 } : Config).window.copyFrom 0x400000 (List.replicate 5 0)
      threeBytes).1.bytes = [7, 7, 7] := by
    decide +kernel
  have offers : (({ copyChunk := 2 } : Config).window.stream 0x400000 5
      (heed fun chunk (_ : Unit) => (chunk.length, ())) threeBytes ⟨(), []⟩).2.2.offers =
      [⟨[7, 7], 2⟩, ⟨[7], 1⟩] := by
    decide +kernel
  have consumed : (({ copyChunk := 2 } : Config).window.stream 0x400000 5
      (heed fun chunk (_ : Unit) => (chunk.length, ())) threeBytes ⟨(), []⟩).1.consumed = 3 := by
    decide +kernel
  have handedOver := whole.2.2.1
  rw [List.length_replicate, bytes, offers, consumed] at handedOver
  exact ⟨threeBytes.loadsFixed, handedOver⟩

end KernelPaging
