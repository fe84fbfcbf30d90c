import KernelPaging.Proofs.CopiesIn
import Mathlib.Data.Set.Basic

/-!
Texts in user memory. A copy of a text goes on to the first byte that is zero or not visible, and to
the end of the buffer if there is none. What stands there decides the answer, and no byte behind it
is touched.
-/

set_option autoImplicit false

namespace KernelPaging

/-- Memory as a text sees it, where a zero is as much of an end as a byte that cannot be read. -/
def nonzero (content : UInt64 → Option UInt8) (address : UInt64) : Option UInt8 :=
  (content address).filter (· ≠ 0)

section

variable (window : UserWindow) (content : UInt64 → Option UInt8)

def UserWindow.EndsText (place : Nat) : Prop :=
  window.visible? content place = none ∨ window.visible? content place = some 0

def UserWindow.textEnds (place length : Nat) : Set Nat :=
  {index | index < length ∧ window.EndsText content (place + index)}

def UserWindow.textEnd (place count length : Nat) : TextEnd :=
  if count < length then
    match window.visible? content (place + count) with
    | some _ => .terminator
    | none => .fault (UInt64.ofNat (place + count))
  else
    .bufferFull

variable {window content}

theorem UserWindow.textEnd_of_hidden {place count length : Nat} (inside : count < length)
    (hidden : window.visible? content (place + count) = none) :
    window.textEnd content place count length = .fault (UInt64.ofNat (place + count)) := by
  rw [UserWindow.textEnd, if_pos inside, hidden]

theorem UserWindow.textEnd_of_visible {place count length : Nat} {byte : UInt8}
    (inside : count < length) (visible : window.visible? content (place + count) = some byte) :
    window.textEnd content place count length = .terminator := by
  rw [UserWindow.textEnd, if_pos inside, visible]

theorem UserWindow.textEnd_of_full (place length : Nat) :
    window.textEnd content place length length = .bufferFull :=
  if_neg (Nat.lt_irrefl length)

theorem UserWindow.visible_nonzero (place : Nat) :
    window.visible? (nonzero content) place = (window.visible? content place).filter (· ≠ 0) := by
  unfold UserWindow.visible?
  split <;> rfl

theorem UserWindow.endsText_iff {place : Nat} :
    window.EndsText content place ↔ window.visible? (nonzero content) place = none := by
  rw [UserWindow.visible_nonzero, UserWindow.EndsText]
  cases window.visible? content place with
  | none => simp
  | some byte => simp [Option.filter]

theorem UserWindow.visible_of_nonzero {place : Nat} {byte : UInt8}
    (visible : window.visible? (nonzero content) place = some byte) :
    window.visible? content place = some byte := by
  rw [UserWindow.visible_nonzero] at visible
  exact (Option.filter_eq_some_iff.mp visible).1

theorem UserWindow.text_getElem? {place length index : Nat}
    (inside : index < (window.readable (nonzero content) place length).length) :
    (window.readable (nonzero content) place length)[index]? =
      window.visible? content (place + index) := by
  obtain ⟨byte, visible⟩ := Option.isSome_iff_exists.mp (UserWindow.visible_of_readable inside)
  rw [UserWindow.readable_getElem? inside, visible, UserWindow.visible_of_nonzero visible]

theorem UserWindow.text_length {place length count : Nat}
    (reached : IsLeast (window.textEnds content place length) count ∨
      window.textEnds content place length = ∅ ∧ count = length) :
    (window.readable (nonzero content) place length).length = count := by
  simp only [UserWindow.textEnds, UserWindow.endsText_iff] at reached
  rcases reached with first | ⟨never, rfl⟩
  · exact UserWindow.readable_length_of_isLeast first
  · apply Nat.le_antisymm (window.readable_length_le (nonzero content) place count)
    apply Nat.le_of_not_lt
    intro short
    have behind := UserWindow.visible_readable_length short
    exact Set.eq_empty_iff_forall_notMem.mp never _ ⟨short, behind⟩

theorem UserWindow.loads_within {place count length : Nat} {access : Access}
    (member : access ∈ window.loads content place count length) :
    access.address.toNat ≤ place + count := by
  have small : ∀ other, (UInt64.ofNat other).toNat ≤ other := fun other =>
    UInt64.toNat_ofNat' ▸ Nat.mod_le other _
  unfold UserWindow.loads UserWindow.asked at member
  rcases List.mem_append.mp member with copied | probed
  · obtain ⟨other, inside, rfl⟩ := List.mem_map.mp copied
    have within := List.mem_range'_1.mp inside
    have bounded := small other
    simp only [Access.address]
    omega
  · split at probed
    · split at probed
      · cases List.mem_singleton.mp probed
        exact small (place + count)
      · cases probed
    · cases probed

end

section

variable (window : UserWindow) (content : UInt64 → Option UInt8)

theorem UserWindow.copyTextAt_watched (start : UInt64) (buffer : List UInt8) :
    ∀ (offset : Nat) (before : List Access), start.toNat + offset < wordLimit →
      let place := start.toNat + offset
      let bytes := window.readable (nonzero content) place buffer.length
      window.copyTextAt start offset buffer (Watched.mk (Steady.mk content) before) =
        (⟨bytes ++ buffer.drop bytes.length, bytes.length,
          window.textEnd content place bytes.length buffer.length⟩,
          ⟨⟨content⟩, before ++ window.loads content place bytes.length buffer.length⟩) := by
  induction buffer with
  | nil =>
      intro offset before _
      simp [UserWindow.copyTextAt, UserWindow.readable, UserWindow.loads, UserWindow.textEnd]
  | cons old rest ih =>
      intro offset before fits
      simp only [UserWindow.copyTextAt, List.length_cons, UserWindow.readable,
        window.probeAt_watched content fits, UserWindow.visible_nonzero]
      cases visible : window.visible? content (start.toNat + offset) with
      | none => simp [UserWindow.loads_zero, UserWindow.textEnd, visible]
      | some byte =>
          -- The bytes end at a zero, but the zero has been loaded by then.
          by_cases zero : byte = 0
          · simp [zero, Option.filter, UserWindow.loads_zero, UserWindow.textEnd, visible]
          · have next := window.fits_below (UserWindow.visible_below visible)
            simp only [Option.elim_some, ih _ _ next]
            simp [zero, Option.filter, UserWindow.loads_succ visible, UserWindow.textEnd,
              Nat.add_assoc, Nat.add_comm 1]

end

section

variable {memory : Type} [FaultingAccess memory] (window : UserWindow)
  {content : UInt64 → Option UInt8} {user : memory}

theorem UserWindow.copyText_watched (fixed : LoadsFixed content user) (start : UInt64)
    (buffer : List UInt8) :
    let bytes := window.readable (nonzero content) start.toNat buffer.length
    let outcome := window.copyText start buffer (Watched.mk user [])
    outcome.1 = ⟨bytes ++ buffer.drop bytes.length, bytes.length,
        window.textEnd content start.toNat bytes.length buffer.length⟩ ∧
      outcome.2.accesses = window.loads content start.toNat bytes.length buffer.length := by
  have alike : WatchedAlike (Watched.mk user []) (Watched.mk (Steady.mk content) []) := ⟨fixed, rfl⟩
  have agree := window.copyTextAt_agree WatchedAlike.loads alike start 0 buffer
  have steady := window.copyTextAt_watched content start buffer 0 [] start.toNat_lt
  simp only [Nat.add_zero, List.nil_append] at steady
  intro bytes outcome
  have result : outcome.1 = _ := agree.result
  have accesses : outcome.2.accesses = _ := agree.related.accesses
  rw [steady] at result accesses
  exact ⟨result, accesses⟩

/-! ### Checked sums -/

def UserWindow.copyTextChecked (window : UserWindow) (start : UInt64) :
    (offset : Nat) → (buffer : List UInt8) → memory → Except MachineFault (TextCopy × memory)
  | _, [], user => return (⟨[], 0, .bufferFull⟩, user)
  | offset, old :: rest, user => do
      ensure (start.toNat + offset < wordLimit) .overflow
      match window.probeAt start offset user with
      | (.error address, user) => return (⟨old :: rest, 0, .fault address⟩, user)
      | (.ok byte, user) =>
          if byte = 0 then
            return (⟨old :: rest, 0, .terminator⟩, user)
          else
            let (copy, user) ← window.copyTextChecked start (offset + 1) rest user
            return (⟨byte :: copy.buffer, copy.copied + 1, copy.ending⟩, user)

theorem UserWindow.copyTextChecked_ok {start : UInt64} (buffer : List UInt8) :
    ∀ {offset : Nat} (user : memory), start.toNat + offset < wordLimit →
      window.copyTextChecked start offset buffer user =
        .ok (window.copyTextAt start offset buffer user) := by
  induction buffer with
  | nil =>
      intro offset user _
      rfl
  | cons old rest ih =>
      intro offset user fits
      rw [UserWindow.copyTextChecked, UserWindow.copyTextAt, ensure_of fits]
      rcases read : window.probeAt start offset user with ⟨answer, after⟩
      cases answer with
      | error address => rfl
      | ok byte =>
          have next := window.fits_below (window.probeAt_below read)
          simp only [bind, Except.bind, ih after next]
          split <;> rfl

end

section

variable {copy : TextCopy}

theorem TextCopy.text_of_fault {address : UInt64} (ended : copy.ending = .fault address) :
    copy.text = .error (.fault address) := by
  rw [TextCopy.text, ended]

theorem TextCopy.text_of_bufferFull (ended : copy.ending = .bufferFull) :
    copy.text = .error .tooLong := by
  rw [TextCopy.text, ended]

theorem TextCopy.text_of_terminator (ended : copy.ending = .terminator) {bytes : List UInt8}
    (copied : copy.buffer.take copy.copied = bytes) :
    (ByteArray.IsValidUTF8 ⟨bytes.toArray⟩ →
        ∃ text, copy.text = .ok text ∧ text.toUTF8 = ⟨bytes.toArray⟩) ∧
      (¬ ByteArray.IsValidUTF8 ⟨bytes.toArray⟩ → copy.text = .error .notUtf8) := by
  rw [TextCopy.text, ended, copied]
  constructor
  · intro valid
    have decoded : String.fromUTF8? ⟨bytes.toArray⟩ = some (.fromUTF8 ⟨bytes.toArray⟩ valid) :=
      dif_pos valid
    simp only [decoded]
    exact ⟨_, rfl, rfl⟩
  · intro invalid
    have refused : String.fromUTF8? ⟨bytes.toArray⟩ = none := dif_neg invalid
    simp only [refused]

end

section

variable {memory : Type} [FaultingAccess memory] {content : UInt64 → Option UInt8} {user : memory}

variable {window : UserWindow} {start : UInt64} {buffer : List UInt8} {count : Nat}

theorem UserWindow.copyText_of_reached (fixed : LoadsFixed content user)
    (reached : IsLeast (window.textEnds content start.toNat buffer.length) count ∨
      window.textEnds content start.toNat buffer.length = ∅ ∧ count = buffer.length) :
    let outcome := window.copyText start buffer (Watched.mk user [])
    ∃ bytes : List UInt8, bytes.length = count ∧
      (∀ index < count, bytes[index]? = window.visible? content (start.toNat + index)) ∧
      outcome.1 = ⟨bytes ++ buffer.drop count, count,
        window.textEnd content start.toNat count buffer.length⟩ ∧
      outcome.2.accesses = window.loads content start.toNat count buffer.length ∧
      start.toNat + count < wordLimit := by
  obtain ⟨copied, accesses⟩ := window.copyText_watched fixed start buffer
  have length := UserWindow.text_length reached
  have fits := window.readable_fits (nonzero content) start.toNat_lt buffer.length
  rw [length] at copied accesses fits
  refine ⟨_, length, ?_, copied, accesses, fits⟩
  intro index inside
  exact UserWindow.text_getElem? (length.symm ▸ inside)

theorem UserWindow.copyText_tooLong (fixed : LoadsFixed content user)
    (never : window.textEnds content start.toNat buffer.length = ∅) :
    (window.copyText start buffer (Watched.mk user [])).1.text = .error .tooLong := by
  obtain ⟨bytes, _, _, copied, _⟩ := UserWindow.copyText_of_reached fixed (.inr ⟨never, rfl⟩)
  apply TextCopy.text_of_bufferFull
  rw [copied]
  exact UserWindow.textEnd_of_full start.toNat buffer.length

theorem UserWindow.copyText_fault (fixed : LoadsFixed content user)
    (first : IsLeast (window.textEnds content start.toNat buffer.length) count)
    (hidden : window.visible? content (start.toNat + count) = none) :
    ∃ address, address.toNat = start.toNat + count ∧
      (window.copyText start buffer (Watched.mk user [])).1.text = .error (.fault address) := by
  obtain ⟨bytes, _, _, copied, _, fits⟩ := UserWindow.copyText_of_reached fixed (.inl first)
  refine ⟨UInt64.ofNat (start.toNat + count), UInt64.toNat_ofNat_of_lt' fits, ?_⟩
  apply TextCopy.text_of_fault
  rw [copied]
  exact UserWindow.textEnd_of_hidden first.1.1 hidden

theorem UserWindow.copyText_terminated (fixed : LoadsFixed content user)
    (first : IsLeast (window.textEnds content start.toNat buffer.length) count)
    (zero : window.visible? content (start.toNat + count) = some 0) {text : List UInt8}
    (length : text.length = count)
    (same : ∀ index < count, text[index]? = window.visible? content (start.toNat + index)) :
    let copy := (window.copyText start buffer (Watched.mk user [])).1
    (ByteArray.IsValidUTF8 ⟨text.toArray⟩ →
        ∃ answer, copy.text = .ok answer ∧ answer.toUTF8 = ⟨text.toArray⟩) ∧
      (¬ ByteArray.IsValidUTF8 ⟨text.toArray⟩ → copy.text = .error .notUtf8) := by
  obtain ⟨bytes, counted, visible, copied, _⟩ :=
    UserWindow.copyText_of_reached fixed (.inl first)
  have equal : bytes = text := by
    apply List.ext_getElem?
    intro index
    by_cases inside : index < count
    · rw [visible index inside, same index inside]
    · rw [List.getElem?_eq_none (by omega), List.getElem?_eq_none (by omega)]
  apply TextCopy.text_of_terminator
  · rw [copied]
    exact UserWindow.textEnd_of_visible first.1.1 zero
  · rw [copied, ← counted, List.take_left, equal]

theorem UserWindow.copyText_buffer (fixed : LoadsFixed content user)
    (reached : IsLeast (window.textEnds content start.toNat buffer.length) count ∨
      window.textEnds content start.toNat buffer.length = ∅ ∧ count = buffer.length) (index : Nat) :
    (window.copyText start buffer (Watched.mk user [])).1.buffer[index]? =
      if index < count then window.visible? content (start.toNat + index) else buffer[index]? := by
  obtain ⟨bytes, counted, visible, copied, _⟩ := UserWindow.copyText_of_reached fixed reached
  rw [copied, ← counted, getElem?_overwritten]
  split
  · next inside => exact visible index (counted ▸ inside)
  · rfl

/-- The first place that ends a text decides the answer: a fault there, or the bytes before a zero
if they are UTF-8; and without one the text is too long. The bytes before that place are copied, the
rest of the buffer stays as it was, and no load goes past the place. No sum for an address is ever
too large. -/
theorem UserWindow.copies_terminated_text (config : Config) (fixed : LoadsFixed content user)
    (start : UInt64) (buffer : List UInt8) :
    let window := config.window
    let byteAt := fun index => window.visible? content (start.toNat + index)
    let ends := {index | index < buffer.length ∧ (byteAt index = none ∨ byteAt index = some 0)}
    let outcome := window.copyText start buffer (Watched.mk user [])
    (ends = ∅ → outcome.1.text = .error .tooLong) ∧
      (∀ count, IsLeast ends count → byteAt count = none →
        ∃ address, address.toNat = start.toNat + count ∧
          outcome.1.text = .error (.fault address)) ∧
      (∀ count, IsLeast ends count → byteAt count = some 0 →
        ∀ bytes : List UInt8, bytes.length = count →
          (∀ index < count, bytes[index]? = byteAt index) →
          (ByteArray.IsValidUTF8 ⟨bytes.toArray⟩ →
            ∃ text, outcome.1.text = .ok text ∧ text.toUTF8 = ⟨bytes.toArray⟩) ∧
          (¬ ByteArray.IsValidUTF8 ⟨bytes.toArray⟩ → outcome.1.text = .error .notUtf8)) ∧
      (∀ count, IsLeast ends count ∨ ends = ∅ ∧ count = buffer.length →
        (∀ index, outcome.1.buffer[index]? =
          if index < count then byteAt index else buffer[index]?) ∧
        outcome.2.accesses = window.loads content start.toNat count buffer.length ∧
        ∀ access ∈ outcome.2.accesses, access.address.toNat ≤ start.toNat + count) ∧
      Agree (fun watched user => watched.user = user) outcome
        (window.copyText start buffer user) ∧
      window.copyTextChecked start 0 buffer user = .ok (window.copyText start buffer user) := by
  intro window byteAt ends outcome
  refine ⟨UserWindow.copyText_tooLong fixed, ?_, ?_, ?_, ?_, ?_⟩
  · intro count first hidden
    exact UserWindow.copyText_fault fixed first hidden
  · intro count first zero bytes length same
    exact UserWindow.copyText_terminated fixed first zero length same
  · intro count reached
    obtain ⟨_, _, _, _, accesses, _⟩ := UserWindow.copyText_of_reached fixed reached
    refine ⟨UserWindow.copyText_buffer fixed reached, accesses, ?_⟩
    intro access member
    rw [accesses] at member
    exact UserWindow.loads_within member
  · exact window.copyTextAt_agree watched_loads rfl start 0 buffer
  · exact window.copyTextChecked_ok buffer user start.toNat_lt

end

def greeting : Steady :=
  ⟨fun address => ([104, 105, 0] : List UInt8)[(address - 0x400000).toNat]?⟩

/-- Its terminator fits five bytes, and not two. -/
theorem greeting_copied :
    LoadsFixed greeting.content greeting ∧
      (({} : Config).window.copyText 0x400000 (List.replicate 5 0xee)
        (Watched.mk greeting [])).1.text = .ok "hi" ∧
      (({} : Config).window.copyText 0x400000 (List.replicate 2 0xee)
        (Watched.mk greeting [])).1.text = .error .tooLong := by
  have letters : ∀ index < 2, ({} : Config).window.visible? greeting.content
      (UInt64.toNat 0x400000 + index) = ([104, 105] : List UInt8)[index]? := by
    decide +kernel
  have noEnd : ∀ index < 2, ¬ (({} : Config).window.visible? greeting.content
      (UInt64.toNat 0x400000 + index) = none ∨ ({} : Config).window.visible? greeting.content
      (UInt64.toNat 0x400000 + index) = some 0) := by
    decide +kernel
  have zero : ({} : Config).window.visible? greeting.content (UInt64.toNat 0x400000 + 2) =
      some 0 := by
    decide +kernel
  refine ⟨greeting.loadsFixed, ?_, ?_⟩
  · have whole := UserWindow.copies_terminated_text {} greeting.loadsFixed 0x400000
      (List.replicate 5 0xee)
    have first : IsLeast {index | index < 5 ∧ _} 2 :=
      ⟨⟨by decide, .inr zero⟩,
        fun index ends => Nat.le_of_not_lt fun less => noEnd index less ends.2⟩
    obtain ⟨text, copied, encoded⟩ := (whole.2.2.1 2 first zero [104, 105] rfl
      fun index inside => (letters index inside).symm).1 ⟨['h', 'i'], by decide⟩
    have same : text = "hi" := String.toByteArray_inj.mp encoded
    rw [copied, same]
  · have whole := UserWindow.copies_terminated_text {} greeting.loadsFixed 0x400000
      (List.replicate 2 0xee)
    apply whole.1
    exact Set.eq_empty_of_forall_notMem fun index ends => noEnd index ends.1 ends.2

end KernelPaging
