import KernelPaging.User.Access

/-!
Copies between the kernel and user memory. They go byte by byte in ascending order and end at the
first byte that cannot be touched; a short copy is a count and no error. A copy of a string ends at
its zero byte as well. The string and its terminator have to fit the buffer, and the bytes before the
terminator have to be UTF-8.
-/

set_option autoImplicit false

namespace KernelPaging

structure CopyIn where
  /-- The destination afterwards, all of it. -/
  destination : List UInt8
  copied : Nat
  /-- The address that ended the copy early. -/
  fault : Option UInt64

variable {memory : Type} [FaultingAccess memory]

def UserWindow.copyFromAt (window : UserWindow) (start : UInt64) :
    (offset : Nat) → (destination : List UInt8) → memory → CopyIn × memory
  | _, [], user => (⟨[], 0, none⟩, user)
  | offset, old :: rest, user =>
      match window.probeAt start offset user with
      | (.error address, user) => (⟨old :: rest, 0, some address⟩, user)
      | (.ok byte, user) =>
          let (copy, user) := window.copyFromAt start (offset + 1) rest user
          (⟨byte :: copy.destination, copy.copied + 1, copy.fault⟩, user)

theorem UserWindow.copied_le (window : UserWindow) (start : UInt64) (offset : Nat)
    (destination : List UInt8) (user : memory) :
    (window.copyFromAt start offset destination user).1.copied ≤ destination.length := by
  induction destination generalizing offset user with
  | nil => exact Nat.le_refl 0
  | cons old rest ih =>
      unfold UserWindow.copyFromAt
      split
      · exact Nat.zero_le _
      · next after _ => exact Nat.succ_le_succ (ih (offset + 1) after)

def UserWindow.copyFrom (window : UserWindow) (start : UInt64) (destination : List UInt8)
    (user : memory) : CopyIn × memory :=
  window.copyFromAt start 0 destination user

def UserWindow.copyToAt (window : UserWindow) (start : UInt64) :
    (offset : Nat) → (bytes : List UInt8) → memory → Nat × memory
  | _, [], user => (0, user)
  | offset, byte :: rest, user =>
      match window.pokeAt start offset byte user with
      | (.error _, user) => (0, user)
      | (.ok _, user) =>
          let (copied, user) := window.copyToAt start (offset + 1) rest user
          (copied + 1, user)

def UserWindow.copyTo (window : UserWindow) (start : UInt64) (bytes : List UInt8) (user : memory) :
    Nat × memory :=
  window.copyToAt start 0 bytes user

def littleEndian : List UInt8 → Nat
  | [] => 0
  | byte :: rest => byte.toNat + 256 * littleEndian rest

/-- A word of user memory, or the first address of it that cannot be read, and the copy it was made
from. -/
def UserWindow.readWord (window : UserWindow) (address : UInt64) (user : memory) :
    Except UInt64 UInt64 × CopyIn × memory :=
  let (copy, user) := window.copyFrom address (List.replicate 8 0) user
  if copy.copied < 8 then
    (.error (address + UInt64.ofNat copy.copied), copy, user)
  else
    (.ok (UInt64.ofNat (littleEndian copy.destination)), copy, user)

inductive UserTextError
  | fault (address : UInt64)
  | tooLong
  | notUtf8
deriving DecidableEq

inductive TextEnd
  | terminator
  | fault (address : UInt64)
  | bufferFull

structure TextCopy where
  /-- The buffer afterwards, all of it; the terminator is not copied. -/
  buffer : List UInt8
  copied : Nat
  ending : TextEnd

def UserWindow.copyTextAt (window : UserWindow) (start : UInt64) :
    (offset : Nat) → (buffer : List UInt8) → memory → TextCopy × memory
  | _, [], user => (⟨[], 0, .bufferFull⟩, user)
  | offset, old :: rest, user =>
      match window.probeAt start offset user with
      | (.error address, user) => (⟨old :: rest, 0, .fault address⟩, user)
      | (.ok byte, user) =>
          if byte = 0 then
            (⟨old :: rest, 0, .terminator⟩, user)
          else
            let (copy, user) := window.copyTextAt start (offset + 1) rest user
            (⟨byte :: copy.buffer, copy.copied + 1, copy.ending⟩, user)

def TextCopy.text (copy : TextCopy) : Except UserTextError String :=
  match copy.ending with
  | .fault address => .error (.fault address)
  | .bufferFull => .error .tooLong
  | .terminator =>
      match String.fromUTF8? ⟨(copy.buffer.take copy.copied).toArray⟩ with
      | some text => .ok text
      | none => .error .notUtf8

def UserWindow.copyText (window : UserWindow) (start : UInt64) (buffer : List UInt8)
    (user : memory) : TextCopy × memory :=
  window.copyTextAt start 0 buffer user

end KernelPaging
