import KernelPaging.Subsystem.Kernel
import KernelPaging.User.Stream
import KernelPaging.User.Copy

/-!
User memory as kernel code sees it. Copies that fall short are noted in the log.
-/

set_option autoImplicit false

namespace KernelPaging

variable {bits result : Type}

def onUser (operation : UserWindow → UserSpace → result × UserSpace) : Kernel bits result := do
  let subsystem ← get
  let (value, user) := operation subsystem.window subsystem.user
  set { subsystem with user }
  return value

def probeUser (address : UInt64) : Kernel bits (Except UInt64 UInt8) :=
  onUser fun window user => window.probe address user

def pokeUser (address : UInt64) (byte : UInt8) : Kernel bits (Except UInt64 Unit) :=
  onUser fun window user => window.poke address byte user

def copyFromUser (start : UInt64) (destination : List UInt8) : Kernel bits CopyIn := do
  let copy ← onUser fun window user => window.copyFrom start destination user
  announce? copy.notice?
  return copy

def copyToUser (start : UInt64) (bytes : List UInt8) : Kernel bits Nat := do
  let copied ← onUser fun window user => window.copyTo start bytes user
  if copied < bytes.length then
    announce (.shortCopyOut copied bytes.length)
  return copied

def readUserWord (address : UInt64) : Kernel bits (Except UInt64 UInt64) := do
  let (word, copy) ← onUser fun window user =>
    let (word, copy, user) := window.readWord address user
    ((word, copy), user)
  announce? copy.notice?
  return word

def streamFromUser {sink : Type} (start : UInt64) (length : Nat)
    (offer : List UInt8 → sink → Nat × sink) (consumer : sink) : Kernel bits (Nat × sink) := do
  let (streamed, consumer) ← onUser fun window user =>
    let (streamed, user, consumer) := window.stream start length offer user consumer
    ((streamed, consumer), user)
  announce? (streamed.short.bind CopyIn.notice?)
  return (streamed.consumed, consumer)

def copyUserText (start : UInt64) (buffer : List UInt8) : Kernel bits TextCopy :=
  onUser fun window user => window.copyText start buffer user

end KernelPaging
