import Std.Data.HashMap
import KernelPaging.Log

/-!
Single-byte accesses to user memory. The hardware reports a fault as a value; addresses at or above
the boundary of user memory, which is a setting fixed at boot, are refused without asking it.

A user address space has a mapping for each byte. Unmapped bytes fault, and so do stores to bytes
mapped read-only.
-/

set_option autoImplicit false

namespace KernelPaging

def bounceBufferSize : Nat := 256

structure Config where
  /-- The first address that is not user memory. -/
  userTop : UInt64 := 0x800000000000
  copyChunk : UInt64 := 256
  level : Level := .debug
deriving DecidableEq

def Config.effectiveChunk (config : Config) : Nat :=
  if config.copyChunk = 0 then 1 else min config.copyChunk.toNat bounceBufferSize

theorem Config.effectiveChunk_pos (config : Config) : 0 < config.effectiveChunk := by
  unfold Config.effectiveChunk bounceBufferSize
  split
  · decide
  · next nonzero =>
      have : config.copyChunk.toNat ≠ 0 := fun zero => nonzero (UInt64.toNat_inj.mp zero)
      omega

theorem Config.effectiveChunk_le (config : Config) : config.effectiveChunk ≤ bounceBufferSize := by
  unfold Config.effectiveChunk bounceBufferSize
  split <;> omega

/-- Memory whose accesses survive faults. Any access may change it. -/
class FaultingAccess (memory : Type) where
  load : UInt64 → memory → Option UInt8 × memory
  store : UInt64 → UInt8 → memory → Bool × memory

/-- How the kernel looks at user memory: the first address that is not part of it, and the number of
bytes streamed at a time. -/
structure UserWindow where
  top : UInt64
  chunk : Nat
  chunk_pos : 0 < chunk
  chunk_le : chunk ≤ bounceBufferSize

def Config.window (config : Config) : UserWindow where
  top := config.userTop
  chunk := config.effectiveChunk
  chunk_pos := config.effectiveChunk_pos
  chunk_le := config.effectiveChunk_le

def addressAt? (start : UInt64) (offset : Nat) : Option UInt64 :=
  if start.toNat + offset < 0x10000000000000000 then
    some (UInt64.ofNat (start.toNat + offset))
  else
    none

theorem addressAt?_eq_some {start address : UInt64} {offset : Nat}
    (found : addressAt? start offset = some address) : address.toNat = start.toNat + offset := by
  unfold addressAt? at found
  split at found
  · next fits =>
      cases found
      simpa using Nat.mod_eq_of_lt fits
  · cases found

theorem addressAt?_eq_none {start : UInt64} {offset : Nat}
    (missing : addressAt? start offset = none) :
    0x10000000000000000 ≤ start.toNat + offset := by
  unfold addressAt? at missing
  split at missing
  · cases missing
  · omega

/-- Reported for a byte that would lie behind the last address. -/
def lastAddress : UInt64 := 0xffffffffffffffff

variable {memory : Type} [FaultingAccess memory]

def UserWindow.probe (window : UserWindow) (address : UInt64) (user : memory) :
    Except UInt64 UInt8 × memory :=
  if window.top ≤ address then
    (.error address, user)
  else
    match FaultingAccess.load address user with
    | (some byte, user) => (.ok byte, user)
    | (none, user) => (.error address, user)

def UserWindow.poke (window : UserWindow) (address : UInt64) (byte : UInt8) (user : memory) :
    Except UInt64 Unit × memory :=
  if window.top ≤ address then
    (.error address, user)
  else
    match FaultingAccess.store address byte user with
    | (true, user) => (.ok (), user)
    | (false, user) => (.error address, user)

def UserWindow.probeAt (window : UserWindow) (start : UInt64) (offset : Nat) (user : memory) :
    Except UInt64 UInt8 × memory :=
  match addressAt? start offset with
  | some address => window.probe address user
  | none => (.error lastAddress, user)

def UserWindow.pokeAt (window : UserWindow) (start : UInt64) (offset : Nat) (byte : UInt8)
    (user : memory) : Except UInt64 Unit × memory :=
  match addressAt? start offset with
  | some address => window.poke address byte user
  | none => (.error lastAddress, user)

structure UserByte where
  value : UInt8
  writable : Bool

structure UserSpace where
  bytes : Std.HashMap UInt64 UserByte := ∅
  accesses : Nat := 0

/-- Maps bytes from an address on. Behind the last address the mapping goes on at the first. -/
def UserSpace.map (space : UserSpace) (start : UInt64) (writable : Bool) : List UInt8 → UserSpace
  | [] => space
  | value :: rest =>
      { space with bytes := space.bytes.insert start { value, writable } }.map (start + 1) writable
        rest

def UserSpace.unmap (space : UserSpace) (start : UInt64) : (length : Nat) → UserSpace
  | 0 => space
  | length + 1 => { space with bytes := space.bytes.erase start }.unmap (start + 1) length

def UserSpace.read (space : UserSpace) (start : UInt64) : (length : Nat) → List (Option UInt8)
  | 0 => []
  | length + 1 => (space.bytes[start]?.map UserByte.value) :: space.read (start + 1) length

def UserSpace.load (space : UserSpace) (address : UInt64) : Option UInt8 × UserSpace :=
  (space.bytes[address]?.map UserByte.value, { space with accesses := space.accesses + 1 })

def UserSpace.store (space : UserSpace) (address : UInt64) (value : UInt8) : Bool × UserSpace :=
  let accesses := space.accesses + 1
  match space.bytes[address]? with
  | some old =>
      if old.writable then
        (true, { bytes := space.bytes.insert address { old with value }, accesses })
      else
        (false, { space with accesses })
  | none => (false, { space with accesses })

instance : FaultingAccess UserSpace where
  load address space := space.load address
  store address value space := space.store address value

end KernelPaging
