import Std.Data.HashMap
import KernelPaging.Page.Region

/-!
Where fresh pages come from: one region, or a kernel and a user pool beside each other. A request
goes to the pool its flags ask for and never falls back to the other one; a page goes back to the
pool whose region holds it. Beside the pages are the bytes behind them. A page nobody has written to
holds one byte throughout.
-/

set_option autoImplicit false

namespace KernelPaging

/-- A set of flags. Bits other than the two named ones are carried along and mean nothing. -/
structure PageFlags where
  bits : UInt32
deriving DecidableEq

def PageFlags.zero (flags : PageFlags) : Bool :=
  flags.bits &&& 1 != 0

def PageFlags.user (flags : PageFlags) : Bool :=
  flags.bits &&& 2 != 0

def PageFlags.withUser (flags : PageFlags) : PageFlags :=
  ⟨flags.bits ||| 2⟩

structure PagePools where
  kernel : PageRegion
  user : PageRegion

inductive PoolName
  | kernel
  | user
deriving DecidableEq

def PagePools.region (pools : PagePools) : PoolName → PageRegion
  | .kernel => pools.kernel
  | .user => pools.user

def PagePools.setRegion (pools : PagePools) (pool : PoolName) (region : PageRegion) : PagePools :=
  match pool with
  | .kernel => { pools with kernel := region }
  | .user => { pools with user := region }

def PageFlags.pool (flags : PageFlags) : PoolName :=
  if flags.user then .user else .kernel

def PagePools.obtain (pools : PagePools) (flags : PageFlags) :
    Except Halt (Option (Address × PagePools)) :=
  match (pools.region flags.pool).obtain with
  | .error halt => .error halt
  | .ok none => .ok none
  | .ok (some (page, region)) => .ok (some (page, pools.setRegion flags.pool region))

/-- The pool whose region holds the page; the user pool is asked first. -/
def PagePools.poolOf? (pools : PagePools) (page : Address) : Except Halt (Option PoolName) :=
  match pools.user.contains page with
  | .error halt => .error halt
  | .ok true => .ok (some .user)
  | .ok false =>
      match pools.kernel.contains page with
      | .error halt => .error halt
      | .ok true => .ok (some .kernel)
      | .ok false => .ok none

def PagePools.release (pools : PagePools) (page : Address) :
    Except Halt (ReleaseOutcome × PagePools) :=
  match pools.poolOf? page with
  | .error halt => .error halt
  | .ok none => .ok (.unclaimed, pools)
  | .ok (some pool) =>
      let (outcome, region) := (pools.region pool).release page
      .ok (outcome, pools.setRegion pool region)

inductive PageSupply
  | single (region : PageRegion)
  | split (pools : PagePools)

def PageSupply.obtain (supply : PageSupply) (flags : PageFlags) :
    Except Halt (Option (Address × PageSupply)) :=
  match supply with
  | .single region =>
      match region.obtain with
      | .error halt => .error halt
      | .ok none => .ok none
      | .ok (some (page, region)) => .ok (some (page, .single region))
  | .split pools =>
      match pools.obtain flags with
      | .error halt => .error halt
      | .ok none => .ok none
      | .ok (some (page, pools)) => .ok (some (page, .split pools))

def PageSupply.release (supply : PageSupply) (page : Address) :
    Except Halt (ReleaseOutcome × PageSupply) :=
  match supply with
  | .single region =>
      let (outcome, region) := region.release page
      .ok (outcome, .single region)
  | .split pools =>
      match pools.release page with
      | .error halt => .error halt
      | .ok (outcome, pools) => .ok (outcome, .split pools)

/-- The region that serves a pool; a single region serves both. -/
def PageSupply.serving (supply : PageSupply) (pool : PoolName) : PageRegion :=
  match supply with
  | .single region => region
  | .split pools => pools.region pool

def PageSupply.setServing (supply : PageSupply) (pool : PoolName) (region : PageRegion) :
    PageSupply :=
  match supply with
  | .single _ => .single region
  | .split pools => .split (pools.setRegion pool region)

def PageSupply.freeCounts : PageSupply → List Nat
  | .single region => [region.bitmap.free]
  | .split pools => [pools.kernel.bitmap.free, pools.user.bitmap.free]

abbrev PageBytes := Vector UInt8 pageSize

structure PageMemory where
  written : Std.HashMap Nat PageBytes := ∅
  untouched : UInt8 := 0xcc

def PageMemory.page (memory : PageMemory) (page : Address) : PageBytes :=
  memory.written.getD page.value (Vector.replicate pageSize memory.untouched)

def PageMemory.setPage (memory : PageMemory) (page : Address) (bytes : PageBytes) : PageMemory :=
  { memory with written := memory.written.insert page.value bytes }

def PageMemory.zeroPage (memory : PageMemory) (page : Address) : PageMemory :=
  memory.setPage page (Vector.replicate pageSize 0)

/-- Writes one byte over `length` places of a page from `start` on, as far as the page reaches. -/
def PageMemory.fill (memory : PageMemory) (page : Address) (byte : UInt8) (start length : Nat) :
    PageMemory :=
  let old := memory.page page
  memory.setPage page (Vector.ofFn fun place =>
    if start ≤ place.val ∧ place.val < start + length then byte else old[place])

def byteRuns : List UInt8 → List (UInt8 × Nat)
  | [] => []
  | byte :: rest =>
      match byteRuns rest with
      | (next, count) :: runs =>
          if byte = next then (byte, count + 1) :: runs else (byte, 1) :: (next, count) :: runs
      | [] => [(byte, 1)]

def PageMemory.runs (memory : PageMemory) (page : Address) : List (UInt8 × Nat) :=
  byteRuns (memory.page page).toList

end KernelPaging
