import Std.Data.HashMap
import KernelPaging.Halt

/-!
The record of which user pages were touched, kept by the hardware: as a set of pages, in four-level
page tables, or in either of the two.

A walk of the tables for a user address starts at the root table of its owner and follows one entry
per level; it ends without a leaf at the first entry that is not present, and with one at a huge page
or at the last level. Clearing changes the accessed bit of the leaf and nothing else.
-/

set_option autoImplicit false

namespace KernelPaging

/-- An answer may change the record, and asking may stop the kernel, so both questions pass a state
along. -/
class AccessedBits (bits : Type) where
  /-- Whether the page was touched since its mark was last cleared. -/
  isAccessed : ThreadId → Address → bits → Except Halt (Bool × bits)
  clearAccessed : ThreadId → Address → bits → Except Halt bits

structure TouchedSet where
  pages : List (ThreadId × Address) := []

def TouchedSet.touch (touched : TouchedSet) (owner : ThreadId) (uaddr : Address) : TouchedSet :=
  if (owner, uaddr) ∈ touched.pages then touched else ⟨(owner, uaddr) :: touched.pages⟩

def TouchedSet.contains (touched : TouchedSet) (owner : ThreadId) (uaddr : Address) : Bool :=
  decide ((owner, uaddr) ∈ touched.pages)

def TouchedSet.clear (touched : TouchedSet) (owner : ThreadId) (uaddr : Address) : TouchedSet :=
  ⟨touched.pages.filter fun page => decide (page ≠ (owner, uaddr))⟩

def TouchedSet.ascending (touched : TouchedSet) : List (ThreadId × Address) :=
  touched.pages.mergeSort fun left right =>
    if left.1 = right.1 then
      decide (left.2.value ≤ right.2.value)
    else
      decide (left.1.raw ≤ right.1.raw)

instance : AccessedBits TouchedSet where
  isAccessed owner uaddr touched := .ok (touched.contains owner uaddr, touched)
  clearAccessed owner uaddr touched := .ok (touched.clear owner uaddr)

abbrev TableWord := BitVec 64

def TableWord.present (word : TableWord) : Bool :=
  word.getLsbD 0

def TableWord.accessed (word : TableWord) : Bool :=
  word.getLsbD 5

def TableWord.huge (word : TableWord) : Bool :=
  word.getLsbD 7

/-- The physical address of the next table or of the page, in bits 12 to 51. -/
def TableWord.target (word : TableWord) : Nat :=
  (word &&& 0x000ffffffffff000#64).toNat

def TableWord.clearAccessed (word : TableWord) : TableWord :=
  word &&& ~~~BitVec.twoPow 64 5

structure PageTables where
  /-- The physical address of each thread's root table. -/
  roots : List (ThreadId × UInt64)
  linearBase : Address
  /-- The words of physical memory that are not zero, by their physical addresses. -/
  words : Std.HashMap Nat TableWord := ∅

def PageTables.word (tables : PageTables) (place : Nat) : TableWord :=
  tables.words.getD place 0

def PageTables.setWord (tables : PageTables) (place : Nat) (word : TableWord) : PageTables :=
  { tables with words := tables.words.insert place word }

def entryPlace (table index : Nat) : Nat :=
  table + 8 * index

def physicalAddress (word : UInt64) : Except Halt Nat :=
  if word.toNat < 0x10000000000000 then .ok word.toNat else .error .physicalOutOfRange

def PageTables.root (tables : PageTables) (owner : ThreadId) : Except Halt (Option Nat) :=
  match tables.roots.lookup owner with
  | none => .ok none
  | some word =>
      match physicalAddress word with
      | .error halt => .error halt
      | .ok table => .ok (some table)

/-- The place of the leaf entry below a table of the given level. Each table is reached through the
linear map, so its address there has to exist. -/
def PageTables.leafBelow (tables : PageTables) (uaddr : Address) :
    (level : Nat) → (table : Nat) → Except Halt (Option Nat)
  | level, table =>
      match tables.linearBase.offset table with
      | .error halt => .error halt
      | .ok _ =>
          let place := entryPlace table (uaddr.tableIndex level)
          let word := tables.word place
          if word.present then
            match level with
            | 0 => .ok (some place)
            | below + 1 =>
                if word.huge then .ok (some place) else tables.leafBelow uaddr below word.target
          else
            .ok none

def PageTables.leaf (tables : PageTables) (owner : ThreadId) (uaddr : Address) :
    Except Halt (Option Nat) :=
  match tables.root owner with
  | .error halt => .error halt
  | .ok none => .ok none
  | .ok (some table) => tables.leafBelow uaddr 3 table

def PageTables.isAccessed (tables : PageTables) (owner : ThreadId) (uaddr : Address) :
    Except Halt Bool :=
  match tables.leaf owner uaddr with
  | .error halt => .error halt
  | .ok none => .ok false
  | .ok (some place) => .ok (tables.word place).accessed

def PageTables.clearAccessed (tables : PageTables) (owner : ThreadId) (uaddr : Address) :
    Except Halt PageTables :=
  match tables.leaf owner uaddr with
  | .error halt => .error halt
  | .ok none => .ok tables
  | .ok (some place) => .ok (tables.setWord place (tables.word place).clearAccessed)

instance : AccessedBits PageTables where
  isAccessed owner uaddr tables :=
    match tables.isAccessed owner uaddr with
    | .error halt => .error halt
    | .ok accessed => .ok (accessed, tables)
  clearAccessed owner uaddr tables := tables.clearAccessed owner uaddr

/-- Where there are page tables they alone answer, and the set of touched pages beside them stays as
it is; without page tables the set answers. -/
structure AccessedStore where
  touched : TouchedSet := {}
  tables : Option PageTables := none

instance : AccessedBits AccessedStore where
  isAccessed owner uaddr store :=
    match store.tables with
    | none => .ok (store.touched.contains owner uaddr, store)
    | some tables =>
        match tables.isAccessed owner uaddr with
        | .error halt => .error halt
        | .ok accessed => .ok (accessed, store)
  clearAccessed owner uaddr store :=
    match store.tables with
    | none => .ok { store with touched := store.touched.clear owner uaddr }
    | some tables =>
        match tables.clearAccessed owner uaddr with
        | .error halt => .error halt
        | .ok tables => .ok { store with tables := some tables }

end KernelPaging
