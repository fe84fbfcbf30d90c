import KernelPaging.Halt

/-!
A contiguous region of pages, mapped in the kernel's half, and the pages of it that are taken. A
bitmap has one bit a page, set while the page is taken. The search for a free page begins at the
cursor, just behind the page taken last, and goes once around.
-/

set_option autoImplicit false

namespace KernelPaging

def wordBits : Nat := 64

structure Bitmap where
  words : Array (BitVec 64)
  total : Nat
  free : Nat
  cursor : Nat

def Bitmap.allFree (total : Nat) : Bitmap where
  words := Array.replicate ((total + (wordBits - 1)) / wordBits) 0
  total := total
  free := total
  cursor := 0

def Bitmap.isFree (bitmap : Bitmap) (page : Nat) : Bool :=
  !(bitmap.words.getD (page / wordBits) 0).getLsbD (page % wordBits)

def Bitmap.markTaken (bitmap : Bitmap) (page : Nat) : Bitmap :=
  { bitmap with
    words := bitmap.words.modify (page / wordBits) fun word =>
      word ||| BitVec.twoPow 64 (page % wordBits) }

def Bitmap.markFree (bitmap : Bitmap) (page : Nat) : Bitmap :=
  { bitmap with
    words := bitmap.words.modify (page / wordBits) fun word =>
      word &&& ~~~BitVec.twoPow 64 (page % wordBits) }

/-- The first free page among the next `remaining` ones from `start` on, taken around the end. -/
def Bitmap.findFree (bitmap : Bitmap) (start : Nat) : Nat → Option Nat
  | 0 => none
  | remaining + 1 =>
      if bitmap.isFree (start % bitmap.total) then
        some (start % bitmap.total)
      else
        bitmap.findFree (start + 1) remaining

def Bitmap.take (bitmap : Bitmap) : Option (Nat × Bitmap) :=
  if bitmap.free = 0 then
    none
  else
    match bitmap.findFree bitmap.cursor bitmap.total with
    | none => none
    | some page =>
        some (page,
          { bitmap.markTaken page with
            free := bitmap.free - 1
            cursor := (page + 1) % bitmap.total })

def Bitmap.give (bitmap : Bitmap) (page : Nat) : Bitmap :=
  { bitmap.markFree page with free := bitmap.free + 1 }

structure PageRegion where
  base : Address
  bitmap : Bitmap
  aligned : base.PageAligned

/-- What became of a page that was given back. Only an accepted one changes anything. -/
inductive ReleaseOutcome
  | accepted
  /-- Below the region, or no page boundary. -/
  | foreign
  | outside
  | alreadyFree
  | unclaimed
deriving DecidableEq

def PageRegion.create (base : Address) (pages : Nat) : Except Halt PageRegion :=
  if aligned : base.PageAligned then
    .ok { base, bitmap := .allFree pages, aligned }
  else
    .error .unalignedRegion

def PageRegion.empty : PageRegion where
  base := default
  bitmap := .allFree 0
  aligned := rfl

/-- Whether the address lies between the ends of the region. The upper end must fit a word. -/
def PageRegion.contains (region : PageRegion) (page : Address) : Except Halt Bool :=
  let finish := region.base.value + region.bitmap.total * pageSize
  if finish < 0x10000000000000000 then
    .ok (decide (region.base.value ≤ page.value) && decide (page.value < finish))
  else
    .error .additionOverflow

/-- The number of a page counted from the base of the region, which may lie behind its end. -/
def PageRegion.indexOf? (region : PageRegion) (page : Address) : Option Nat :=
  if page.value < region.base.value ∨ ¬page.PageAligned then
    none
  else
    some ((page.value - region.base.value) / pageSize)

def PageRegion.obtain (region : PageRegion) : Except Halt (Option (Address × PageRegion)) :=
  match region.bitmap.take with
  | none => .ok none
  | some (index, bitmap) =>
      match region.base.offset (index * pageSize) with
      | .error halt => .error halt
      | .ok page => .ok (some (page, { region with bitmap }))

def PageRegion.release (region : PageRegion) (page : Address) : ReleaseOutcome × PageRegion :=
  match region.indexOf? page with
  | none => (.foreign, region)
  | some index =>
      if region.bitmap.total ≤ index then
        (.outside, region)
      else if region.bitmap.isFree index then
        (.alreadyFree, region)
      else
        (.accepted, { region with bitmap := region.bitmap.give index })

end KernelPaging
