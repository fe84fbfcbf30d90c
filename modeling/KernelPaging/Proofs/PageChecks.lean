import KernelPaging.Proofs.Supplies

/-!
What could stop a machine on which a region is kept: words of the bitmap read or written behind its
end, remainders by zero, and sums, products and differences that do not fit. The operations are done
here once more with a check before each such step.
-/

set_option autoImplicit false

namespace KernelPaging

inductive MachineFault
  | indexOutOfBounds
  | remainderByZero
  | overflow
  | underflow
  | halted (halt : Halt)
deriving DecidableEq

def wordLimit : Nat := 0x10000000000000000

def ensure (condition : Prop) [Decidable condition] (fault : MachineFault) :
    Except MachineFault Unit :=
  if condition then .ok () else .error fault

def Bitmap.isFreeChecked (bitmap : Bitmap) (page : Nat) : Except MachineFault Bool := do
  ensure (page / wordBits < bitmap.words.size) .indexOutOfBounds
  return bitmap.isFree page

def Bitmap.markTakenChecked (bitmap : Bitmap) (page : Nat) : Except MachineFault Bitmap := do
  ensure (page / wordBits < bitmap.words.size) .indexOutOfBounds
  return bitmap.markTaken page

def Bitmap.markFreeChecked (bitmap : Bitmap) (page : Nat) : Except MachineFault Bitmap := do
  ensure (page / wordBits < bitmap.words.size) .indexOutOfBounds
  return bitmap.markFree page

def Bitmap.findFreeChecked (bitmap : Bitmap) (start : Nat) :
    Nat → Except MachineFault (Option Nat)
  | 0 => return none
  | remaining + 1 => do
      ensure (start < wordLimit) .overflow
      ensure (bitmap.total ≠ 0) .remainderByZero
      let free ← bitmap.isFreeChecked (start % bitmap.total)
      if free then
        return some (start % bitmap.total)
      else
        bitmap.findFreeChecked (start + 1) remaining

def Bitmap.takeChecked (bitmap : Bitmap) : Except MachineFault (Option (Nat × Bitmap)) := do
  if bitmap.free = 0 then
    return none
  else
    match ← bitmap.findFreeChecked bitmap.cursor bitmap.total with
    | none => return none
    | some page =>
        let marked ← bitmap.markTakenChecked page
        ensure (marked.free ≠ 0) .underflow
        ensure (page + 1 < wordLimit) .overflow
        ensure (marked.total ≠ 0) .remainderByZero
        return some (page,
          { marked with
            free := marked.free - 1
            cursor := (page + 1) % marked.total })

def Bitmap.giveChecked (bitmap : Bitmap) (page : Nat) : Except MachineFault Bitmap := do
  let marked ← bitmap.markFreeChecked page
  ensure (marked.free + 1 < wordLimit) .overflow
  return { marked with free := marked.free + 1 }

def PageRegion.obtainChecked (region : PageRegion) :
    Except MachineFault (Option (Address × PageRegion)) := do
  match ← region.bitmap.takeChecked with
  | none => return none
  | some (index, bitmap) =>
      ensure (index * pageSize < wordLimit) .overflow
      match region.base.offset (index * pageSize) with
      | .error halt => throw (.halted halt)
      | .ok page => return some (page, { region with bitmap })

def PageRegion.releaseChecked (region : PageRegion) (page : Address) :
    Except MachineFault (ReleaseOutcome × PageRegion) := do
  match region.indexOf? page with
  | none => return (.foreign, region)
  | some index =>
      ensure (region.base.value ≤ page.value) .underflow
      if region.bitmap.total ≤ index then
        return (.outside, region)
      else
        let free ← region.bitmap.isFreeChecked index
        if free then
          return (.alreadyFree, region)
        else
          let bitmap ← region.bitmap.giveChecked index
          return (.accepted, { region with bitmap })

@[simp]
theorem ensure_of {condition : Prop} [Decidable condition] (holds : condition)
    (fault : MachineFault) : ensure condition fault = .ok () :=
  if_pos holds

theorem Bitmap.Covers.word {bitmap : Bitmap} (covers : bitmap.Covers) {page : Nat}
    (within : page < bitmap.total) : page / wordBits < bitmap.words.size := by
  unfold Bitmap.Covers at covers
  exact Nat.div_lt_of_lt_mul (Nat.lt_of_lt_of_le within (Nat.mul_comm _ _ ▸ covers))

theorem Bitmap.isFreeChecked_ok {bitmap : Bitmap} (covers : bitmap.Covers) {page : Nat}
    (within : page < bitmap.total) : bitmap.isFreeChecked page = .ok (bitmap.isFree page) := by
  rw [Bitmap.isFreeChecked, ensure_of (covers.word within)]
  rfl

theorem Bitmap.findFreeChecked_ok {bitmap : Bitmap} (covers : bitmap.Covers)
    (positive : bitmap.total ≠ 0) (remaining : Nat) (start : Nat)
    (fits : start + remaining ≤ wordLimit) :
    bitmap.findFreeChecked start remaining = .ok (bitmap.findFree start remaining) := by
  induction remaining generalizing start with
  | zero => rfl
  | succ remaining ih =>
      have within : start % bitmap.total < bitmap.total :=
        Nat.mod_lt start (Nat.pos_of_ne_zero positive)
      rw [Bitmap.findFreeChecked, Bitmap.findFree, ensure_of (by omega), ensure_of positive,
        Bitmap.isFreeChecked_ok covers within]
      simp only [bind, Except.bind, pure, Except.pure]
      split
      · rfl
      · exact ih (start + 1) (by omega)

/-- What a bitmap needs so that no check fails: a word for each page, counters inside the region, and
a region that is not too large for a machine word. -/
structure Bitmap.InBounds (bitmap : Bitmap) : Prop where
  covers : bitmap.Covers
  fits : bitmap.total * pageSize ≤ wordLimit
  cursor : bitmap.total ≠ 0 → bitmap.cursor < bitmap.total
  free : bitmap.free ≤ bitmap.total

theorem Bitmap.takeChecked_ok {bitmap : Bitmap} (bounds : bitmap.InBounds) :
    bitmap.takeChecked = .ok bitmap.take := by
  have fits := bounds.fits
  unfold pageSize wordLimit at fits
  unfold Bitmap.takeChecked Bitmap.take
  by_cases full : bitmap.free = 0
  · rw [if_pos full, if_pos full]
    rfl
  · have positive : bitmap.total ≠ 0 := by
      have atMost := bounds.free
      omega
    have cursor := bounds.cursor positive
    rw [if_neg full, if_neg full, Bitmap.findFreeChecked_ok bounds.covers positive _ _
      (by unfold wordLimit; omega)]
    cases found : bitmap.findFree bitmap.cursor bitmap.total with
    | none => rfl
    | some page =>
        have within := (Bitmap.findFree_sound (Nat.pos_of_ne_zero positive) _ _ _ found).1
        simp only [bind, Except.bind, Bitmap.markTakenChecked,
          ensure_of (bounds.covers.word within), pure, Except.pure]
        have some_free : (bitmap.markTaken page).free ≠ 0 := full
        have some_page : (bitmap.markTaken page).total ≠ 0 := positive
        rw [ensure_of some_free, ensure_of (by unfold wordLimit; omega), ensure_of some_page]
        rfl

theorem Bitmap.giveChecked_ok {bitmap : Bitmap} (bounds : bitmap.InBounds) {page : Nat}
    (within : page < bitmap.total) : bitmap.giveChecked page = .ok (bitmap.give page) := by
  have fits := bounds.fits
  have atMost := bounds.free
  unfold pageSize wordLimit at fits
  simp only [Bitmap.giveChecked, bind, Except.bind, Bitmap.markFreeChecked,
    ensure_of (bounds.covers.word within), pure, Except.pure]
  rw [ensure_of (by simp only [Bitmap.markFree, wordLimit]; omega)]
  rfl

theorem PageRegion.obtainChecked_ok {region : PageRegion} (bounds : region.bitmap.InBounds)
    {result : Option (Address × PageRegion)} (obtained : region.obtain = .ok result) :
    region.obtainChecked = .ok result := by
  unfold PageRegion.obtain at obtained
  unfold PageRegion.obtainChecked
  rw [Bitmap.takeChecked_ok bounds]
  cases taken : region.bitmap.take with
  | none =>
      rw [taken] at obtained
      cases obtained
      rfl
  | some found =>
      obtain ⟨index, bitmap⟩ := found
      have within := (Bitmap.take_spec bounds.covers taken).1
      have fits := bounds.fits
      unfold pageSize wordLimit at fits
      rw [taken] at obtained
      simp only [bind, Except.bind]
      rw [ensure_of (by unfold pageSize wordLimit; omega)]
      cases reached : region.base.offset (index * pageSize) with
      | error halt =>
          simp only [reached] at obtained
          cases obtained
      | ok page =>
          simp only [reached] at obtained ⊢
          cases obtained
          rfl

theorem PageRegion.releaseChecked_ok {region : PageRegion} (bounds : region.bitmap.InBounds)
    (page : Address) : region.releaseChecked page = .ok (region.release page) := by
  unfold PageRegion.releaseChecked PageRegion.release
  cases found : region.indexOf? page with
  | none => rfl
  | some index =>
      have value := PageRegion.indexOf?_eq_some.mp found
      rw [ensure_of (by omega)]
      simp only [bind, Except.bind]
      split
      · rfl
      · next inside =>
          have within : index < region.bitmap.total := by omega
          rw [Bitmap.isFreeChecked_ok bounds.covers within]
          simp only
          split
          · rfl
          · rw [Bitmap.giveChecked_ok bounds within]
            rfl

end KernelPaging
