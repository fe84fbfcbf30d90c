import KernelPaging.Proofs.PageLedgers
import KernelPaging.Proofs.Supplies

/-!
Regions in use: created once, and served calls ever since. Such a region hands out a page whenever
it has a free one, and the page was free and is taken then.
-/

set_option autoImplicit false

namespace KernelPaging

/-- A region as its calls have left it. Every page of it has an address. -/
inductive PageRegion.InUse : PageRegion → Prop
  | created {base : Address} {pages : Nat} {region : PageRegion} :
      PageRegion.create base pages = .ok region →
      (∀ index, index < pages →
        ∃ address : Address, address.value = base.value + index * pageSize) → InUse region
  | served {region after : PageRegion} {call : PageCall} {reply : PageReply} :
      InUse region → region.serve call = .ok (reply, after) → InUse after

def PageRegion.HasFree (region : PageRegion) : Prop :=
  ∃ index, index < region.bitmap.total ∧ region.bitmap.isFree index = true

instance (region : PageRegion) : Decidable region.HasFree :=
  inferInstanceAs (Decidable (∃ index, index < region.bitmap.total ∧ _))

deriving instance DecidableEq for Bitmap, PageRegion

section

variable {region : PageRegion} {ledger : PageLedger}

theorem PageRegion.InUse.follows (inUse : region.InUse) : ∃ ledger, region.Follows ledger := by
  induction inUse with
  | @created base pages region created canonical =>
      have aligned : base.PageAligned := by
        unfold PageRegion.create at created
        split at created
        · assumption
        · cases created
      obtain ⟨other, same, follows⟩ := PageRegion.create_follows aligned canonical
      cases created.symm.trans same
      exact ⟨_, follows⟩
  | served _ served ih =>
      obtain ⟨ledger, follows⟩ := ih
      obtain ⟨after, same, _, goesOn⟩ := follows.serve _
      cases served.symm.trans same
      exact ⟨_, goesOn⟩

theorem PageRegion.Follows.hasFree_iff (follows : region.Follows ledger) :
    region.HasFree ↔ ledger.out ≠ Finset.range ledger.total := by
  constructor
  · rintro ⟨index, within, free⟩ all
    rw [follows.marks, decide_eq_true_eq, all, Finset.mem_range, ← follows.total] at free
    exact free within
  · intro some_in
    obtain ⟨within, absent⟩ := PageLedger.next_spec follows.inside follows.within some_in
    refine ⟨ledger.next, ?_, ?_⟩
    · rw [follows.total]
      exact within
    · rw [follows.marks]
      exact decide_eq_true absent

theorem PageRegion.Follows.taken_iff (follows : region.Follows ledger) {page : Address} :
    region.Taken page ↔ ∃ index ∈ ledger.out, ledger.pageAt index = page.value := by
  rw [PageRegion.taken_iff, follows.base, follows.total]
  unfold PageLedger.pageAt
  constructor
  · rintro ⟨index, value, _, isTaken⟩
    rw [follows.marks, decide_eq_false_iff_not, not_not] at isTaken
    exact ⟨index, isTaken, by rw [value, Nat.mul_comm]⟩
  · rintro ⟨index, isOut, value⟩
    refine ⟨index, by rw [← value, Nat.mul_comm], ?_, ?_⟩
    · exact Finset.mem_range.mp (follows.inside isOut)
    · rw [follows.marks]
      simpa using isOut

theorem PageRegion.InUse.obtain_none (inUse : region.InUse) (full : ¬ region.HasFree) :
    region.obtain = .ok none := by
  obtain ⟨ledger, follows⟩ := inUse.follows
  rw [follows.hasFree_iff, not_not, ← follows.full] at full
  rw [PageRegion.obtain, Bitmap.take, if_pos full]

theorem PageRegion.InUse.obtain_some (inUse : region.InUse) (free : region.HasFree) :
    ∃ page after, region.obtain = .ok (some (page, after)) ∧ ¬ region.Taken page ∧
      ∀ other, after.Taken other ↔ other = page ∨ region.Taken other := by
  obtain ⟨ledger, follows⟩ := inUse.follows
  have some_in := follows.hasFree_iff.mp free
  obtain ⟨_, absent⟩ := PageLedger.next_spec follows.inside follows.within some_in
  obtain ⟨page, after, obtained, place, goesOn⟩ := follows.obtained some_in
  refine ⟨page, after, obtained, ?_, ?_⟩
  · rw [follows.taken_iff]
    rintro ⟨index, isOut, value⟩
    have same : ledger.next = index := by
      rw [place] at value
      unfold PageLedger.pageAt pageSize at value
      omega
    rw [same] at absent
    exact absent isOut
  · intro other
    have named : other = page ↔ ledger.pageAt ledger.next = other.value := by
      rw [← place]
      exact ⟨fun same => same ▸ rfl, fun same => Address.eq_of_value same.symm⟩
    rw [goesOn.taken_iff, follows.taken_iff, named]
    exact Finset.exists_mem_insert ledger.next ledger.out fun index =>
      ledger.pageAt index = other.value

end

end KernelPaging
