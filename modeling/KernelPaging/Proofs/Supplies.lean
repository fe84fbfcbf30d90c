import KernelPaging.Page.Supply
import KernelPaging.Proofs.Bitmaps

/-!
Regions and supplies as sets of taken pages. A region all of whose pages have addresses hands out
pages that are free, and accepts every page it has handed out. Requests for a user frame are served
by the user pool alone, and their pages go back there.
-/

set_option autoImplicit false

namespace KernelPaging

def PageRegion.Taken (region : PageRegion) (page : Address) : Prop :=
  ∃ index, region.indexOf? page = some index ∧ index < region.bitmap.total ∧
    region.bitmap.isFree index = false

/-- Every page of the region has an address, the end of the region fits a word, and so does the
bitmap. -/
structure PageRegion.Legal (region : PageRegion) : Prop where
  canonical : ∀ index, index < region.bitmap.total →
    ∃ address : Address, address.value = region.base.value + index * pageSize
  fits : region.base.value + region.bitmap.total * pageSize < 0x10000000000000000
  covers : region.bitmap.Covers

structure PageRegion.Untouched (region : PageRegion) : Prop extends region.Legal where
  allFree : ∀ index, region.bitmap.isFree index = true
  free : region.bitmap.free = region.bitmap.total

theorem PageRegion.create_untouched {base : Address} {pages : Nat} {region : PageRegion}
    (created : PageRegion.create base pages = .ok region)
    (canonical : ∀ index, index < pages →
      ∃ address : Address, address.value = base.value + index * pageSize)
    (fits : base.value + pages * pageSize < 0x10000000000000000) : region.Untouched := by
  unfold PageRegion.create at created
  split at created
  · cases created
    exact
      { canonical := canonical
        fits := fits
        covers := Bitmap.allFree_covers pages
        allFree := Bitmap.allFree_isFree pages
        free := rfl }
  · cases created

theorem Address.offset_of_canonical {address target : Address} {distance : Nat}
    (reached : target.value = address.value + distance) :
    address.offset distance = .ok target := by
  obtain ⟨value, canonical⟩ := target
  have sum : address.value + distance = value := reached.symm
  have within : value < 0x10000000000000000 := Address.value_lt ⟨value, canonical⟩
  have word : (UInt64.ofNat value).toNat = value := UInt64.toNat_ofNat_of_lt' within
  unfold Address.offset Address.ofWord Address.ofWord?
  rw [sum, if_pos within]
  by_cases low : value < 0x800000000000
  · simp only [word, dif_pos low]
  · have high : 0xffff800000000000 ≤ value := (canonical.resolve_left low).1
    have notSign : ¬ value < 0x1000000000000 := by omega
    simp only [word, dif_neg low, dif_neg notSign, dif_pos high]

theorem PageRegion.indexOf?_eq_some {region : PageRegion} {page : Address} {index : Nat} :
    region.indexOf? page = some index ↔ page.value = region.base.value + index * pageSize := by
  have base := region.aligned
  unfold PageRegion.indexOf?
  unfold Address.PageAligned pageSize at *
  constructor
  · intro found
    split at found
    · cases found
    · next inside =>
      have same := Option.some.inj found
      omega
  · intro value
    rw [if_neg (by omega)]
    apply congrArg some
    omega

theorem PageRegion.taken_iff {region : PageRegion} {page : Address} :
    region.Taken page ↔
      ∃ index, page.value = region.base.value + index * pageSize ∧ index < region.bitmap.total ∧
        region.bitmap.isFree index = false := by
  unfold PageRegion.Taken
  simp only [PageRegion.indexOf?_eq_some]

theorem PageRegion.taken_withBitmap {region : PageRegion} {bitmap : Bitmap} {page : Address} :
    ({ region with bitmap } : PageRegion).Taken page ↔
      ∃ index, page.value = region.base.value + index * pageSize ∧ index < bitmap.total ∧
        bitmap.isFree index = false :=
  PageRegion.taken_iff

theorem PageRegion.Untouched.not_taken {region : PageRegion} (untouched : region.Untouched)
    (page : Address) : ¬ region.Taken page := by
  rw [PageRegion.taken_iff]
  intro taken
  obtain ⟨index, _, _, isTaken⟩ := taken
  rw [untouched.allFree] at isTaken
  cases isTaken

theorem Address.eq_of_value {left right : Address} (same : left.value = right.value) :
    left = right := by
  cases left
  cases right
  cases same
  rfl

private theorem index_eq {base left right : Nat}
    (same : base + left * pageSize = base + right * pageSize) : left = right := by
  unfold pageSize at same
  omega

/-- What a region that hands out or takes back pages keeps. -/
structure PageRegion.Same (region after : PageRegion) : Prop where
  base : after.base = region.base
  total : after.bitmap.total = region.bitmap.total
  legal : after.Legal

/-- A legal region never stops, and hands out a free page of its own. -/
theorem PageRegion.obtain_spec {region : PageRegion} (legal : region.Legal) :
    region.obtain = .ok none ∨
      ∃ page after, region.obtain = .ok (some (page, after)) ∧ region.Same after ∧
        after.bitmap.free + 1 = region.bitmap.free ∧ ¬ region.Taken page ∧
        ∀ other, after.Taken other ↔ other = page ∨ region.Taken other := by
  unfold PageRegion.obtain
  cases taken : region.bitmap.take with
  | none => exact .inl rfl
  | some result =>
      obtain ⟨index, bitmap⟩ := result
      obtain ⟨within, wasFree, total, covers, free, marked⟩ := Bitmap.take_spec legal.covers taken
      obtain ⟨page, place⟩ := legal.canonical index within
      have reached := Address.offset_of_canonical place
      right
      refine ⟨page, { region with bitmap }, ?_, ?_, free, ?_, ?_⟩
      · simp only [reached]
      · constructor
        · rfl
        · exact total
        · constructor
          · intro other inside
            exact legal.canonical other (total ▸ inside)
          · change region.base.value + bitmap.total * pageSize < _
            rw [total]
            exact legal.fits
          · exact covers
      · rw [PageRegion.taken_iff]
        intro already
        obtain ⟨other, value, _, isTaken⟩ := already
        have same := index_eq (place.symm.trans value)
        rw [← same, wasFree] at isTaken
        cases isTaken
      · intro other
        rw [PageRegion.taken_withBitmap, PageRegion.taken_iff, total]
        constructor
        · intro takenAfter
          obtain ⟨position, value, inside, isTaken⟩ := takenAfter
          rw [marked] at isTaken
          by_cases same : position = index
          · left
            apply Address.eq_of_value
            rw [value, place, same]
          · right
            exact ⟨position, value, inside, by simpa [same] using isTaken⟩
        · intro either
          cases either with
          | inl same =>
              subst same
              exact ⟨index, place, within, by rw [marked]; simp⟩
          | inr before =>
              obtain ⟨position, value, inside, isTaken⟩ := before
              exact ⟨position, value, inside, by rw [marked, isTaken, Bool.and_false]⟩

theorem PageRegion.release_spec {region : PageRegion} (legal : region.Legal) {page : Address}
    (taken : region.Taken page) :
    ∃ after, region.release page = (.accepted, after) ∧ region.Same after ∧
      after.bitmap.free = region.bitmap.free + 1 ∧
      ∀ other, after.Taken other ↔ other ≠ page ∧ region.Taken other := by
  obtain ⟨index, found, within, isTaken⟩ := taken
  have place := PageRegion.indexOf?_eq_some.mp found
  refine ⟨{ region with bitmap := region.bitmap.give index }, ?_, ?_, rfl, ?_⟩
  · unfold PageRegion.release
    simp only [found, if_neg (Nat.not_le_of_lt within), isTaken, Bool.false_eq_true, if_false]
  · exact ⟨rfl, rfl, legal.canonical, legal.fits, Bitmap.give_covers legal.covers index⟩
  · intro other
    rw [PageRegion.taken_withBitmap, PageRegion.taken_iff]
    constructor
    · intro takenAfter
      obtain ⟨position, value, inside, stillTaken⟩ := takenAfter
      rw [Bitmap.isFree_give] at stillTaken
      have kept := Bool.or_eq_false_iff.mp stillTaken
      have different : position ≠ index := by simpa using kept.1
      refine ⟨?_, position, value, inside, kept.2⟩
      intro same
      subst same
      exact different (index_eq (value.symm.trans place))
    · intro both
      obtain ⟨different, position, value, inside, isTakenThere⟩ := both
      refine ⟨position, value, inside, ?_⟩
      have elsewhere : position ≠ index := by
        intro same
        subst same
        exact different (Address.eq_of_value (value.trans place.symm))
      rw [Bitmap.isFree_give, isTakenThere, Bool.or_false]
      exact decide_eq_false elsewhere

theorem PageRegion.contains_taken {region : PageRegion} (legal : region.Legal) {page : Address}
    (taken : region.Taken page) : region.contains page = .ok true := by
  obtain ⟨index, value, within, _⟩ := PageRegion.taken_iff.mp taken
  have fits := legal.fits
  have below : index * pageSize < region.bitmap.total * pageSize :=
    Nat.mul_lt_mul_of_pos_right within (by decide)
  unfold PageRegion.contains
  rw [if_pos fits, decide_eq_true (by omega), decide_eq_true (by omega)]
  rfl

theorem PageFlags.withUser_pool (flags : PageFlags) : flags.withUser.pool = .user := by
  have bit : (flags.bits ||| 2) &&& 2 = 2 := by
    apply UInt32.toBitVec_inj.mp
    apply BitVec.eq_of_getLsbD_eq
    intro place _
    simp only [UInt32.toBitVec_and, UInt32.toBitVec_or, BitVec.getLsbD_and, BitVec.getLsbD_or]
    cases (UInt32.toBitVec 2).getLsbD place with
    | false => rw [Bool.and_false]
    | true => rw [Bool.or_true, Bool.and_true]
  unfold PageFlags.pool PageFlags.user PageFlags.withUser
  rw [bit]
  rfl

theorem PageSupply.serving_setServing (supply : PageSupply) (pool : PoolName)
    (region : PageRegion) : (supply.setServing pool region).serving pool = region := by
  cases supply with
  | single old => rfl
  | split pools =>
      cases pool with
      | kernel => rfl
      | user => rfl

theorem PageSupply.obtain_withUser (supply : PageSupply) (flags : PageFlags) :
    supply.obtain flags.withUser =
      match (supply.serving .user).obtain with
      | .error halt => .error halt
      | .ok none => .ok none
      | .ok (some (page, region)) => .ok (some (page, supply.setServing .user region)) := by
  cases supply with
  | single region => rfl
  | split pools =>
      unfold PageSupply.obtain PagePools.obtain PageSupply.serving
      rw [PageFlags.withUser_pool]
      dsimp only
      cases (pools.region .user).obtain with
      | error halt => rfl
      | ok result =>
          cases result with
          | none => rfl
          | some obtained => rfl

theorem PageSupply.release_taken {supply : PageSupply} (legal : (supply.serving .user).Legal)
    {page : Address} (taken : (supply.serving .user).Taken page) :
    supply.release page =
      .ok (((supply.serving .user).release page).1,
        supply.setServing .user ((supply.serving .user).release page).2) := by
  cases supply with
  | single region => rfl
  | split pools =>
      have inside : pools.user.contains page = .ok true := PageRegion.contains_taken legal taken
      unfold PageSupply.release PagePools.release PagePools.poolOf?
      simp only [inside]
      rfl

/-- The kernel pool, where there is one beside the user pool. -/
def PageSupply.kernelPool? : PageSupply → Option PageRegion
  | .single _ => none
  | .split pools => some pools.kernel

theorem PageSupply.kernelPool?_setServing (supply : PageSupply) (region : PageRegion) :
    (supply.setServing .user region).kernelPool? = supply.kernelPool? := by
  cases supply with
  | single old => rfl
  | split pools => rfl

end KernelPaging
