import KernelPaging.Proofs.PoolLedgers
import KernelPaging.Proofs.RegionsInUse

/-!
Two tests of whether a page belongs to a region. One compares it with both ends of the region, the
other counts pages from the base. They agree on every region but one that holds the topmost page of
all: its end does not fit a word, and the first test stops whatever page it is asked about. So a
page goes back to the pools it was taken from, unless such a region is asked on the way.
-/

set_option autoImplicit false

namespace KernelPaging

/-- The number of the page, counted from the base, is that of a page of the region. -/
def PageRegion.Owns (region : PageRegion) (page : Address) : Prop :=
  ∃ index, region.indexOf? page = some index ∧ index < region.bitmap.total

instance (region : PageRegion) (page : Address) : Decidable (region.Owns page) :=
  decidable_of_iff (∃ index < region.bitmap.total, region.indexOf? page = some index)
    (exists_congr fun _ => and_comm)

def topPage : Address := ⟨0xfffffffffffff000, .inr (by decide)⟩

section

variable {region after : PageRegion} {page : Address}

theorem PageRegion.owns_iff (aligned : page.PageAligned) :
    region.Owns page ↔ region.base.value ≤ page.value ∧
      page.value < region.base.value + region.bitmap.total * pageSize := by
  have base := region.aligned
  unfold PageRegion.Owns
  simp only [PageRegion.indexOf?_eq_some]
  unfold Address.PageAligned pageSize at *
  constructor
  · rintro ⟨index, value, within⟩
    omega
  · rintro ⟨above, below⟩
    exact ⟨(page.value - region.base.value) / 4096, by omega, by omega⟩

theorem PageRegion.owns_of_taken (taken : region.Taken page) : region.Owns page := by
  obtain ⟨index, found, within, _⟩ := taken
  exact ⟨index, found, within⟩

theorem PageRegion.InUse.end_le (inUse : region.InUse) :
    region.base.value + region.bitmap.total * pageSize ≤ 0x10000000000000000 := by
  obtain ⟨ledger, follows⟩ := inUse.follows
  have aligned := region.aligned
  have base := region.base.value_lt
  unfold Address.PageAligned pageSize at *
  by_cases empty : region.bitmap.total = 0
  · omega
  · obtain ⟨last, place⟩ := follows.canonical (region.bitmap.total - 1) (by
      rw [← follows.total]
      omega)
    have below := last.value_lt
    rw [← follows.base] at place
    unfold pageSize at place
    omega

/-- The sum for the end fits a word unless the topmost page is one of the region. -/
theorem PageRegion.InUse.owns_topPage_iff (inUse : region.InUse) :
    region.Owns topPage ↔
      ¬ region.base.value + region.bitmap.total * pageSize < 0x10000000000000000 := by
  have most := inUse.end_le
  have base := region.base.value_lt
  have aligned := region.aligned
  rw [PageRegion.owns_iff (by decide)]
  unfold topPage
  unfold Address.PageAligned pageSize at *
  dsimp only
  omega

theorem PageRegion.InUse.contains_eq (inUse : region.InUse) (aligned : page.PageAligned) :
    region.contains page =
      if region.Owns topPage then .error .additionOverflow
      else .ok (decide (region.Owns page)) := by
  unfold PageRegion.contains
  by_cases fits : region.base.value + region.bitmap.total * pageSize < 0x10000000000000000
  · rw [if_pos fits, if_neg (fun top => inUse.owns_topPage_iff.mp top fits)]
    simp only [PageRegion.owns_iff aligned, Bool.decide_and]
  · rw [if_neg fits, if_pos (inUse.owns_topPage_iff.mpr fits)]

theorem PageRegion.release_reaches_iff :
    region.Owns page ↔
      (region.release page).1 ≠ .foreign ∧ (region.release page).1 ≠ .outside := by
  unfold PageRegion.Owns PageRegion.release
  cases found : region.indexOf? page with
  | none => simp
  | some index =>
      by_cases outside : region.bitmap.total ≤ index
      · simp [outside]
      · by_cases free : region.bitmap.isFree index
        · simp [outside, free, Nat.lt_of_not_le outside]
        · simp [outside, free, Nat.lt_of_not_le outside]

theorem PageRegion.InUse.served_same (inUse : region.InUse) {call : PageCall} {reply : PageReply}
    (served : region.serve call = .ok (reply, after)) :
    after.base = region.base ∧ after.bitmap.total = region.bitmap.total := by
  obtain ⟨ledger, follows⟩ := inUse.follows
  obtain ⟨next, answered, _, goesOn⟩ := follows.serve call
  cases served.symm.trans answered
  constructor
  · apply Address.eq_of_value
    rw [goesOn.base, ledger.serve_base, follows.base]
  · rw [goesOn.total, ledger.serve_total, follows.total]

theorem PageRegion.InUse.owns_served (inUse : region.InUse) {call : PageCall} {reply : PageReply}
    (served : region.serve call = .ok (reply, after)) (other : Address) :
    after.Owns other ↔ region.Owns other := by
  obtain ⟨base, total⟩ := inUse.served_same served
  unfold PageRegion.Owns PageRegion.indexOf?
  rw [base, total]

theorem PageRegion.InUse.obtained (inUse : region.InUse)
    (result : region.obtain = .ok (some (page, after))) :
    after.Taken page ∧ ∀ other, region.Taken other → after.Taken other := by
  by_cases free : region.HasFree
  · obtain ⟨found, next, obtained, _, marked⟩ := inUse.obtain_some free
    cases result.symm.trans obtained
    exact ⟨(marked page).mpr (.inl rfl), fun other taken => (marked other).mpr (.inr taken)⟩
  · cases result.symm.trans (inUse.obtain_none free)

theorem PageRegion.InUse.released (inUse : region.InUse) (other : Address) :
    (region.release page).2.Taken other ↔ other ≠ page ∧ region.Taken other := by
  obtain ⟨ledger, follows⟩ := inUse.follows
  rw [(follows.released page).2.taken_iff, follows.taken_iff]
  constructor
  · rintro ⟨index, left, value⟩
    obtain ⟨isOut, apart⟩ := Finset.mem_filter.mp left
    refine ⟨?_, index, isOut, value⟩
    rintro rfl
    exact apart value
  · rintro ⟨different, index, isOut, value⟩
    refine ⟨index, Finset.mem_filter.mpr ⟨isOut, ?_⟩, value⟩
    intro same
    exact different (Address.eq_of_value (value.symm.trans same))

theorem PageRegion.InUse.accepts (inUse : region.InUse) (taken : region.Taken page) :
    (region.release page).1 = .accepted := by
  obtain ⟨ledger, follows⟩ := inUse.follows
  exact (follows.released page).1.mpr (follows.taken_iff.mp taken)

end

/-! ### Pools -/

structure PagePools.InUse (pools : PagePools) : Prop where
  region : ∀ pool, (pools.region pool).InUse
  apart : ∀ page, ¬ ((pools.region .kernel).Owns page ∧ (pools.region .user).Owns page)

/-- The page was taken from the pools and not given back since. -/
inductive PagePools.Lends : PagePools → PoolName → Address → Prop
  | obtained {pools after : PagePools} {flags : PageFlags} {page : Address} :
      pools.InUse → pools.obtain flags = .ok (some (page, after)) → Lends after flags.pool page
  | kept {pools after : PagePools} {pool : PoolName} {page : Address} {call : PoolCall}
      {reply : PageReply} :
      Lends pools pool page → pools.serve call = .ok (reply, after) → call ≠ .release page →
      Lends after pool page

section

variable {pools after : PagePools} {pool : PoolName} {page : Address}

theorem PagePools.serve_cases {call : PoolCall} {reply : PageReply}
    (served : pools.serve call = .ok (reply, after)) :
    after = pools ∨ ∃ pool own answer region,
      (pools.region pool).serve own = .ok (answer, region) ∧ after = pools.setRegion pool region ∧
        ∀ page, own = .release page → call = .release page := by
  unfold PagePools.serve at served
  cases call with
  | obtain flags =>
      unfold PagePools.obtain at served
      cases taken : (pools.region flags.pool).obtain with
      | error halt =>
          simp only [taken] at served
          cases served
      | ok found =>
          simp only [taken] at served
          cases found with
          | none =>
              cases served
              exact .inl rfl
          | some result =>
              obtain ⟨page, region⟩ := result
              cases served
              refine .inr ⟨flags.pool, .obtain, .obtained (some page.value), region, ?_, rfl, ?_⟩
              · unfold PageRegion.serve
                dsimp only
                rw [taken]
                rfl
              · intro other impossible
                cases impossible
  | release page =>
      unfold PagePools.release at served
      cases asked : pools.poolOf? page with
      | error halt =>
          simp only [asked] at served
          cases served
      | ok found =>
          simp only [asked] at served
          cases found with
          | none =>
              cases served
              exact .inl rfl
          | some pool =>
              cases served
              refine .inr ⟨pool, .release page, _, _, rfl, rfl, ?_⟩
              intro other same
              cases same
              rfl

theorem PageRegion.InUse.taken_served {region next : PageRegion} (inUse : region.InUse)
    {call : PageCall} {reply : PageReply} (served : region.serve call = .ok (reply, next))
    (taken : region.Taken page) (kept : call ≠ .release page) : next.Taken page := by
  unfold PageRegion.serve at served
  cases call with
  | obtain =>
      cases result : region.obtain with
      | error halt =>
          rw [result] at served
          cases served
      | ok found =>
          rw [result] at served
          cases found with
          | none =>
              cases served
              exact taken
          | some obtained =>
              cases served
              exact (inUse.obtained result).2 page taken
  | release other =>
      cases served
      refine (inUse.released page).mpr ⟨?_, taken⟩
      rintro rfl
      exact kept rfl

theorem PagePools.InUse.setRegion (inUse : pools.InUse) {region : PageRegion}
    (alsoInUse : region.InUse) (same : ∀ page, region.Owns page ↔ (pools.region pool).Owns page) :
    (pools.setRegion pool region).InUse := by
  have owns : ∀ other page, ((pools.setRegion pool region).region other).Owns page ↔
      (pools.region other).Owns page := by
    intro other page
    by_cases isPool : other = pool
    · rw [isPool, PagePools.region_setRegion]
      exact same page
    · rw [PagePools.region_setRegion_other _ isPool]
  constructor
  · intro other
    by_cases isPool : other = pool
    · rw [isPool, PagePools.region_setRegion]
      exact alsoInUse
    · rw [PagePools.region_setRegion_other _ isPool]
      exact inUse.region other
  · intro page both
    rw [owns, owns] at both
    exact inUse.apart page both

theorem PagePools.InUse.served (inUse : pools.InUse) {call : PoolCall} {reply : PageReply}
    (served : pools.serve call = .ok (reply, after)) : after.InUse := by
  rcases PagePools.serve_cases served with rfl | ⟨pool, own, answer, region, asked, rfl, _⟩
  · exact inUse
  · exact inUse.setRegion ((inUse.region pool).served asked) ((inUse.region pool).owns_served asked)

theorem PagePools.InUse.taken_served (inUse : pools.InUse) {call : PoolCall} {reply : PageReply}
    (served : pools.serve call = .ok (reply, after)) (taken : (pools.region pool).Taken page)
    (kept : call ≠ .release page) : (after.region pool).Taken page := by
  rcases PagePools.serve_cases served with rfl | ⟨other, own, answer, region, asked, rfl, only⟩
  · exact taken
  · by_cases same : pool = other
    · subst same
      rw [PagePools.region_setRegion]
      exact (inUse.region pool).taken_served asked taken fun gone => kept (only page gone)
    · rw [PagePools.region_setRegion_other _ same]
      exact taken

theorem PagePools.InUse.obtained (inUse : pools.InUse) {flags : PageFlags}
    (result : pools.obtain flags = .ok (some (page, after))) :
    after.InUse ∧ (after.region flags.pool).Taken page := by
  have served : pools.serve (.obtain flags) = .ok (.obtained (some page.value), after) := by
    unfold PagePools.serve
    dsimp only
    rw [result]
    rfl
  refine ⟨inUse.served served, ?_⟩
  unfold PagePools.obtain at result
  cases taken : (pools.region flags.pool).obtain with
  | error halt =>
      simp only [taken] at result
      cases result
  | ok found =>
      simp only [taken] at result
      cases found with
      | none => cases result
      | some given =>
          obtain ⟨first, region⟩ := given
          cases result
          rw [PagePools.region_setRegion]
          exact ((inUse.region flags.pool).obtained taken).1

theorem PagePools.Lends.taken (lends : pools.Lends pool page) :
    pools.InUse ∧ (pools.region pool).Taken page := by
  induction lends with
  | obtained inUse result => exact inUse.obtained result
  | kept _ served kept ih =>
      obtain ⟨inUse, taken⟩ := ih
      exact ⟨inUse.served served, inUse.taken_served served taken kept⟩

/-- The user pool is asked first, and stops if it holds the topmost page. -/
theorem PagePools.InUse.poolOf?_eq (inUse : pools.InUse) (aligned : page.PageAligned) :
    pools.poolOf? page =
      if (pools.region .user).Owns topPage then .error .additionOverflow
      else if (pools.region .user).Owns page then .ok (some .user)
      else if (pools.region .kernel).Owns topPage then .error .additionOverflow
      else .ok (if (pools.region .kernel).Owns page then some .kernel else none) := by
  have user := (inUse.region .user).contains_eq aligned
  have kernel := (inUse.region .kernel).contains_eq aligned
  unfold PagePools.region at *
  unfold PagePools.poolOf?
  dsimp only at *
  rw [user, kernel]
  by_cases userTop : pools.user.Owns topPage
  · rw [if_pos userTop, if_pos userTop]
  · rw [if_neg userTop, if_neg userTop]
    by_cases inUser : pools.user.Owns page
    · rw [if_pos inUser, decide_eq_true inUser]
    · rw [if_neg inUser, decide_eq_false inUser]
      by_cases kernelTop : pools.kernel.Owns topPage
      · rw [if_pos kernelTop, if_pos kernelTop]
      · rw [if_neg kernelTop, if_neg kernelTop]
        by_cases inKernel : pools.kernel.Owns page
        · rw [if_pos inKernel, decide_eq_true inKernel]
        · rw [if_neg inKernel, decide_eq_false inKernel]

/-- A pool holding the topmost page is asked before the page is known to belong to another. -/
def PagePools.StopsFor (pools : PagePools) (pool : PoolName) : Prop :=
  (pools.region .user).Owns topPage ∨ pool = .kernel ∧ (pools.region .kernel).Owns topPage

instance (pools : PagePools) (pool : PoolName) : Decidable (pools.StopsFor pool) :=
  inferInstanceAs (Decidable (_ ∨ _))

theorem PagePools.Lends.poolOf?_eq (lends : pools.Lends pool page) :
    (pools.StopsFor pool → pools.poolOf? page = .error .additionOverflow) ∧
      (¬ pools.StopsFor pool → pools.poolOf? page = .ok (some pool)) := by
  obtain ⟨inUse, taken⟩ := lends.taken
  have owned := PageRegion.owns_of_taken taken
  have aligned : page.PageAligned := by
    obtain ⟨index, value, _⟩ := PageRegion.taken_iff.mp taken
    have base := (pools.region pool).aligned
    unfold Address.PageAligned pageSize at *
    omega
  rw [inUse.poolOf?_eq aligned]
  unfold PagePools.StopsFor
  by_cases userTop : (pools.region .user).Owns topPage
  · simp [userTop]
  · cases pool with
    | user => simp [userTop, owned]
    | kernel =>
        have notUser : ¬ (pools.region .user).Owns page :=
          fun also => inUse.apart page ⟨owned, also⟩
        by_cases kernelTop : (pools.region .kernel).Owns topPage
        · simp [userTop, notUser, kernelTop]
        · simp [userTop, notUser, kernelTop, owned]

/-- The test by both ends agrees with the count from the base on every region without the topmost
page, and stops on every region with it. A page that the pools have lent goes back to its own pool,
unless the way there leads past such a region. -/
theorem PagePools.gives_back_unless_topped (page : Address) :
    (∀ region : PageRegion, region.InUse → page.PageAligned →
      region.contains page =
          (if region.Owns topPage then .error .additionOverflow
          else .ok (decide (region.Owns page))) ∧
        (region.Owns page ↔
          (region.release page).1 ≠ .foreign ∧ (region.release page).1 ≠ .outside)) ∧
      ∀ (pools : PagePools) (pool : PoolName), pools.Lends pool page →
        (pools.StopsFor pool → pools.release page = .error .additionOverflow) ∧
          (¬ pools.StopsFor pool → ∃ region,
            pools.release page = .ok (.accepted, pools.setRegion pool region) ∧
              ∀ other, region.Taken other ↔ other ≠ page ∧ (pools.region pool).Taken other) := by
  constructor
  · intro region inUse aligned
    exact ⟨inUse.contains_eq aligned, PageRegion.release_reaches_iff⟩
  · intro pools pool lends
    obtain ⟨inUse, taken⟩ := lends.taken
    obtain ⟨stopped, found⟩ := lends.poolOf?_eq
    unfold PagePools.release
    constructor
    · intro stops
      rw [stopped stops]
    · intro passes
      refine ⟨((pools.region pool).release page).2, ?_, (inUse.region pool).released⟩
      rw [found passes]
      simp only [(inUse.region pool).accepts taken]

end

def toppedRegion (bitmap : Bitmap) : PageRegion where
  base := topPage
  bitmap := bitmap
  aligned := by decide

def lowRegion (bitmap : Bitmap) : PageRegion where
  base := ⟨0x100000000000, .inl (by decide)⟩
  bitmap := bitmap
  aligned := by decide

def oneTaken : Bitmap := { words := #[1], total := 1, free := 0, cursor := 0 }

theorem toppedRegion_inUse : (toppedRegion (.allFree 1)).InUse := by
  have created : PageRegion.create topPage 1 = .ok (toppedRegion (.allFree 1)) := rfl
  apply PageRegion.InUse.created created
  intro index inside
  exact ⟨topPage, by rw [Nat.lt_one_iff.mp inside, Nat.zero_mul, Nat.add_zero]⟩

theorem lowRegion_inUse : (lowRegion (.allFree 1)).InUse := by
  have created : PageRegion.create (lowRegion (.allFree 1)).base 1 =
      .ok (lowRegion (.allFree 1)) := rfl
  apply PageRegion.InUse.created created
  intro index inside
  exact ⟨(lowRegion (.allFree 1)).base,
    by rw [Nat.lt_one_iff.mp inside, Nat.zero_mul, Nat.add_zero]⟩

/-- A kernel pool that ends the address space, beside a user pool far below. -/
theorem toppedPools_inUse :
    PagePools.InUse ⟨toppedRegion (.allFree 1), lowRegion (.allFree 1)⟩ := by
  constructor
  · intro pool
    cases pool with
    | kernel => exact toppedRegion_inUse
    | user => exact lowRegion_inUse
  · rintro page ⟨⟨index, found, _⟩, other, alsoFound, within⟩
    have high := PageRegion.indexOf?_eq_some.mp found
    have low := PageRegion.indexOf?_eq_some.mp alsoFound
    dsimp [PagePools.region, toppedRegion, lowRegion, topPage, Bitmap.allFree, pageSize] at *
    omega

theorem toppedPools_give_back :
    let pools : PagePools := ⟨toppedRegion oneTaken, lowRegion oneTaken⟩
    (toppedRegion oneTaken).contains topPage = .error .additionOverflow ∧
      (∃ region, pools.release (lowRegion oneTaken).base =
        .ok (.accepted, pools.setRegion .user region)) ∧
      pools.release topPage = .error .additionOverflow := by
  intro pools
  have user : PagePools.obtain ⟨toppedRegion (.allFree 1), lowRegion (.allFree 1)⟩ ⟨2⟩ =
      .ok (some ((lowRegion oneTaken).base, ⟨toppedRegion (.allFree 1), lowRegion oneTaken⟩)) := rfl
  have kernel : PagePools.obtain ⟨toppedRegion (.allFree 1), lowRegion oneTaken⟩ ⟨0⟩ =
      .ok (some (topPage, pools)) := rfl
  have between := toppedPools_inUse.obtained user
  refine ⟨?_, ?_, ?_⟩
  · have inUse : (toppedRegion oneTaken).InUse := (between.1.obtained kernel).1.region .kernel
    rw [((PagePools.gives_back_unless_topped topPage).1 _ inUse (by decide)).1]
    exact if_pos (by decide +kernel)
  · have served : PagePools.serve ⟨toppedRegion (.allFree 1), lowRegion oneTaken⟩
        (.obtain ⟨0⟩) = .ok (.obtained (some topPage.value), pools) := rfl
    have lends : pools.Lends .user (lowRegion oneTaken).base :=
      (PagePools.Lends.obtained toppedPools_inUse user).kept served (by decide)
    obtain ⟨region, released, _⟩ := ((PagePools.gives_back_unless_topped _).2 _ _ lends).2
      (by decide +kernel)
    exact ⟨region, released⟩
  · have lends : pools.Lends .kernel topPage := .obtained between.1 kernel
    exact ((PagePools.gives_back_unless_topped topPage).2 _ _ lends).1 (by decide +kernel)

/-- Asked about the very page that it holds, the topmost region stops. -/
theorem containsAgrees_fails : ¬ ∀ region : PageRegion, region.InUse →
    ∀ page : Address, page.PageAligned → region.contains page = .ok (decide (region.Owns page)) := by
  intro agrees
  have aligned : topPage.PageAligned := by decide
  have answered := agrees _ toppedRegion_inUse topPage aligned
  rw [toppedRegion_inUse.contains_eq aligned, if_pos (by decide +kernel)] at answered
  cases answered

end KernelPaging
