import KernelPaging.Proofs.PageChecks
import Mathlib.Data.Finset.Card
import Mathlib.Data.Finset.Range

/-!
What a region amounts to: a set of pages that are out, and a cursor. Every sequence of calls gets
the same answers and statistics from a region as from such a ledger, and no check of the machine
fails on the way.
-/

set_option autoImplicit false

namespace KernelPaging

/-- The pages that are out, and the place where the next search begins. -/
structure PageLedger where
  base : Nat
  total : Nat
  out : Finset Nat := ∅
  cursor : Nat := 0

def PageLedger.pageAt (ledger : PageLedger) (index : Nat) : Nat :=
  ledger.base + pageSize * index

/-- The pages in the order of a search: once around, from the cursor on. -/
def PageLedger.searched (ledger : PageLedger) : List Nat :=
  (List.range' ledger.cursor ledger.total).map fun place => place % ledger.total

def PageLedger.next (ledger : PageLedger) : Nat :=
  (ledger.searched.find? fun index => index ∉ ledger.out).getD 0

inductive PageCall
  | obtain
  | release (page : Address)
deriving DecidableEq

inductive PageReply
  | obtained (page : Option Nat)
  | released (accepted : Bool)
deriving DecidableEq

structure PageAnswer where
  reply : PageReply
  total : Nat
  free : Nat
deriving DecidableEq

def PageLedger.answer (ledger : PageLedger) (reply : PageReply) : PageAnswer where
  reply := reply
  total := ledger.total
  free := ledger.total - ledger.out.card

def PageLedger.serve (ledger : PageLedger) : PageCall → PageReply × PageLedger
  | .obtain =>
      if ledger.out = Finset.range ledger.total then
        (.obtained none, ledger)
      else
        (.obtained (some (ledger.pageAt ledger.next)),
          { ledger with
            out := insert ledger.next ledger.out
            cursor := (ledger.next + 1) % ledger.total })
  | .release page =>
      (.released (decide (∃ index ∈ ledger.out, ledger.pageAt index = page.value)),
        { ledger with out := ledger.out.filter fun index => ledger.pageAt index ≠ page.value })

def PageLedger.serveAll (ledger : PageLedger) : List PageCall → List PageAnswer × PageLedger
  | [] => ([], ledger)
  | call :: calls =>
      let (reply, after) := ledger.serve call
      let (answers, last) := after.serveAll calls
      (after.answer reply :: answers, last)

def PageRegion.answer (region : PageRegion) (reply : PageReply) : PageAnswer where
  reply := reply
  total := region.bitmap.total
  free := region.bitmap.free

def obtainedFrom (region : PageRegion) : Option (Address × PageRegion) → PageReply × PageRegion
  | none => (.obtained none, region)
  | some (page, after) => (.obtained (some page.value), after)

def releasedTo (result : ReleaseOutcome × PageRegion) : PageReply × PageRegion :=
  (.released (result.1 = .accepted), result.2)

def PageRegion.serve (region : PageRegion) : PageCall → Except Halt (PageReply × PageRegion)
  | .obtain => region.obtain.map (obtainedFrom region)
  | .release page => .ok (releasedTo (region.release page))

def PageRegion.serveChecked (region : PageRegion) :
    PageCall → Except MachineFault (PageReply × PageRegion)
  | .obtain => region.obtainChecked.map (obtainedFrom region)
  | .release page => (region.releaseChecked page).map releasedTo

def serveAll {stop : Type} (serve : PageRegion → PageCall → Except stop (PageReply × PageRegion))
    (region : PageRegion) : List PageCall → Except stop (List PageAnswer × PageRegion)
  | [] => .ok ([], region)
  | call :: calls => do
      let (reply, after) ← serve region call
      let (answers, last) ← serveAll serve after calls
      return (after.answer reply :: answers, last)

/-- The region and the ledger say the same, and every page has an address. -/
structure PageRegion.Follows (region : PageRegion) (ledger : PageLedger) : Prop where
  base : region.base.value = ledger.base
  total : region.bitmap.total = ledger.total
  cursor : region.bitmap.cursor = ledger.cursor
  free : region.bitmap.free = ledger.total - ledger.out.card
  marks : ∀ index, region.bitmap.isFree index = decide (index ∉ ledger.out)
  inside : ledger.out ⊆ Finset.range ledger.total
  within : ledger.total ≠ 0 → ledger.cursor < ledger.total
  words : region.bitmap.words.size = (ledger.total + (wordBits - 1)) / wordBits
  canonical : ∀ index, index < ledger.total →
    ∃ address : Address, address.value = ledger.base + index * pageSize

theorem Bitmap.findFree_eq_find? {bitmap : Bitmap} (start remaining : Nat) :
    bitmap.findFree start remaining =
      ((List.range' start remaining).map fun place => place % bitmap.total).find? bitmap.isFree := by
  induction remaining generalizing start with
  | zero => rfl
  | succ remaining ih =>
      rw [Bitmap.findFree, List.range'_succ, List.map_cons, List.find?_cons, ih]
      cases bitmap.isFree (start % bitmap.total) <;> simp

theorem PageLedger.mem_searched {ledger : PageLedger}
    (within : ledger.total ≠ 0 → ledger.cursor < ledger.total) {index : Nat}
    (inside : index < ledger.total) : index ∈ ledger.searched := by
  have cursor := within (by omega)
  apply List.mem_map.mpr
  by_cases behind : ledger.cursor ≤ index
  · exists index
    constructor
    · rw [List.mem_range'_1]
      omega
    · exact Nat.mod_eq_of_lt inside
  · exists index + ledger.total
    constructor
    · rw [List.mem_range'_1]
      omega
    · rw [Nat.add_mod_right]
      exact Nat.mod_eq_of_lt inside

theorem PageLedger.find?_next {ledger : PageLedger}
    (inside : ledger.out ⊆ Finset.range ledger.total)
    (within : ledger.total ≠ 0 → ledger.cursor < ledger.total)
    (some_in : ledger.out ≠ Finset.range ledger.total) :
    (ledger.searched.find? fun index => index ∉ ledger.out) = some ledger.next := by
  obtain ⟨index, range, absent⟩ := Finset.exists_of_ssubset (inside.ssubset_of_ne some_in)
  have searched := PageLedger.mem_searched within (Finset.mem_range.mp range)
  have found : (ledger.searched.find? fun index => index ∉ ledger.out).isSome :=
    List.find?_isSome.mpr ⟨index, searched, by simpa using absent⟩
  obtain ⟨first, first_eq⟩ := Option.isSome_iff_exists.mp found
  rw [PageLedger.next, first_eq]
  rfl

theorem PageLedger.next_spec {ledger : PageLedger}
    (inside : ledger.out ⊆ Finset.range ledger.total)
    (within : ledger.total ≠ 0 → ledger.cursor < ledger.total)
    (some_in : ledger.out ≠ Finset.range ledger.total) :
    ledger.next < ledger.total ∧ ledger.next ∉ ledger.out := by
  have found := PageLedger.find?_next inside within some_in
  constructor
  · obtain ⟨place, searched, same⟩ := List.mem_map.mp (List.mem_of_find?_eq_some found)
    rw [← same]
    apply Nat.mod_lt
    rw [List.mem_range'_1] at searched
    omega
  · simpa using List.find?_some found

section

variable {region : PageRegion} {ledger : PageLedger}

theorem PageRegion.Follows.inBounds (follows : region.Follows ledger) : region.bitmap.InBounds := by
  have total := follows.total
  constructor
  · unfold Bitmap.Covers
    rw [follows.words, total]
    unfold wordBits
    omega
  · by_cases empty : ledger.total = 0
    · rw [total, empty, Nat.zero_mul]
      exact Nat.zero_le _
    · obtain ⟨address, place⟩ := follows.canonical (ledger.total - 1) (by omega)
      have below := address.value_lt
      have aligned := region.aligned
      have base := follows.base
      unfold Address.PageAligned pageSize at aligned
      unfold pageSize wordLimit at *
      omega
  · rw [follows.cursor, total]
    exact follows.within
  · rw [follows.free, total]
    exact Nat.sub_le _ _

theorem PageRegion.Follows.full (follows : region.Follows ledger) :
    region.bitmap.free = 0 ↔ ledger.out = Finset.range ledger.total := by
  have atMost : ledger.out.card ≤ ledger.total := by
    simpa using Finset.card_le_card follows.inside
  rw [follows.free]
  constructor
  · intro none
    apply Finset.eq_of_subset_of_card_le follows.inside
    rw [Finset.card_range]
    omega
  · intro all
    rw [all, Finset.card_range, Nat.sub_self]

theorem PageRegion.Follows.take (follows : region.Follows ledger)
    (some_in : ledger.out ≠ Finset.range ledger.total) :
    region.bitmap.take = some (ledger.next,
      { region.bitmap.markTaken ledger.next with
        free := region.bitmap.free - 1
        cursor := (ledger.next + 1) % ledger.total }) := by
  have found : region.bitmap.findFree region.bitmap.cursor region.bitmap.total =
      some ledger.next := by
    rw [Bitmap.findFree_eq_find?, funext follows.marks, follows.total, follows.cursor]
    exact PageLedger.find?_next follows.inside follows.within some_in
  rw [Bitmap.take, if_neg (fun none => some_in (follows.full.mp none)), found, follows.total]

theorem PageRegion.Follows.obtained (follows : region.Follows ledger)
    (some_in : ledger.out ≠ Finset.range ledger.total) :
    ∃ page after, region.obtain = .ok (some (page, after)) ∧
      page.value = ledger.pageAt ledger.next ∧
      after.Follows { ledger with
        out := insert ledger.next ledger.out
        cursor := (ledger.next + 1) % ledger.total } := by
  obtain ⟨inside, absent⟩ := PageLedger.next_spec follows.inside follows.within some_in
  obtain ⟨page, place⟩ := follows.canonical ledger.next inside
  have reached : region.base.offset (ledger.next * pageSize) = .ok page :=
    Address.offset_of_canonical (by rw [place, follows.base])
  unfold PageRegion.obtain
  rw [follows.take some_in]
  simp only [reached]
  refine ⟨page, _, rfl, ?_, ?_⟩
  · rw [place, PageLedger.pageAt, Nat.mul_comm]
  · constructor
    · exact follows.base
    · exact follows.total
    · rfl
    · change region.bitmap.free - 1 = ledger.total - (insert ledger.next ledger.out).card
      rw [Finset.card_insert_of_notMem absent, follows.free]
      omega
    · intro index
      have marked := Bitmap.isFree_markTaken follows.inBounds.covers
        (by rw [follows.total]; exact inside : ledger.next < region.bitmap.total) index
      have same := marked.trans (congrArg _ (follows.marks index))
      refine same.trans ?_
      simp [Finset.mem_insert, not_or]
    · exact Finset.insert_subset (Finset.mem_range.mpr inside) follows.inside
    · intro nonzero
      exact Nat.mod_lt _ (Nat.pos_of_ne_zero nonzero)
    · exact Array.size_modify.trans follows.words
    · exact follows.canonical

theorem PageRegion.Follows.refused (follows : region.Follows ledger) (page : Address)
    (absent : ∀ index ∈ ledger.out, ledger.pageAt index ≠ page.value) :
    region.Follows { ledger with
      out := ledger.out.filter fun index => ledger.pageAt index ≠ page.value } := by
  rw [Finset.filter_true_of_mem absent]
  exact follows

theorem PageRegion.Follows.gave (follows : region.Follows ledger) {index : Nat}
    (isOut : index ∈ ledger.out) :
    ({ region with bitmap := region.bitmap.give index } : PageRegion).Follows
      { ledger with out := ledger.out.erase index } := by
  have atMost : ledger.out.card ≤ ledger.total := by
    simpa using Finset.card_le_card follows.inside
  have some_out : 0 < ledger.out.card := Finset.card_pos.mpr ⟨index, isOut⟩
  constructor
  · exact follows.base
  · exact follows.total
  · exact follows.cursor
  · change region.bitmap.free + 1 = ledger.total - (ledger.out.erase index).card
    rw [Finset.card_erase_of_mem isOut, follows.free]
    omega
  · intro other
    rw [Bitmap.isFree_give, follows.marks]
    simp [Finset.mem_erase]
  · exact (Finset.erase_subset _ _).trans follows.inside
  · exact follows.within
  · exact Array.size_modify.trans follows.words
  · exact follows.canonical

theorem PageRegion.Follows.released (follows : region.Follows ledger) (page : Address) :
    ((region.release page).1 = .accepted ↔
        ∃ index ∈ ledger.out, ledger.pageAt index = page.value) ∧
      (region.release page).2.Follows { ledger with
        out := ledger.out.filter fun index => ledger.pageAt index ≠ page.value } := by
  have indices : ∀ index, region.indexOf? page = some index ↔
      ledger.pageAt index = page.value := by
    intro index
    rw [PageRegion.indexOf?_eq_some, follows.base, PageLedger.pageAt, Nat.mul_comm, eq_comm]
  unfold PageRegion.release
  cases found : region.indexOf? page with
  | none =>
      have absent : ∀ index ∈ ledger.out, ledger.pageAt index ≠ page.value := by
        intro index _ same
        rw [(indices index).mpr same] at found
        cases found
      constructor
      · simpa using absent
      · exact follows.refused page absent
  | some index =>
      have value := (indices index).mp found
      have only : ∀ other, ledger.pageAt other = page.value ↔ other = index := by
        intro other
        rw [← indices, found, Option.some.injEq, eq_comm]
      by_cases isOut : index ∈ ledger.out
      · have inside : index < ledger.total := Finset.mem_range.mp (follows.inside isOut)
        have taken : region.bitmap.isFree index = false := by simp [follows.marks, isOut]
        have within : ¬ region.bitmap.total ≤ index := by
          rw [follows.total]
          omega
        simp only [if_neg within, taken, Bool.false_eq_true, if_false]
        constructor
        · simp [only, isOut]
        · simp only [ne_eq, only, Finset.filter_ne' ledger.out index]
          exact follows.gave isOut
      · have absent : ∀ other ∈ ledger.out, ledger.pageAt other ≠ page.value := by
          intro other isIn same
          exact isOut ((only other).mp same ▸ isIn)
        have marked : region.bitmap.isFree index = true := by simp [follows.marks, isOut]
        simp only [marked, if_true]
        split <;> exact ⟨by simpa using absent, follows.refused page absent⟩

theorem PageRegion.Follows.serve (follows : region.Follows ledger) (call : PageCall) :
    ∃ after, region.serve call = .ok ((ledger.serve call).1, after) ∧
      region.serveChecked call = .ok ((ledger.serve call).1, after) ∧
      after.Follows (ledger.serve call).2 := by
  cases call with
  | obtain =>
      by_cases full : ledger.out = Finset.range ledger.total
      · have obtained : region.obtain = .ok none := by
          rw [PageRegion.obtain, Bitmap.take, if_pos (follows.full.mpr full)]
        have checked := PageRegion.obtainChecked_ok follows.inBounds obtained
        simp only [PageRegion.serve, PageRegion.serveChecked, PageLedger.serve, obtained, checked,
          if_pos full]
        exact ⟨region, rfl, rfl, follows⟩
      · obtain ⟨page, after, obtained, place, later⟩ := follows.obtained full
        have checked := PageRegion.obtainChecked_ok follows.inBounds obtained
        simp only [PageRegion.serve, PageRegion.serveChecked, PageLedger.serve, obtained, checked,
          if_neg full, ← place]
        exact ⟨after, rfl, rfl, later⟩
  | release page =>
      obtain ⟨accepted, later⟩ := follows.released page
      have checked := PageRegion.releaseChecked_ok follows.inBounds page
      simp only [PageRegion.serve, PageRegion.serveChecked, PageLedger.serve, checked, ← accepted]
      exact ⟨_, rfl, rfl, later⟩

theorem PageRegion.Follows.answer (follows : region.Follows ledger) (reply : PageReply) :
    region.answer reply = ledger.answer reply := by
  rw [PageRegion.answer, PageLedger.answer, follows.total, follows.free]

theorem PageRegion.Follows.serveAll (follows : region.Follows ledger) (calls : List PageCall) :
    ∃ after, serveAll PageRegion.serve region calls = .ok ((ledger.serveAll calls).1, after) ∧
      serveAll PageRegion.serveChecked region calls = .ok ((ledger.serveAll calls).1, after) ∧
      after.Follows (ledger.serveAll calls).2 := by
  induction calls generalizing region ledger with
  | nil => exact ⟨region, rfl, rfl, follows⟩
  | cons call calls ih =>
      obtain ⟨between, served, checked, meanwhile⟩ := follows.serve call
      obtain ⟨last, servedAll, checkedAll, lastly⟩ := ih meanwhile
      simp only [KernelPaging.serveAll, served, checked, bind, Except.bind, servedAll, checkedAll,
        meanwhile.answer]
      exact ⟨last, rfl, rfl, lastly⟩

theorem PageRegion.create_follows {base : Address} (aligned : base.PageAligned) {pages : Nat}
    (canonical : ∀ index, index < pages →
      ∃ address : Address, address.value = base.value + index * pageSize) :
    ∃ region, PageRegion.create base pages = .ok region ∧
      region.Follows { base := base.value, total := pages } := by
  refine ⟨⟨base, .allFree pages, aligned⟩, dif_pos aligned, ?_⟩
  constructor
  · rfl
  · rfl
  · rfl
  · rfl
  · simpa using Bitmap.allFree_isFree pages
  · exact Finset.empty_subset _
  · exact Nat.pos_of_ne_zero
  · exact Array.size_replicate
  · exact canonical

end

theorem PageLedger.serve_total (ledger : PageLedger) (call : PageCall) :
    (ledger.serve call).2.total = ledger.total := by
  cases call with
  | obtain =>
      by_cases full : ledger.out = Finset.range ledger.total
      · simp [PageLedger.serve, full]
      · simp [PageLedger.serve, full]
  | release page => rfl

theorem PageLedger.serveAll_total (ledger : PageLedger) (calls : List PageCall) :
    (ledger.serveAll calls).2.total = ledger.total := by
  induction calls generalizing ledger with
  | nil => rfl
  | cons call calls ih => exact (ih (ledger.serve call).2).trans (ledger.serve_total call)

/-- A region all of whose pages have addresses is a ledger to its callers: replies and statistics are
the same for every sequence of calls, and nothing on the way could stop a machine. No bit behind the
last page is ever set. -/
theorem PageRegion.refines_ledger {base : Address} (aligned : base.PageAligned) {pages : Nat}
    (canonical : ∀ index, index < pages →
      ∃ address : Address, address.value = base.value + index * pageSize)
    (calls : List PageCall) :
    let served := PageLedger.serveAll { base := base.value, total := pages } calls
    ∃ region after, PageRegion.create base pages = .ok region ∧
      serveAll PageRegion.serve region calls = .ok (served.1, after) ∧
      serveAll PageRegion.serveChecked region calls = .ok (served.1, after) ∧
      after.bitmap.free = pages - served.2.out.card ∧
      after.bitmap.words.size = (pages + (wordBits - 1)) / wordBits ∧
      ∀ index, after.bitmap.isFree index = false ↔ index ∈ served.2.out ∧ index < pages := by
  intro served
  have total : served.2.total = pages :=
    PageLedger.serveAll_total { base := base.value, total := pages } calls
  obtain ⟨region, created, follows⟩ := PageRegion.create_follows aligned canonical
  obtain ⟨after, answers, checked, lastly⟩ := follows.serveAll calls
  refine ⟨region, after, created, answers, checked, ?_, ?_, ?_⟩
  · rw [← total]
    exact lastly.free
  · rw [← total]
    exact lastly.words
  · intro index
    have inside : index ∈ served.2.out → index < pages := by
      intro isOut
      rw [← total]
      exact Finset.mem_range.mp (lastly.inside isOut)
    have marked : after.bitmap.isFree index = false ↔ index ∈ served.2.out := by
      simp [lastly.marks, served]
    rw [marked]
    exact ⟨fun isOut => ⟨isOut, inside isOut⟩, And.left⟩

/-- Three pages are taken, the first is given back, and an address inside it is not accepted. -/
theorem threePages_served :
    ∃ region after,
      PageRegion.create ⟨0x200000000000, .inl (by decide)⟩ 3 = .ok region ∧
      serveAll PageRegion.serve region
          [.obtain, .obtain, .release ⟨0x200000000000, .inl (by decide)⟩,
            .release ⟨0x200000000800, .inl (by decide)⟩, .obtain, .obtain, .obtain] =
        .ok ([⟨.obtained (some 0x200000000000), 3, 2⟩, ⟨.obtained (some 0x200000001000), 3, 1⟩,
          ⟨.released true, 3, 2⟩, ⟨.released false, 3, 2⟩,
          ⟨.obtained (some 0x200000002000), 3, 1⟩, ⟨.obtained (some 0x200000000000), 3, 0⟩,
          ⟨.obtained none, 3, 0⟩], after) := by
  have aligned : (⟨0x200000000000, .inl (by decide)⟩ : Address).PageAligned := by decide
  have canonical : ∀ index, index < 3 →
      ∃ address : Address, address.value = 0x200000000000 + index * pageSize := by
    intro index inside
    exact ⟨⟨_, .inl (by unfold pageSize; omega)⟩, rfl⟩
  obtain ⟨region, after, created, served, _⟩ :=
    PageRegion.refines_ledger aligned canonical
    [.obtain, .obtain, .release ⟨0x200000000000, .inl (by decide)⟩,
      .release ⟨0x200000000800, .inl (by decide)⟩, .obtain, .obtain, .obtain]
  refine ⟨region, after, created, ?_⟩
  rw [served]
  have answers : (PageLedger.serveAll { base := 0x200000000000, total := 3 }
      [.obtain, .obtain, .release ⟨0x200000000000, .inl (by decide)⟩,
        .release ⟨0x200000000800, .inl (by decide)⟩, .obtain, .obtain, .obtain]).1 =
      [⟨.obtained (some 0x200000000000), 3, 2⟩, ⟨.obtained (some 0x200000001000), 3, 1⟩,
        ⟨.released true, 3, 2⟩, ⟨.released false, 3, 2⟩,
        ⟨.obtained (some 0x200000002000), 3, 1⟩, ⟨.obtained (some 0x200000000000), 3, 0⟩,
        ⟨.obtained none, 3, 0⟩] := by
    decide +kernel
  rw [answers]

end KernelPaging
