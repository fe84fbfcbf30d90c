import KernelPaging.Proofs.PageLedgers

/-!
Two pools as two ledgers that know nothing of each other. Each ledger takes part in the calls that
are addressed to it: a page is taken from the pool that the flags ask for, and an address goes back
to the pool whose region holds it. Every sequence of calls gets the same answers from the pools as
from the ledgers.
-/

set_option autoImplicit false

namespace KernelPaging

inductive PoolCall
  | obtain (flags : PageFlags)
  | release (page : Address)
deriving DecidableEq

def PageLedger.Holds (ledger : PageLedger) (page : Address) : Prop :=
  ledger.base ≤ page.value ∧ page.value < ledger.base + ledger.total * pageSize

instance (ledger : PageLedger) (page : Address) : Decidable (ledger.Holds page) :=
  inferInstanceAs (Decidable (_ ∧ _))

/-- What a call asks of one pool, if it is addressed to that pool: flags with the second lowest bit
set are for the user pool, and all others for the kernel pool. -/
def PageLedger.asked? (ledger : PageLedger) (pool : PoolName) : PoolCall → Option PageCall
  | .obtain flags =>
      if flags.bits.toBitVec.getLsbD 1 = decide (pool = .user) then some .obtain else none
  | .release page => if ledger.Holds page then some (.release page) else none

def PageLedger.reply? (ledger : PageLedger) (pool : PoolName) (call : PoolCall) :
    Option PageReply :=
  (ledger.asked? pool call).map fun own => (ledger.serve own).1

def PageLedger.past (ledger : PageLedger) (pool : PoolName) (call : PoolCall) : PageLedger :=
  match ledger.asked? pool call with
  | some own => (ledger.serve own).2
  | none => ledger

structure PoolStatus where
  total : Nat
  free : Nat
  next : Option Nat
deriving DecidableEq

structure PoolAnswer where
  reply : PageReply
  kernel : PoolStatus
  user : PoolStatus
deriving DecidableEq

def PageLedger.status (ledger : PageLedger) : PoolStatus where
  total := ledger.total
  free := ledger.total - ledger.out.card
  next := if ledger.out = Finset.range ledger.total then none else some (ledger.pageAt ledger.next)

/-- Two ledgers side by side. A call that is addressed to neither is not accepted. -/
def serveApart (ledgers : PoolName → PageLedger) :
    List PoolCall → List PoolAnswer × (PoolName → PageLedger)
  | [] => ([], ledgers)
  | call :: calls =>
      let reply := ((ledgers .kernel).reply? .kernel call <|>
        (ledgers .user).reply? .user call).getD (.released false)
      let after := fun pool => (ledgers pool).past pool call
      let (answers, last) := serveApart after calls
      (⟨reply, (after .kernel).status, (after .user).status⟩ :: answers, last)

def PageRegion.status (region : PageRegion) : PoolStatus where
  total := region.bitmap.total
  free := region.bitmap.free
  next := region.bitmap.take.map fun (index, _) => region.base.value + pageSize * index

def PagePools.answer (pools : PagePools) (reply : PageReply) : PoolAnswer :=
  ⟨reply, pools.kernel.status, pools.user.status⟩

def PagePools.serve (pools : PagePools) : PoolCall → Except Halt (PageReply × PagePools)
  | .obtain flags =>
      (pools.obtain flags).map fun obtained =>
        match obtained with
        | none => (.obtained none, pools)
        | some (page, after) => (.obtained (some page.value), after)
  | .release page =>
      (pools.release page).map fun (outcome, after) => (.released (outcome = .accepted), after)

def PagePools.serveAll (pools : PagePools) :
    List PoolCall → Except Halt (List PoolAnswer × PagePools)
  | [] => .ok ([], pools)
  | call :: calls => do
      let (reply, after) ← pools.serve call
      let (answers, last) ← after.serveAll calls
      return (after.answer reply :: answers, last)

/-- Each pool says the same as its ledger, and no address lies in both regions. -/
structure PagePools.Follow (pools : PagePools) (ledgers : PoolName → PageLedger) : Prop where
  region : ∀ pool, (pools.region pool).Follows (ledgers pool)
  fits : ∀ pool, (ledgers pool).base + (ledgers pool).total * pageSize < 0x10000000000000000
  apart : ∀ page, ¬ ((ledgers .kernel).Holds page ∧ (ledgers .user).Holds page)

theorem PageFlags.user_eq (flags : PageFlags) : flags.user = flags.bits.toBitVec.getLsbD 1 := by
  have single : ∀ bit, (flags.bits &&& 2).toBitVec.getLsbD bit =
      (decide (bit = 1) && flags.bits.toBitVec.getLsbD 1) := by
    intro bit
    have two : (UInt32.toBitVec 2).getLsbD bit = decide (bit = 1) := by
      have power : UInt32.toBitVec 2 = BitVec.twoPow 32 1 := by decide
      rw [power, BitVec.getLsbD_twoPow]
      by_cases same : bit = 1
      · simp [same]
      · simp [same, Ne.symm same]
    rw [UInt32.toBitVec_and, BitVec.getLsbD_and, two]
    by_cases same : bit = 1
    · simp [same]
    · simp [same]
  unfold PageFlags.user
  cases isUser : flags.bits.toBitVec.getLsbD 1 with
  | false =>
      have zero : flags.bits &&& 2 = 0 := by
        apply UInt32.toBitVec_inj.mp
        apply BitVec.eq_of_getLsbD_eq
        intro bit _
        rw [single, isUser, Bool.and_false]
        simp
      rw [zero]
      rfl
  | true =>
      apply bne_iff_ne.mpr
      intro zero
      have bit := single 1
      rw [zero, isUser] at bit
      simp at bit

theorem PageFlags.pool_eq_iff (flags : PageFlags) (pool : PoolName) :
    flags.pool = pool ↔ flags.bits.toBitVec.getLsbD 1 = decide (pool = .user) := by
  rw [← PageFlags.user_eq]
  unfold PageFlags.pool
  cases flags.user with
  | false => cases pool <;> decide
  | true => cases pool <;> decide

theorem PageLedger.asked?_obtain (ledger : PageLedger) (pool : PoolName) (flags : PageFlags) :
    ledger.asked? pool (.obtain flags) = if flags.pool = pool then some .obtain else none := by
  unfold PageLedger.asked?
  by_cases same : flags.pool = pool
  · rw [if_pos same]
    exact if_pos ((flags.pool_eq_iff pool).mp same)
  · rw [if_neg same]
    exact if_neg fun asked => same ((flags.pool_eq_iff pool).mpr asked)

theorem PageLedger.asked?_release (ledger : PageLedger) (pool : PoolName) (page : Address) :
    ledger.asked? pool (.release page) = if ledger.Holds page then some (.release page) else none :=
  rfl

theorem PageLedger.serve_base (ledger : PageLedger) (call : PageCall) :
    (ledger.serve call).2.base = ledger.base := by
  cases call with
  | obtain =>
      by_cases full : ledger.out = Finset.range ledger.total
      · simp [PageLedger.serve, full]
      · simp [PageLedger.serve, full]
  | release page => rfl

theorem PageLedger.past_base (ledger : PageLedger) (pool : PoolName) (call : PoolCall) :
    (ledger.past pool call).base = ledger.base := by
  unfold PageLedger.past
  split
  · exact ledger.serve_base _
  · rfl

theorem PageLedger.past_total (ledger : PageLedger) (pool : PoolName) (call : PoolCall) :
    (ledger.past pool call).total = ledger.total := by
  unfold PageLedger.past
  split
  · exact ledger.serve_total _
  · rfl

theorem PageLedger.past_holds (ledger : PageLedger) (pool : PoolName) (call : PoolCall)
    (page : Address) : (ledger.past pool call).Holds page ↔ ledger.Holds page := by
  unfold PageLedger.Holds
  rw [ledger.past_base, ledger.past_total]

theorem PageRegion.contains_eq {region : PageRegion} {ledger : PageLedger}
    (follows : region.Follows ledger)
    (fits : ledger.base + ledger.total * pageSize < 0x10000000000000000) (page : Address) :
    region.contains page = .ok (decide (ledger.Holds page)) := by
  unfold PageRegion.contains
  rw [follows.base, follows.total, if_pos fits]
  exact congrArg Except.ok (Bool.decide_and _ _).symm

theorem PageRegion.Follows.status {region : PageRegion} {ledger : PageLedger}
    (follows : region.Follows ledger) : region.status = ledger.status := by
  unfold PageRegion.status PageLedger.status
  rw [follows.total, follows.free]
  by_cases full : ledger.out = Finset.range ledger.total
  · rw [if_pos full, Bitmap.take, if_pos (follows.full.mpr full)]
    rfl
  · rw [if_neg full, follows.take full, Option.map_some, follows.base]
    rfl

section

variable {pools : PagePools} {ledgers : PoolName → PageLedger}

theorem PagePools.Follow.answer (follow : pools.Follow ledgers) (reply : PageReply) :
    pools.answer reply = ⟨reply, (ledgers .kernel).status, (ledgers .user).status⟩ := by
  have kernel := (follow.region .kernel).status
  have user := (follow.region .user).status
  unfold PagePools.answer
  rw [← kernel, ← user]
  rfl

theorem PagePools.Follow.addressed_once (follow : pools.Follow ledgers) {call : PoolCall}
    {pool other : PoolName} (different : other ≠ pool) {own : PageCall}
    (asked : (ledgers pool).asked? pool call = some own) :
    (ledgers other).asked? other call = none := by
  cases call with
  | obtain flags =>
      rw [PageLedger.asked?_obtain] at *
      split at asked
      · next same =>
        apply if_neg
        intro also
        exact different (also.symm.trans same)
      · cases asked
  | release page =>
      rw [PageLedger.asked?_release] at *
      split at asked
      · next here =>
        apply if_neg
        intro there
        have apart := follow.apart page
        cases pool with
        | kernel =>
            cases other with
            | kernel => exact different rfl
            | user => exact apart ⟨here, there⟩
        | user =>
            cases other with
            | kernel => exact apart ⟨there, here⟩
            | user => exact different rfl
      · cases asked

theorem PagePools.Follow.poolOf?_eq (follow : pools.Follow ledgers) (page : Address) :
    pools.poolOf? page = .ok (if (ledgers .user).Holds page then some .user
      else if (ledgers .kernel).Holds page then some .kernel else none) := by
  have user : pools.user.contains page = .ok (decide ((ledgers .user).Holds page)) :=
    PageRegion.contains_eq (follow.region .user) (follow.fits .user) page
  have kernel : pools.kernel.contains page = .ok (decide ((ledgers .kernel).Holds page)) :=
    PageRegion.contains_eq (follow.region .kernel) (follow.fits .kernel) page
  unfold PagePools.poolOf?
  rw [user, kernel]
  by_cases inUser : (ledgers .user).Holds page
  · rw [if_pos inUser, decide_eq_true inUser]
  · rw [if_neg inUser, decide_eq_false inUser]
    by_cases inKernel : (ledgers .kernel).Holds page
    · rw [if_pos inKernel, decide_eq_true inKernel]
    · rw [if_neg inKernel, decide_eq_false inKernel]

theorem PagePools.Follow.poolOf?_of_holds (follow : pools.Follow ledgers) {page : Address}
    {pool : PoolName} (holds : (ledgers pool).Holds page) :
    pools.poolOf? page = .ok (some pool) := by
  rw [follow.poolOf?_eq]
  cases pool with
  | kernel =>
      have notUser : ¬ (ledgers .user).Holds page := fun also => follow.apart page ⟨holds, also⟩
      rw [if_neg notUser, if_pos holds]
  | user => rw [if_pos holds]

theorem PagePools.region_setRegion (pools : PagePools) (pool : PoolName) (region : PageRegion) :
    (pools.setRegion pool region).region pool = region := by
  cases pool with
  | kernel => rfl
  | user => rfl

theorem PagePools.region_setRegion_other (pools : PagePools) {pool other : PoolName}
    (different : other ≠ pool) (region : PageRegion) :
    (pools.setRegion pool region).region other = pools.region other := by
  cases pool with
  | kernel =>
      cases other with
      | kernel => exact absurd rfl different
      | user => rfl
  | user =>
      cases other with
      | kernel => rfl
      | user => exact absurd rfl different

theorem PagePools.setRegion_region (pools : PagePools) (pool : PoolName) :
    pools.setRegion pool (pools.region pool) = pools := by
  cases pool with
  | kernel => rfl
  | user => rfl

theorem PagePools.Follow.serve_asked (follow : pools.Follow ledgers) {call : PoolCall}
    {pool : PoolName} {own : PageCall} (asked : (ledgers pool).asked? pool call = some own)
    {reply : PageReply} {region : PageRegion}
    (served : (pools.region pool).serve own = .ok (reply, region)) :
    pools.serve call = .ok (reply, pools.setRegion pool region) := by
  cases call with
  | obtain flags =>
      rw [PageLedger.asked?_obtain] at asked
      split at asked
      · next same =>
        cases asked
        unfold PagePools.serve PagePools.obtain
        unfold PageRegion.serve at served
        dsimp only at *
        rw [same]
        cases obtained : (pools.region pool).obtain with
        | error halt =>
            rw [obtained] at served
            cases served
        | ok result =>
            rw [obtained] at served
            cases result with
            | none =>
                cases served
                rw [PagePools.setRegion_region]
                rfl
            | some found =>
                cases served
                rfl
      · cases asked
  | release page =>
      rw [PageLedger.asked?_release] at asked
      split at asked
      · next holds =>
        cases asked
        cases served
        unfold PagePools.serve PagePools.release
        dsimp only
        rw [follow.poolOf?_of_holds holds]
        rfl
      · cases asked

theorem PagePools.Follow.serve_unasked (follow : pools.Follow ledgers) {call : PoolCall}
    (unasked : ∀ pool, (ledgers pool).asked? pool call = none) :
    pools.serve call = .ok (.released false, pools) := by
  cases call with
  | obtain flags =>
      have impossible := unasked flags.pool
      rw [PageLedger.asked?_obtain, if_pos rfl] at impossible
      cases impossible
  | release page =>
      have outside : ∀ pool, ¬ (ledgers pool).Holds page := by
        intro pool holds
        have impossible := unasked pool
        rw [PageLedger.asked?_release, if_pos holds] at impossible
        cases impossible
      unfold PagePools.serve PagePools.release
      dsimp only
      rw [follow.poolOf?_eq, if_neg (outside .user), if_neg (outside .kernel)]
      rfl

theorem PageLedger.reply?_of_asked {ledger : PageLedger} {pool : PoolName} {call : PoolCall}
    {own : PageCall} (asked : ledger.asked? pool call = some own) :
    ledger.reply? pool call = some (ledger.serve own).1 ∧
      ledger.past pool call = (ledger.serve own).2 := by
  unfold PageLedger.reply? PageLedger.past
  rw [asked]
  exact ⟨rfl, rfl⟩

theorem PageLedger.reply?_of_unasked {ledger : PageLedger} {pool : PoolName} {call : PoolCall}
    (unasked : ledger.asked? pool call = none) :
    ledger.reply? pool call = none ∧ ledger.past pool call = ledger := by
  unfold PageLedger.reply? PageLedger.past
  rw [unasked]
  exact ⟨rfl, rfl⟩

/-- What a call does to one of the regions: nothing, or what the region does when it is asked
alone. -/
def PageRegion.Passes (region after : PageRegion) : Option PageCall → Prop
  | none => after = region
  | some own => ∃ reply, region.serve own = .ok (reply, after)

theorem PagePools.Follow.past {after : PagePools} (follow : pools.Follow ledgers) {call : PoolCall}
    (regions : ∀ pool, (after.region pool).Follows ((ledgers pool).past pool call)) :
    after.Follow fun pool => (ledgers pool).past pool call := by
  constructor
  · exact regions
  · intro pool
    rw [PageLedger.past_base, PageLedger.past_total]
    exact follow.fits pool
  · intro page
    rw [PageLedger.past_holds, PageLedger.past_holds]
    exact follow.apart page

private theorem follow_addressed (follow : pools.Follow ledgers) {call : PoolCall} {pool : PoolName}
    {own : PageCall} (asked : (ledgers pool).asked? pool call = some own) :
    ∃ after, pools.serve call = .ok (((ledgers .kernel).reply? .kernel call <|>
        (ledgers .user).reply? .user call).getD (.released false), after) ∧
      after.Follow (fun pool => (ledgers pool).past pool call) ∧
      ∀ pool, (pools.region pool).Passes (after.region pool)
        ((ledgers pool).asked? pool call) := by
  obtain ⟨region, served, _, later⟩ := (follow.region pool).serve own
  have mine := PageLedger.reply?_of_asked asked
  have others : ∀ other, other ≠ pool → (ledgers other).asked? other call = none :=
    fun other different => follow.addressed_once different asked
  refine ⟨pools.setRegion pool region, ?_, follow.past ?_, ?_⟩
  · rw [follow.serve_asked asked served]
    cases pool with
    | kernel =>
        rw [mine.1]
        rfl
    | user =>
        have kernel := PageLedger.reply?_of_unasked (others .kernel (by decide))
        rw [kernel.1, mine.1]
        rfl
  · intro other
    by_cases same : other = pool
    · rw [same, PagePools.region_setRegion, mine.2]
      exact later
    · rw [PagePools.region_setRegion_other _ same,
        (PageLedger.reply?_of_unasked (others other same)).2]
      exact follow.region other
  · intro other
    by_cases same : other = pool
    · rw [same, PagePools.region_setRegion, asked]
      exact ⟨_, served⟩
    · rw [PagePools.region_setRegion_other _ same, others other same]
      exact rfl

theorem PagePools.Follow.serve (follow : pools.Follow ledgers) (call : PoolCall) :
    ∃ after, pools.serve call = .ok (((ledgers .kernel).reply? .kernel call <|>
        (ledgers .user).reply? .user call).getD (.released false), after) ∧
      after.Follow (fun pool => (ledgers pool).past pool call) ∧
      ∀ pool, (pools.region pool).Passes (after.region pool)
        ((ledgers pool).asked? pool call) := by
  by_cases addressed : ∃ pool own, (ledgers pool).asked? pool call = some own
  · obtain ⟨pool, own, asked⟩ := addressed
    exact follow_addressed follow asked
  · have unasked : ∀ pool, (ledgers pool).asked? pool call = none := by
      intro pool
      apply Option.eq_none_iff_forall_ne_some.mpr
      intro own asked
      exact addressed ⟨pool, own, asked⟩
    refine ⟨pools, ?_, follow.past ?_, ?_⟩
    · rw [follow.serve_unasked unasked, (PageLedger.reply?_of_unasked (unasked .kernel)).1,
        (PageLedger.reply?_of_unasked (unasked .user)).1]
      rfl
    · intro pool
      rw [(PageLedger.reply?_of_unasked (unasked pool)).2]
      exact follow.region pool
    · intro pool
      rw [unasked pool]
      exact rfl

end

/-- The page at an address was taken from the ledger and not given back yet. -/
def PageLedger.Lent (ledger : PageLedger) (value : Nat) : Prop :=
  ∃ index ∈ ledger.out, ledger.pageAt index = value

theorem PageLedger.lent_of_obtained {ledger : PageLedger} {value : Nat}
    (obtained : (ledger.serve .obtain).1 = .obtained (some value)) :
    (ledger.serve .obtain).2.Lent value := by
  unfold PageLedger.serve at *
  dsimp only at *
  split at obtained
  · cases obtained
  · next some_in =>
    cases obtained
    rw [if_neg some_in]
    exact ⟨ledger.next, Finset.mem_insert_self _ _, rfl⟩

theorem PageLedger.Lent.serve {ledger : PageLedger} {page : Address} (lent : ledger.Lent page.value)
    {call : PageCall} (kept : call ≠ .release page) : (ledger.serve call).2.Lent page.value := by
  obtain ⟨index, isOut, place⟩ := lent
  cases call with
  | obtain =>
      unfold PageLedger.serve
      dsimp only
      split
      · exact ⟨index, isOut, place⟩
      · exact ⟨index, Finset.mem_insert_of_mem isOut, place⟩
  | release other =>
      refine ⟨index, Finset.mem_filter.mpr ⟨isOut, ?_⟩, place⟩
      intro same
      rw [place] at same
      have equal : other = page := by
        cases other
        cases page
        cases same
        rfl
      exact kept (congrArg PageCall.release equal)

theorem PageLedger.Lent.past {ledger : PageLedger} {page : Address} (lent : ledger.Lent page.value)
    (pool : PoolName) {call : PoolCall} (kept : call ≠ .release page) :
    (ledger.past pool call).Lent page.value := by
  unfold PageLedger.past
  split
  · next own asked =>
    apply lent.serve
    intro same
    subst same
    cases call with
    | obtain flags =>
        rw [PageLedger.asked?_obtain] at asked
        split at asked
        · cases asked
        · cases asked
    | release other =>
        rw [PageLedger.asked?_release] at asked
        split at asked
        · cases asked
          exact kept rfl
        · cases asked
  · exact lent

theorem PageRegion.Follows.holds {region : PageRegion} {ledger : PageLedger}
    (follows : region.Follows ledger) {page : Address} (lent : ledger.Lent page.value) :
    ledger.Holds page := by
  obtain ⟨index, isOut, place⟩ := lent
  have inside := Finset.mem_range.mp (follows.inside isOut)
  unfold PageLedger.Holds
  unfold PageLedger.pageAt pageSize at *
  omega

/-! ### A sequence of calls -/

theorem PageLedger.past_asked? (ledger : PageLedger) (pool : PoolName) (call : PoolCall) :
    (ledger.past pool call).asked? pool = ledger.asked? pool := by
  funext other
  cases other with
  | obtain flags => rw [PageLedger.asked?_obtain, PageLedger.asked?_obtain]
  | release page =>
      rw [PageLedger.asked?_release, PageLedger.asked?_release]
      simp only [PageLedger.past_holds]

theorem serveApart_asked? (calls : List PoolCall) :
    ∀ (ledgers : PoolName → PageLedger) (pool : PoolName),
      ((serveApart ledgers calls).2 pool).asked? pool = (ledgers pool).asked? pool := by
  induction calls with
  | nil =>
      intro ledgers pool
      rfl
  | cons call calls ih =>
      intro ledgers pool
      exact (ih _ pool).trans ((ledgers pool).past_asked? pool call)

theorem serveApart_lent {page : Address} {pool : PoolName} (calls : List PoolCall) :
    ∀ ledgers : PoolName → PageLedger, (ledgers pool).Lent page.value → .release page ∉ calls →
      ((serveApart ledgers calls).2 pool).Lent page.value := by
  induction calls with
  | nil =>
      intro ledgers lent _
      exact lent
  | cons call calls ih =>
      intro ledgers lent kept
      rw [List.mem_cons, not_or] at kept
      apply ih
      · exact lent.past pool (Ne.symm kept.1)
      · exact kept.2

section

variable {pools : PagePools} {ledgers : PoolName → PageLedger}

theorem PagePools.Follow.serveAll (follow : pools.Follow ledgers) (calls : List PoolCall) :
    ∃ after, pools.serveAll calls = .ok ((serveApart ledgers calls).1, after) ∧
      after.Follow (serveApart ledgers calls).2 ∧
      ∀ pool, ∃ answers, KernelPaging.serveAll PageRegion.serve (pools.region pool)
        (calls.filterMap ((ledgers pool).asked? pool)) = .ok (answers, after.region pool) := by
  induction calls generalizing pools ledgers with
  | nil => exact ⟨pools, rfl, follow, fun pool => ⟨[], rfl⟩⟩
  | cons call calls ih =>
      obtain ⟨between, served, meanwhile, passes⟩ := follow.serve call
      obtain ⟨last, servedAll, lastly, passesAll⟩ := ih meanwhile
      refine ⟨last, ?_, lastly, ?_⟩
      · unfold PagePools.serveAll
        rw [served]
        simp only [bind, Except.bind, servedAll, meanwhile.answer]
        rfl
      · intro pool
        obtain ⟨answers, alone⟩ := passesAll pool
        rw [PageLedger.past_asked?] at alone
        have passed := passes pool
        rw [List.filterMap_cons]
        cases asked : (ledgers pool).asked? pool call with
        | none =>
            rw [asked] at passed
            have same : between.region pool = pools.region pool := passed
            rw [← same]
            exact ⟨answers, alone⟩
        | some own =>
            rw [asked] at passed
            obtain ⟨reply, ownServed⟩ := passed
            simp only [KernelPaging.serveAll, ownServed, bind, Except.bind, alone]
            exact ⟨_, rfl⟩

theorem PagePools.Follow.takes_back (follow : pools.Follow ledgers) {pool : PoolName}
    {page : Address} (lent : (ledgers pool).Lent page.value) :
    pools.poolOf? page = .ok (some pool) ∧
      ∃ region, pools.serve (.release page) =
        .ok (.released true, pools.setRegion pool region) := by
  have holds := (follow.region pool).holds lent
  have asked : (ledgers pool).asked? pool (.release page) = some (.release page) := by
    rw [PageLedger.asked?_release, if_pos holds]
  obtain ⟨region, served, _⟩ := (follow.region pool).serve (.release page)
  refine ⟨follow.poolOf?_of_holds holds, region, ?_⟩
  rw [follow.serve_asked asked served]
  have accepted : ((ledgers pool).serve (.release page)).1 = .released true :=
    congrArg PageReply.released (decide_eq_true lent)
  rw [accepted]

theorem PagePools.Follow.lends (follow : pools.Follow ledgers) {flags : PageFlags}
    {page : Address} {next : PagePools} (obtained : pools.obtain flags = .ok (some (page, next))) :
    next.Follow (fun pool => (ledgers pool).past pool (.obtain flags)) ∧
      ((ledgers flags.pool).past flags.pool (.obtain flags)).Lent page.value := by
  have asked : (ledgers flags.pool).asked? flags.pool (.obtain flags) = some .obtain := by
    rw [PageLedger.asked?_obtain, if_pos rfl]
  have result : pools.serve (.obtain flags) = .ok (.obtained (some page.value), next) := by
    unfold PagePools.serve
    dsimp only
    rw [obtained]
    rfl
  constructor
  · obtain ⟨after, answered, meanwhile, _⟩ := follow.serve (.obtain flags)
    have same := (Prod.mk.inj (Except.ok.inj (result.symm.trans answered))).2
    rw [same]
    exact meanwhile
  · obtain ⟨region, served, _⟩ := (follow.region flags.pool).serve .obtain
    have both := result.symm.trans (follow.serve_asked asked served)
    have reply := (Prod.mk.inj (Except.ok.inj both)).1
    rw [(PageLedger.reply?_of_asked asked).2]
    exact PageLedger.lent_of_obtained reply.symm

end

/-- Two pools with disjoint regions are two ledgers that know nothing of each other: replies, free
pages and the pages taken next are the same after every sequence of calls. A call changes no pool
that it is not addressed to, and a page goes back to the pool that it was taken from. -/
theorem PagePools.refines_ledgers {bases : PoolName → Address} {totals : PoolName → Nat}
    (aligned : ∀ pool, (bases pool).PageAligned)
    (canonical : ∀ pool index, index < totals pool →
      ∃ address : Address, address.value = (bases pool).value + index * pageSize)
    (fits : ∀ pool, (bases pool).value + totals pool * pageSize < 0x10000000000000000)
    (disjoint : ∀ page : Address, ¬ ((bases .kernel).value ≤ page.value ∧
      page.value < (bases .kernel).value + totals .kernel * pageSize ∧
      (bases .user).value ≤ page.value ∧
      page.value < (bases .user).value + totals .user * pageSize))
    (calls : List PoolCall) :
    let ledgers : PoolName → PageLedger :=
      fun pool => { base := (bases pool).value, total := totals pool }
    ∃ kernel user after, PageRegion.create (bases .kernel) (totals .kernel) = .ok kernel ∧
      PageRegion.create (bases .user) (totals .user) = .ok user ∧
      PagePools.serveAll ⟨kernel, user⟩ calls = .ok ((serveApart ledgers calls).1, after) ∧
      (∀ pool, ∃ answers,
        KernelPaging.serveAll PageRegion.serve (PagePools.region ⟨kernel, user⟩ pool)
          (calls.filterMap ((ledgers pool).asked? pool)) = .ok (answers, after.region pool)) ∧
      (∀ call, ∃ reply next, after.serve call = .ok (reply, next) ∧
        ∀ pool, (ledgers pool).asked? pool call = none → next.region pool = after.region pool) ∧
      ∀ pool flags page next, (ledgers pool).asked? pool (.obtain flags) = some .obtain →
        after.obtain flags = .ok (some (page, next)) → ∀ later, .release page ∉ later →
          ∃ answers last, next.serveAll later = .ok (answers, last) ∧
            last.poolOf? page = .ok (some pool) ∧
            ∃ region, last.serve (.release page) =
              .ok (.released true, last.setRegion pool region) := by
  intro ledgers
  obtain ⟨kernel, createdKernel, followsKernel⟩ :=
    PageRegion.create_follows (aligned .kernel) (canonical .kernel)
  obtain ⟨user, createdUser, followsUser⟩ :=
    PageRegion.create_follows (aligned .user) (canonical .user)
  have follow : PagePools.Follow ⟨kernel, user⟩ ledgers := by
    constructor
    · intro pool
      cases pool with
      | kernel => exact followsKernel
      | user => exact followsUser
    · exact fits
    · intro page both
      exact disjoint page ⟨both.1.1, both.1.2, both.2⟩
  obtain ⟨after, served, lastly, alone⟩ := follow.serveAll calls
  refine ⟨kernel, user, after, createdKernel, createdUser, served, alone, ?_, ?_⟩
  · intro call
    obtain ⟨next, answered, _, passes⟩ := lastly.serve call
    refine ⟨_, next, answered, ?_⟩
    intro pool unasked
    have passed := passes pool
    rw [serveApart_asked?, unasked] at passed
    exact passed
  · intro pool flags page next asked obtained later kept
    rw [PageLedger.asked?_obtain] at asked
    have same : flags.pool = pool := by
      by_contra different
      rw [if_neg different] at asked
      cases asked
    subst same
    obtain ⟨meanwhile, lent⟩ := lastly.lends obtained
    obtain ⟨last, servedLater, atLast, _⟩ := meanwhile.serveAll later
    exact ⟨_, last, servedLater, atLast.takes_back (serveApart_lent later _ lent kept)⟩

def neighbours : PoolName → Address
  | .kernel => ⟨0x200000000000, .inl (by decide)⟩
  | .user => ⟨0x200000001000, .inl (by decide)⟩

def neighbourPages : PoolName → Nat
  | .kernel => 1
  | .user => 2

/-- The first user page lies where the kernel pool ends, and goes back to the user pool. The kernel
pool, once empty, does not draw on the pages of its neighbour. -/
def neighbourCalls : List PoolCall :=
  [.obtain ⟨2⟩, .obtain ⟨0⟩, .obtain ⟨0⟩, .release (neighbours .user), .release (neighbours .user),
    .release ⟨0x200000000800, .inl (by decide)⟩, .release ⟨0x200000003000, .inl (by decide)⟩,
    .obtain ⟨3⟩]

theorem neighbours_served :
    ∃ kernel user after, PageRegion.create (neighbours .kernel) 1 = .ok kernel ∧
      PageRegion.create (neighbours .user) 2 = .ok user ∧
      PagePools.serveAll ⟨kernel, user⟩ neighbourCalls =
        .ok ([
          ⟨.obtained (some 0x200000001000), ⟨1, 1, some 0x200000000000⟩,
            ⟨2, 1, some 0x200000002000⟩⟩,
          ⟨.obtained (some 0x200000000000), ⟨1, 0, none⟩, ⟨2, 1, some 0x200000002000⟩⟩,
          ⟨.obtained none, ⟨1, 0, none⟩, ⟨2, 1, some 0x200000002000⟩⟩,
          ⟨.released true, ⟨1, 0, none⟩, ⟨2, 2, some 0x200000002000⟩⟩,
          ⟨.released false, ⟨1, 0, none⟩, ⟨2, 2, some 0x200000002000⟩⟩,
          ⟨.released false, ⟨1, 0, none⟩, ⟨2, 2, some 0x200000002000⟩⟩,
          ⟨.released false, ⟨1, 0, none⟩, ⟨2, 2, some 0x200000002000⟩⟩,
          ⟨.obtained (some 0x200000002000), ⟨1, 0, none⟩, ⟨2, 1, some 0x200000001000⟩⟩],
          after) := by
  have aligned : ∀ pool, (neighbours pool).PageAligned := by
    intro pool
    cases pool with
    | kernel => decide
    | user => decide
  have canonical : ∀ pool index, index < neighbourPages pool →
      ∃ address : Address, address.value = (neighbours pool).value + index * pageSize := by
    intro pool index inside
    cases pool with
    | kernel => exact ⟨⟨_, .inl (by dsimp [neighbours, neighbourPages, pageSize] at *; omega)⟩, rfl⟩
    | user => exact ⟨⟨_, .inl (by dsimp [neighbours, neighbourPages, pageSize] at *; omega)⟩, rfl⟩
  have fits : ∀ pool, (neighbours pool).value + neighbourPages pool * pageSize <
      0x10000000000000000 := by
    intro pool
    cases pool with
    | kernel => decide
    | user => decide
  have disjoint : ∀ page : Address, ¬ ((neighbours .kernel).value ≤ page.value ∧
      page.value < (neighbours .kernel).value + neighbourPages .kernel * pageSize ∧
      (neighbours .user).value ≤ page.value ∧
      page.value < (neighbours .user).value + neighbourPages .user * pageSize) := by
    intro page both
    dsimp [neighbours, neighbourPages, pageSize] at both
    omega
  obtain ⟨kernel, user, after, createdKernel, createdUser, served, _⟩ :=
    PagePools.refines_ledgers aligned canonical fits disjoint neighbourCalls
  refine ⟨kernel, user, after, createdKernel, createdUser, ?_⟩
  rw [served]
  apply congrArg fun answers => Except.ok (answers, after)
  decide +kernel

end KernelPaging
