import KernelPaging.Proofs.Bindings
import KernelPaging.Proofs.Holdings
import KernelPaging.Proofs.Supplies

/-!
Conservation of pages. When the table and its calls are the only users of a supply, the pages taken
from the user pool are exactly the pages they hold, each held once; so whatever they release is
accepted, and what they obtain is free.
-/

set_option autoImplicit false

namespace KernelPaging

variable {bits : Type}

def origin : List (Moment bits) → Traffic bits → Traffic bits
  | [], traffic => traffic
  | moment :: earlier, _ => origin earlier moment.before

def Event.isOutside : Event → Bool
  | .outside => true
  | _ => false

def Traffic.userPool (traffic : Traffic bits) : PageRegion :=
  traffic.subsystem.supply.serving .user

/-- The table started with an untouched user pool, and nobody else has used the supply. -/
structure Exclusive (history : List (Moment bits)) (traffic : Traffic bits) : Prop where
  untouched : (origin history traffic).userPool.Untouched
  undisturbed : ∀ moment ∈ history, moment.event.isOutside = true →
    moment.after.subsystem.supply = moment.before.subsystem.supply

theorem Exclusive.before {moment : Moment bits} {earlier : List (Moment bits)}
    {traffic : Traffic bits} (exclusive : Exclusive (moment :: earlier) traffic) :
    Exclusive earlier moment.before where
  untouched := exclusive.untouched
  undisturbed past member := exclusive.undisturbed past (List.mem_cons_of_mem _ member)

theorem Exclusive.at_moment {history earlier : List (Moment bits)} {traffic : Traffic bits}
    {moment : Moment bits} (exclusive : Exclusive history traffic)
    (past : moment :: earlier <:+ history) : Exclusive earlier moment.before := by
  induction history generalizing traffic with
  | nil => cases List.eq_nil_of_suffix_nil past
  | cons latest sooner ih =>
      cases List.suffix_cons_iff.mp past with
      | inl same =>
          cases same
          exact exclusive.before
      | inr before => exact ih exclusive.before before

/-- A step leaves the supply alone, takes a page from the user pool, or gives a page back. -/
inductive Moment.Draws (moment : Moment bits) : Prop
  | nothing : moment.event.obtained? = none → moment.event.released? = none →
      moment.after.subsystem.supply = moment.before.subsystem.supply → Draws moment
  | obtains {page : Address} {region : PageRegion} :
      moment.event.obtained? = some page → moment.event.released? = none →
      moment.before.userPool.obtain = .ok (some (page, region)) →
      moment.after.subsystem.supply =
        moment.before.subsystem.supply.setServing .user region → Draws moment
  | releases {page : Address} {outcome : ReleaseOutcome} :
      moment.event.obtained? = none → moment.event.released? = some page →
      moment.before.subsystem.supply.release page =
        .ok (outcome, moment.after.subsystem.supply) → Draws moment

theorem PageSupply.region_of_obtained {supply after : PageSupply} {flags : PageFlags}
    {page : Address} (obtained : supply.obtain flags.withUser = .ok (some (page, after))) :
    ∃ region, (supply.serving .user).obtain = .ok (some (page, region)) ∧
      after = supply.setServing .user region := by
  rw [PageSupply.obtain_withUser] at obtained
  split at obtained
  · cases obtained
  · cases obtained
  · next region found =>
    cases obtained
    exact ⟨region, found, rfl⟩

theorem Traffic.Step.draws [AccessedBits bits] {before after : Traffic bits} {event : Event}
    (step : before.Step event after)
    (undisturbed : event.isOutside = true → after.subsystem.supply = before.subsystem.supply) :
    Moment.Draws ⟨before, event, after⟩ := by
  cases step with
  | begin _ => exact .nothing rfl rfl rfl
  | outside _ => exact .nothing rfl rfl (undisturbed rfl)
  | proceed proceeds =>
      cases proceeds with
      | obtained obtained =>
          obtain ⟨region, found, same⟩ := PageSupply.region_of_obtained obtained
          exact .obtains rfl rfl found same
      | released released => exact .releases rfl rfl released
      | _ => exact .nothing rfl rfl rfl

theorem Event.lost_eq_nil {event : Event} (goesOn : event.halt? = none) : event.lost = [] := by
  unfold Event.lost
  split
  · cases goesOn
  · rfl

/-- The pages taken from the user pool are the pages that are held. -/
structure Traffic.Balanced (history : List (Moment bits)) (traffic : Traffic bits) : Prop where
  pool : (origin history traffic).userPool.Same traffic.userPool
  once : traffic.pages.Nodup
  taken : ∀ page, page ∈ traffic.pages ↔ traffic.userPool.Taken page
  counted : traffic.userPool.bitmap.free + traffic.pages.length = traffic.userPool.bitmap.total
  kernel : traffic.subsystem.supply.kernelPool? =
    (origin history traffic).subsystem.supply.kernelPool?
  out : ∀ page, Out page history → page ∈ traffic.pages

section OneStep

variable {moment : Moment bits} {earlier : List (Moment bits)}

private theorem balanced_still (balanced : moment.before.Balanced earlier)
    (supply : moment.after.subsystem.supply = moment.before.subsystem.supply)
    (moved : moment.after.pages.Perm moment.before.pages)
    (obtained : moment.event.obtained? = none) :
    moment.after.Balanced (moment :: earlier) := by
  have pool : moment.after.userPool = moment.before.userPool := by
    unfold Traffic.userPool
    rw [supply]
  constructor
  · rw [pool]
    exact balanced.pool
  · exact moved.nodup_iff.mpr balanced.once
  · intro page
    rw [moved.mem_iff, pool]
    exact balanced.taken page
  · rw [moved.length_eq, pool]
    exact balanced.counted
  · rw [supply]
    exact balanced.kernel
  · intro page out
    apply moved.mem_iff.mpr
    cases out with
    | inl now => cases obtained.symm.trans now
    | inr before => exact balanced.out page before.2

theorem PageRegion.Same.trans {region middle after : PageRegion} (first : region.Same middle)
    (second : middle.Same after) : region.Same after where
  base := second.base.trans first.base
  total := second.total.trans first.total
  legal := second.legal

private theorem balanced_obtained {page : Address} {region : PageRegion}
    (balanced : moment.before.Balanced earlier)
    (obtained : moment.before.userPool.obtain = .ok (some (page, region)))
    (supply : moment.after.subsystem.supply =
      moment.before.subsystem.supply.setServing .user region)
    (moved : (page :: moment.before.pages).Perm moment.after.pages)
    (happened : moment.event.obtained? = some page) :
    moment.after.Balanced (moment :: earlier) := by
  have pool : moment.after.userPool = region := by
    unfold Traffic.userPool
    rw [supply]
    exact PageSupply.serving_setServing _ _ _
  have spec : moment.before.userPool.Same region ∧
      region.bitmap.free + 1 = moment.before.userPool.bitmap.free ∧
      ¬ moment.before.userPool.Taken page ∧
      ∀ other, region.Taken other ↔ other = page ∨ moment.before.userPool.Taken other := by
    cases PageRegion.obtain_spec balanced.pool.legal with
    | inl nothing => cases nothing.symm.trans obtained
    | inr something =>
        obtain ⟨_, _, found, spec⟩ := something
        cases found.symm.trans obtained
        exact spec
  obtain ⟨same, free, wasFree, taken⟩ := spec
  have fresh : page ∉ moment.before.pages := by
    rw [balanced.taken]
    exact wasFree
  constructor
  · rw [pool]
    exact balanced.pool.trans same
  · exact moved.nodup_iff.mp (List.nodup_cons.mpr ⟨fresh, balanced.once⟩)
  · intro other
    rw [← moved.mem_iff, List.mem_cons, pool, taken, balanced.taken]
  · rw [← moved.length_eq, List.length_cons, pool, same.total]
    have counted := balanced.counted
    omega
  · rw [supply, PageSupply.kernelPool?_setServing]
    exact balanced.kernel
  · intro other out
    rw [← moved.mem_iff, List.mem_cons]
    cases out with
    | inl now => exact .inl (Option.some.inj (now.symm.trans happened))
    | inr before => exact .inr (balanced.out other before.2)

theorem Traffic.Balanced.accepted {traffic : Traffic bits} {history : List (Moment bits)}
    (balanced : traffic.Balanced history) {page : Address} (held : page ∈ traffic.pages) :
    ∃ region, traffic.subsystem.supply.release page =
        .ok (.accepted, traffic.subsystem.supply.setServing .user region) ∧
      traffic.userPool.Same region ∧ region.bitmap.free = traffic.userPool.bitmap.free + 1 ∧
      ∀ other, region.Taken other ↔ other ≠ page ∧ traffic.userPool.Taken other := by
  have taken := (balanced.taken page).mp held
  have legal := balanced.pool.legal
  obtain ⟨region, released, spec⟩ := PageRegion.release_spec legal taken
  have accepted := PageSupply.release_taken legal taken
  unfold Traffic.userPool at released
  rw [released] at accepted
  exact ⟨region, accepted, spec⟩

private theorem balanced_released {page : Address} {outcome : ReleaseOutcome}
    (balanced : moment.before.Balanced earlier)
    (released : moment.before.subsystem.supply.release page =
      .ok (outcome, moment.after.subsystem.supply))
    (moved : moment.before.pages.Perm (page :: moment.after.pages))
    (obtained : moment.event.obtained? = none)
    (happened : moment.event.released? = some page) :
    moment.after.Balanced (moment :: earlier) := by
  have held : page ∈ moment.before.pages := moved.symm.subset List.mem_cons_self
  obtain ⟨region, accepted, same, free, taken⟩ := balanced.accepted held
  have supply : moment.after.subsystem.supply =
      moment.before.subsystem.supply.setServing .user region := by
    have both := accepted.symm.trans released
    exact ((Prod.mk.inj (Except.ok.inj both)).2).symm
  have pool : moment.after.userPool = region := by
    unfold Traffic.userPool
    rw [supply]
    exact PageSupply.serving_setServing _ _ _
  have apart := List.nodup_cons.mp (moved.nodup_iff.mp balanced.once)
  have others : ∀ other, other ∈ moment.after.pages ↔
      other ≠ page ∧ other ∈ moment.before.pages := by
    intro other
    rw [moved.mem_iff, List.mem_cons]
    constructor
    · intro still
      exact ⟨fun equal => apart.1 (equal ▸ still), .inr still⟩
    · intro both
      exact both.2.resolve_left both.1
  constructor
  · rw [pool]
    exact balanced.pool.trans same
  · exact apart.2
  · intro other
    rw [others, pool, taken, balanced.taken]
  · have counted := balanced.counted
    rw [moved.length_eq, List.length_cons] at counted
    rw [pool, same.total]
    omega
  · rw [supply, PageSupply.kernelPool?_setServing]
    exact balanced.kernel
  · intro other out
    rw [others]
    cases out with
    | inl now => cases obtained.symm.trans now
    | inr before =>
        refine ⟨?_, balanced.out other before.2⟩
        intro equal
        subst equal
        exact before.1 happened

theorem Moment.Draws.balanced (draws : moment.Draws)
    (moved : (moment.event.obtained?.toList ++ moment.before.pages).Perm
      (moment.event.released?.toList ++ (moment.event.lost ++ moment.after.pages)))
    (goesOn : moment.event.halt? = none) (balanced : moment.before.Balanced earlier) :
    moment.after.Balanced (moment :: earlier) := by
  rw [Event.lost_eq_nil goesOn] at moved
  cases draws with
  | nothing obtained released supply =>
      rw [obtained, released] at moved
      exact balanced_still balanced supply moved.symm obtained
  | obtains obtained released found supply =>
      rw [obtained, released] at moved
      exact balanced_obtained balanced found supply moved obtained
  | releases obtained released accepted =>
      rw [obtained, released] at moved
      exact balanced_released balanced accepted moved obtained released

end OneStep

theorem Traffic.mem_pages_iff {traffic : Traffic bits} {page : Address} :
    page ∈ traffic.pages ↔
      (∃ slot frame, traffic.resident slot = some frame ∧ frame.kpage = page) ∨
        ∃ call ∈ traffic.calls, page ∈ call.pages := by
  unfold Traffic.pages
  rw [List.mem_append, List.mem_flatMap, FrameTable.mem_pages_iff, or_comm]
  rfl

section Runs

variable [AccessedBits bits] {history : List (Moment bits)} {traffic : Traffic bits}

theorem Traffic.Run.balanced (run : Traffic.Run history traffic)
    (exclusive : Exclusive history traffic)
    (goesOn : ∀ moment ∈ history, moment.event.halt? = none) : traffic.Balanced history := by
  induction run with
  | @start subsystem empty =>
      have pages : Traffic.pages { subsystem } = [] := by
        unfold Traffic.pages
        rw [empty]
        rfl
      have untouched := exclusive.untouched
      constructor
      · exact ⟨rfl, rfl, untouched.toLegal⟩
      · rw [pages]
        exact List.nodup_nil
      · intro page
        rw [pages]
        constructor
        · intro impossible
          cases impossible
        · intro taken
          exact absurd taken (untouched.not_taken page)
      · rw [pages]
        exact untouched.free
      · rfl
      · intro page impossible
        cases impossible
  | step run step ih =>
      have draws := step.draws (exclusive.undisturbed _ List.mem_cons_self)
      have sooner := ih exclusive.before fun moment past =>
        goesOn moment (List.mem_cons_of_mem _ past)
      exact draws.balanced (step.pages run.sound.wellFormed) (goesOn _ List.mem_cons_self) sooner

theorem Traffic.Run.handsOutFree (run : Traffic.Run history traffic)
    (exclusive : Exclusive history traffic)
    (goesOn : ∀ moment ∈ history, moment.event.halt? = none) : HandsOutFree history := by
  induction run with
  | start _ => trivial
  | @step earlier before after event run step ih =>
      have later : ∀ moment ∈ earlier, moment.event.halt? = none := by
        intro moment past
        exact goesOn moment (List.mem_cons_of_mem _ past)
      refine ⟨?_, ih exclusive.before later⟩
      intro page obtained out
      have balanced := run.balanced exclusive.before later
      have held := balanced.out page out
      have moved := step.pages run.sound.wellFormed
      have after := (run.step step).balanced exclusive goesOn
      have draws := step.draws (exclusive.undisturbed _ List.mem_cons_self)
      rw [Event.lost_eq_nil (goesOn _ List.mem_cons_self), obtained] at moved
      cases draws with
      | nothing none _ _ | releases none _ _ => cases none.symm.trans obtained
      | obtains _ released _ _ =>
          rw [released] at moved
          exact (List.nodup_cons.mp (moved.symm.nodup_iff.mp after.once)).1 held

theorem Traffic.Run.release_accepted (run : Traffic.Run history traffic)
    (exclusive : Exclusive history traffic)
    (goesOn : ∀ moment ∈ history, moment.event.halt? = none) {moment : Moment bits}
    (member : moment ∈ history) {page : Address} (released : moment.event.released? = some page) :
    moment.before.subsystem.supply.release page =
      .ok (.accepted, moment.after.subsystem.supply) := by
  obtain ⟨earlier, past⟩ := exists_suffix_of_mem member
  obtain ⟨ran, step⟩ := run.at_moment past
  have sooner : ∀ moment ∈ earlier, moment.event.halt? = none := by
    intro moment before
    exact goesOn moment (past.subset (List.mem_cons_of_mem _ before))
  have balanced := ran.balanced (exclusive.at_moment past) sooner
  have moved := step.pages ran.sound.wellFormed
  cases step.draws (exclusive.undisturbed moment member) with
  | nothing _ none _ | obtains _ none _ _ => cases none.symm.trans released
  | releases obtained same answered =>
      rw [obtained, released] at moved
      obtain ⟨region, accepted, _⟩ := balanced.accepted (moved.symm.subset List.mem_cons_self)
      cases same.symm.trans released
      have outcome := (Prod.mk.inj (Except.ok.inj (accepted.symm.trans answered))).1
      rw [← outcome] at answered
      exact answered

/-- The pages taken from the user pool are those behind resident frames and those in the hands of
calls, each once. So no page is leaked or given back twice, and the kernel pool is left alone. -/
theorem Traffic.Run.pages_conserved (run : Traffic.Run history traffic)
    (exclusive : Exclusive history traffic)
    (goesOn : ∀ moment ∈ history, moment.event.halt? = none) :
    traffic.pages.Nodup ∧
    (∀ page, traffic.userPool.Taken page ↔
      (∃ slot frame, traffic.resident slot = some frame ∧ frame.kpage = page) ∨
        ∃ call ∈ traffic.calls, page ∈ call.pages) ∧
    traffic.userPool.bitmap.free + traffic.pages.length = traffic.userPool.bitmap.total ∧
    traffic.userPool.bitmap.total = (origin history traffic).userPool.bitmap.total ∧
    (traffic.calls = [] → traffic.userPool.bitmap.free + traffic.subsystem.frames.count =
      traffic.userPool.bitmap.total) ∧
    (∀ slot other frame otherFrame, traffic.resident slot = some frame →
      traffic.resident other = some otherFrame → frame.kpage = otherFrame.kpage → slot = other) ∧
    (∀ moment ∈ history, ∀ page, moment.event.released? = some page →
      moment.before.subsystem.supply.release page =
        .ok (.accepted, moment.after.subsystem.supply)) ∧
    (∀ pages answer, .release pages answer ∈ traffic.calls → ∀ page ∈ pages,
      ∃ supply, traffic.subsystem.supply.release page = .ok (.accepted, supply)) ∧
    traffic.subsystem.supply.kernelPool? =
      (origin history traffic).subsystem.supply.kernelPool? := by
  have balanced := run.balanced exclusive goesOn
  refine ⟨balanced.once, ?_, balanced.counted, balanced.pool.total, ?_, ?_, ?_, ?_,
    balanced.kernel⟩
  · intro page
    rw [← balanced.taken, Traffic.mem_pages_iff]
  · intro idle
    have counted := balanced.counted
    unfold Traffic.pages at counted
    rw [idle, List.flatMap_nil, List.nil_append,
      FrameTable.pages_length run.sound.wellFormed] at counted
    exact counted
  · intro slot other frame otherFrame here there same
    exact FrameTable.slot_eq_of_kpage (List.nodup_append.mp balanced.once).2.1 here there same
  · intro moment member page released
    exact run.release_accepted exclusive goesOn member released
  · intro pages answer underWay page inHand
    have held : page ∈ traffic.pages :=
      Traffic.mem_pages_iff.mpr (.inr ⟨_, underWay, inHand⟩)
    obtain ⟨region, accepted, _⟩ := balanced.accepted held
    exact ⟨_, accepted⟩

end Runs

theorem origin_play [AccessedBits bits] (moves : List Move) :
    ∀ (history : List (Moment bits)) (traffic : Traffic bits),
      origin (Traffic.play moves (history, traffic)).1 (Traffic.play moves (history, traffic)).2 =
        origin history traffic := by
  induction moves with
  | nil =>
      intro history traffic
      rfl
  | cons move moves ih =>
      intro history traffic
      unfold Traffic.play
      cases traffic.perform move with
      | none => exact ih history traffic
      | some next => exact ih (⟨traffic, next.1, next.2⟩ :: history) next.2

theorem Traffic.idle_untouched {pages : Nat} (few : pages ≤ 0x800000000) :
    (Traffic.idle pages).userPool.Untouched := by
  constructor
  · constructor
    · intro index within
      have inside : index < pages := within
      refine ⟨⟨index * pageSize, .inl ?_⟩, (Nat.zero_add _).symm⟩
      unfold pageSize
      omega
    · change 0 + pages * 4096 < 0x10000000000000000
      omega
    · exact Bitmap.allFree_covers pages
  · exact Bitmap.allFree_isFree pages
  · rfl

/-- A writeback fails and a second one succeeds, then a frame is freed and another one torn down,
under an entry that its table has twice. Both pages are still in the hands of those calls. -/
def Traffic.emptied : List (Moment TouchedSet) × Traffic TouchedSet :=
  Traffic.play
    (Move.through (.obtain (.simple 1)) 3 ++ Move.through (.obtain (.simple 2)) 3 ++
      Move.through (.unpin ⟨1, 0⟩) 1 ++ Move.through (.obtain (.simple 3)) 3 ++
      [.proceed 0 false, .proceed 0 false] ++ Move.through (.obtain (.simple 3)) 6 ++
      Move.through (.unpin ⟨1, 1⟩) 1 ++ Move.through (.free (some ⟨1, 1⟩)) 1 ++
      Move.through (.tearDown ⟨1⟩ [some ⟨0, 0⟩, none, some ⟨0, 0⟩]) 1)
    ([], Traffic.idle 2)

theorem Traffic.run_emptied : Traffic.Run Traffic.emptied.1 Traffic.emptied.2 :=
  (Traffic.run_idle 2).play _

theorem Traffic.emptied_conserved :
    Exclusive Traffic.emptied.1 Traffic.emptied.2 ∧
      (∀ moment ∈ Traffic.emptied.1, moment.event.halt? = none) ∧
      Traffic.emptied.2.subsystem.frames.count = 0 ∧ Traffic.emptied.2.calls.length = 2 ∧
      Traffic.emptied.2.pages.length = 2 ∧ Traffic.emptied.2.pages.Nodup := by
  have inside : ∀ moment ∈ Traffic.emptied.1, moment.event.isOutside = false := by
    decide +kernel
  have goesOn : ∀ moment ∈ Traffic.emptied.1, moment.event.halt? = none := by
    decide +kernel
  have exclusive : Exclusive Traffic.emptied.1 Traffic.emptied.2 := by
    constructor
    · have few : 2 ≤ 0x800000000 := by decide
      unfold Traffic.emptied
      rw [origin_play]
      exact Traffic.idle_untouched few
    · intro moment member outside
      cases (inside moment member).symm.trans outside
  have conserved := Traffic.run_emptied.pages_conserved exclusive goesOn
  exact ⟨exclusive, goesOn, by decide +kernel, by decide +kernel, by decide +kernel,
    conserved.1⟩

end KernelPaging
