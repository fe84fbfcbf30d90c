import Mathlib.Data.List.Nodup
import KernelPaging.Proofs.Effects

/-!
Who holds which page. A page the supply has handed out is behind a resident frame, or in the hands
of a call: one that has obtained it and not bound it yet, or one that has taken its frame out and
not released it yet. A step moves pages between these places; it gains a page only from the supply,
and loses one only to the supply, or with a call that stops.
-/

set_option autoImplicit false

namespace KernelPaging

def FrameTable.kpageAt? (table : FrameTable) (slot : Nat) : Option Address :=
  (table.frameAt? slot).map Frame.kpage

def FrameTable.pages (table : FrameTable) : List Address :=
  (List.range table.slots.size).filterMap table.kpageAt?

theorem FrameTable.lt_size_of_frameAt {table : FrameTable} {slot : Nat} {frame : Frame}
    (resident : table.frameAt? slot = some frame) : slot < table.slots.size := by
  obtain ⟨occupant, found, _⟩ := FrameTable.frameAt?_eq_some_iff.mp resident
  exact FrameTable.lt_size_of_occupant found

theorem FrameTable.mem_pages_iff {table : FrameTable} {page : Address} :
    page ∈ table.pages ↔ ∃ slot frame, table.frameAt? slot = some frame ∧ frame.kpage = page := by
  unfold FrameTable.pages FrameTable.kpageAt?
  simp only [List.mem_filterMap, List.mem_range, Option.map_eq_some_iff]
  constructor
  · intro held
    obtain ⟨slot, _, frame, resident, same⟩ := held
    exact ⟨slot, frame, resident, same⟩
  · intro held
    obtain ⟨slot, frame, resident, same⟩ := held
    exact ⟨slot, FrameTable.lt_size_of_frameAt resident, frame, resident, same⟩

theorem FrameTable.slot_eq_of_kpage {table : FrameTable} (once : table.pages.Nodup)
    {left right : Nat} {leftFrame rightFrame : Frame}
    (leftResident : table.frameAt? left = some leftFrame)
    (rightResident : table.frameAt? right = some rightFrame)
    (same : leftFrame.kpage = rightFrame.kpage) : left = right := by
  have apart := List.pairwise_filterMap.mp once
  by_contra different
  have leftPage : table.kpageAt? left = some leftFrame.kpage := by
    unfold FrameTable.kpageAt?
    rw [leftResident, Option.map_some]
  have rightPage : table.kpageAt? right = some rightFrame.kpage := by
    unfold FrameTable.kpageAt?
    rw [rightResident, Option.map_some]
  have symmetric : Std.Symm fun one other : Nat => ∀ page, table.kpageAt? one = some page →
      ∀ page', table.kpageAt? other = some page' → page ≠ page' := by
    constructor
    intro one other pages page found page' found' equal
    exact pages page' found' page found equal.symm
  have leftWithin := List.mem_range.mpr (FrameTable.lt_size_of_frameAt leftResident)
  have rightWithin := List.mem_range.mpr (FrameTable.lt_size_of_frameAt rightResident)
  exact apart.forall leftWithin rightWithin different _ leftPage _ rightPage same

theorem FrameTable.pages_length {table : FrameTable} (wellFormed : table.WellFormed) :
    table.pages.length = table.count := by
  have occupied : table.pages.length =
      ((List.range table.slots.size).filter fun slot => (table.occupant? slot).isSome).length := by
    unfold FrameTable.pages
    rw [List.length_filterMap_eq_countP, List.countP_eq_length_filter]
    congr 2
    funext slot
    unfold FrameTable.kpageAt? FrameTable.frameAt?
    rw [Option.isSome_map, Option.isSome_map]
  have ring : ((List.range table.slots.size).filter fun slot =>
      (table.occupant? slot).isSome).Perm table.ring := by
    apply (List.perm_ext_iff_of_nodup (List.nodup_range.filter _) wellFormed.distinct).mpr
    intro slot
    rw [List.mem_filter, List.mem_range, wellFormed.occupied, and_iff_right_iff_imp]
    intro present
    obtain ⟨occupant, found⟩ := Option.isSome_iff_exists.mp present
    exact FrameTable.lt_size_of_occupant found
  rw [occupied, ring.length_eq, wellFormed.count]

private theorem filterMap_update {values : Nat → Option Address} {index : Nat}
    (value : Option Address) {slots : List Nat} (distinct : slots.Nodup) (member : index ∈ slots) :
    ((values index).toList ++ slots.filterMap (Function.update values index value)).Perm
      (value.toList ++ slots.filterMap values) := by
  have front := List.perm_cons_erase member
  have others : (slots.erase index).filterMap (Function.update values index value) =
      (slots.erase index).filterMap values := by
    apply List.filterMap_congr
    intro slot inside
    have different : slot ≠ index := by
      intro same
      subst same
      exact distinct.not_mem_erase inside
    rw [Function.update_of_ne different]
  have changed : (slots.filterMap (Function.update values index value)).Perm
      (value.toList ++ (slots.erase index).filterMap values) := by
    have moved := front.filterMap (Function.update values index value)
    rw [List.filterMap_cons, Function.update_self, others] at moved
    cases value with
    | none => exact moved
    | some page => exact moved
  have unchanged : (slots.filterMap values).Perm
      ((values index).toList ++ (slots.erase index).filterMap values) := by
    have moved := front.filterMap values
    rw [List.filterMap_cons] at moved
    cases was : values index with
    | none =>
        rw [was] at moved
        exact moved
    | some page =>
        rw [was] at moved
        exact moved
  apply (changed.append_left _).trans
  apply (List.perm_append_comm_assoc _ _ _).trans
  exact (unchanged.symm.append_left _)

private theorem pages_upTo (table : FrameTable) (bound : Nat) (within : table.slots.size ≤ bound) :
    (List.range bound).filterMap table.kpageAt? = table.pages := by
  induction bound, within using Nat.le_induction with
  | base => rfl
  | succ bound within ih =>
      have empty : table.kpageAt? bound = none := by
        unfold FrameTable.kpageAt?
        rw [Option.map_eq_none_iff, Option.eq_none_iff_forall_ne_some]
        intro frame resident
        have inside := FrameTable.lt_size_of_frameAt resident
        omega
      rw [List.range_succ, List.filterMap_append, ih, List.filterMap_cons, empty]
      simp only [List.filterMap_nil, List.append_nil]

/-- The page behind the slot that changes is exchanged for the one that is there now. -/
theorem FrameTable.pages_exchanged {table after : FrameTable} {slot : Nat} {value : Option Frame}
    (changed : after.frameAt? = Function.update table.frameAt? slot value) :
    ((table.kpageAt? slot).toList ++ after.pages).Perm
      ((value.map Frame.kpage).toList ++ table.pages) := by
  have kpages : after.kpageAt? =
      Function.update table.kpageAt? slot (value.map Frame.kpage) := by
    funext other
    unfold FrameTable.kpageAt?
    rw [changed]
    by_cases same : other = slot
    · subst same
      rw [Function.update_self, Function.update_self]
    · rw [Function.update_of_ne same, Function.update_of_ne same]
  have before := pages_upTo table (table.slots.size + after.slots.size + slot + 1) (by omega)
  have afterwards := pages_upTo after (table.slots.size + after.slots.size + slot + 1) (by omega)
  rw [← before, ← afterwards, kpages]
  apply filterMap_update _ List.nodup_range
  rw [List.mem_range]
  omega

theorem FrameTable.pages_kept {table after : FrameTable} {slot : Nat} {value : Option Frame}
    (changed : after.frameAt? = Function.update table.frameAt? slot value)
    (same : value.map Frame.kpage = table.kpageAt? slot) : after.pages.Perm table.pages := by
  have exchanged := FrameTable.pages_exchanged changed
  rw [same] at exchanged
  exact (List.perm_append_left_iff _).mp exchanged

theorem FrameTable.pages_same {table after : FrameTable}
    (same : after.frameAt? = table.frameAt?) : after.pages.Perm table.pages := by
  have changed : after.frameAt? = Function.update table.frameAt? 0 (table.frameAt? 0) := by
    rw [Function.update_eq_self]
    exact same
  exact FrameTable.pages_kept changed rfl

theorem FrameTable.pages_removeNamed (entries : List (Option FrameId)) :
    ∀ table : FrameTable, table.WellFormed →
      ((table.removeNamed entries).1.map FrameRecord.kpage ++
        (table.removeNamed entries).2.pages).Perm table.pages := by
  induction entries with
  | nil =>
      intro table _
      exact List.Perm.refl _
  | cons entry entries ih =>
      intro table wellFormed
      cases entry with
      | none => exact ih table wellFormed
      | some id =>
          unfold FrameTable.removeNamed
          cases removed : table.remove id with
          | none => exact ih table wellFormed
          | some result =>
              obtain ⟨record, middle⟩ := result
              have spec := FrameTable.remove_spec wellFormed removed
              have rest := ih middle spec.2.2.2
              have exchanged := FrameTable.pages_exchanged spec.2.1
              unfold FrameTable.kpageAt? at exchanged
              rw [spec.1] at exchanged
              exact (rest.cons record.kpage).trans exchanged

/-! ### Pages in the hands of calls -/

def Call.pages : Call → List Address
  | .bind _ kpage => [kpage]
  | .release pages _ => pages
  | _ => []

/-- Every page that is behind a resident frame or in the hands of a call. -/
def Traffic.pages {bits : Type} (traffic : Traffic bits) : List Address :=
  traffic.calls.flatMap Call.pages ++ traffic.subsystem.frames.pages

def Event.obtained? : Event → Option Address
  | .went (.obtain _) (.goesOn (.bind _ kpage)) => some kpage
  | _ => none

def Event.released? : Event → Option Address
  | .went (.release (page :: _) _) (.goesOn _) => some page
  | _ => none

/-- The pages that a call has in hand as it stops. -/
def Event.lost : Event → List Address
  | .went call (.ends (.stopped _)) => call.pages
  | _ => []

section OneStep

variable {bits : Type} [AccessedBits bits]

private theorem finished_pages {table after : FrameTable} {eviction : Eviction}
    {owner : ThreadId} {uaddr : Address} {written : Bool} {ending : EvictionEnd}
    (finished : table.Finished eviction owner uaddr written ending after) :
    after.pages.Perm table.pages := by
  cases finished with
  | rebound resident frameIs map =>
      apply FrameTable.pages_kept map
      unfold FrameTable.kpageAt?
      rw [resident, frameIs]
      rfl
  | vanished _ map => exact FrameTable.pages_same map
  | kept map =>
      apply FrameTable.pages_kept map
      rw [Option.map_map]
      rfl

theorem Call.Proceeds.pages {before after : Subsystem bits} {call : Call} {outcome : Outcome}
    (proceeds : call.Proceeds before outcome after) (wellFormed : before.frames.WellFormed) :
    ((Event.went call outcome).obtained?.toList ++ (call.pages ++ before.frames.pages)).Perm
      ((Event.went call outcome).released?.toList ++ ((Event.went call outcome).lost ++
        (outcome.calls.flatMap Call.pages ++ after.frames.pages))) := by
  cases proceeds with
  | bound enrolled =>
      have spec := FrameTable.enroll_spec wellFormed enrolled
      have exchanged := FrameTable.pages_exchanged spec.2.2.2.1
      unfold FrameTable.kpageAt? at exchanged
      rw [spec.2.1, spec.2.2.1] at exchanged
      exact exchanged.symm
  | selected started _ =>
      obtain ⟨frame, resident, _, _, map, _⟩ := FrameTable.startEviction_spec wellFormed started
      apply (FrameTable.pages_kept map _).symm
      unfold FrameTable.kpageAt?
      rw [resident]
      rfl
  | unselected started =>
      exact (FrameTable.pages_same
        (FrameTable.startEviction_failed wellFormed started).1).symm
  | rebound finished | kept finished | vanished finished =>
      exact (finished_pages (FrameTable.finishEviction_spec wellFormed finished).1).symm
  | freedStale detached | freedPinned detached =>
      have same := FrameTable.detach_kept detached (by simp)
      rw [same]
      exact List.Perm.refl _
  | freed detached =>
      have spec := FrameTable.remove_spec wellFormed (FrameTable.detach_removed detached).1
      have exchanged := FrameTable.pages_exchanged spec.2.1
      unfold FrameTable.kpageAt? at exchanged
      rw [spec.1] at exchanged
      exact exchanged.symm
  | unpinned unpinned =>
      obtain ⟨⟨frame, resident, _, _, map⟩, _⟩ := FrameTable.unpin_spec wellFormed unpinned
      apply (FrameTable.pages_kept map _).symm
      unfold FrameTable.kpageAt?
      rw [resident]
      rfl
  | @tornDown _ table _ =>
      have torn := FrameTable.pages_removeNamed table before.frames wellFormed
      simpa [Event.obtained?, Event.released?, Event.lost, Call.pages, Outcome.calls] using
        torn.symm
  | released _ | releaseStops _ =>
      simp [Event.obtained?, Event.released?, Event.lost, Call.pages, Outcome.calls]
  | releasedAll answer =>
      cases answer with
      | _ => exact List.Perm.refl _
  | _ => exact List.Perm.refl _

theorem Traffic.Step.pages {before after : Traffic bits} {event : Event}
    (step : before.Step event after) (wellFormed : before.subsystem.frames.WellFormed) :
    (event.obtained?.toList ++ before.pages).Perm
      (event.released?.toList ++ (event.lost ++ after.pages)) := by
  cases step with
  | @begin _ call entry =>
      have none : call.pages = [] := by
        cases call with
        | bind | release => cases entry
        | _ => rfl
      unfold Traffic.pages
      rw [List.flatMap_cons, none]
      exact List.Perm.refl _
  | outside same =>
      unfold Traffic.pages
      rw [same]
      exact List.Perm.refl _
  | @proceed subsystem later call outcome earlier rest proceeds =>
      have moved := proceeds.pages wellFormed
      rw [List.perm_iff_count] at moved ⊢
      intro page
      have here := moved page
      unfold Traffic.pages
      simp only [List.flatMap_append, List.flatMap_cons, List.count_append] at here ⊢
      omega

end OneStep

section History

variable {bits : Type}

/-- The supply has handed out the page, and it was not given back since. -/
def Out (page : Address) : List (Moment bits) → Prop
  | [] => False
  | moment :: earlier =>
      moment.event.obtained? = some page ∨
        moment.event.released? ≠ some page ∧ Out page earlier

def HandsOutFree : List (Moment bits) → Prop
  | [] => True
  | moment :: earlier =>
      (∀ page ∈ moment.event.obtained?, ¬ Out page earlier) ∧ HandsOutFree earlier

instance Out.decidable (page : Address) :
    (history : List (Moment bits)) → Decidable (Out page history)
  | [] => inferInstanceAs (Decidable False)
  | _ :: earlier =>
      have := Out.decidable page earlier
      inferInstanceAs (Decidable (_ ∨ _ ∧ _))

instance HandsOutFree.decidable :
    (history : List (Moment bits)) → Decidable (HandsOutFree history)
  | [] => inferInstanceAs (Decidable True)
  | _ :: earlier =>
      have := HandsOutFree.decidable earlier
      inferInstanceAs (Decidable (_ ∧ _))

/-- Every page that the table and its calls hold is held once, and is out. -/
structure Traffic.Holding (history : List (Moment bits)) (traffic : Traffic bits) : Prop where
  once : traffic.pages.Nodup
  out : ∀ page ∈ traffic.pages, Out page history

private theorem holding_step {moment : Moment bits} {earlier : List (Moment bits)}
    (moved : (moment.event.obtained?.toList ++ moment.before.pages).Perm
      (moment.event.released?.toList ++ (moment.event.lost ++ moment.after.pages)))
    (holding : moment.before.Holding earlier)
    (fresh : ∀ page ∈ moment.event.obtained?, ¬ Out page earlier) :
    moment.after.Holding (moment :: earlier) := by
  have distinct : (moment.event.obtained?.toList ++ moment.before.pages).Nodup := by
    apply List.Nodup.append _ holding.once
    · intro page obtained held
      exact fresh page (Option.mem_toList.mp obtained) (holding.out page held)
    · cases moment.event.obtained? with
      | none => exact List.nodup_nil
      | some page => exact List.nodup_singleton page
  have apart := moved.nodup_iff.mp distinct
  rw [List.nodup_append] at apart
  constructor
  · exact (List.nodup_append.mp apart.2.1).2.1
  · intro page held
    have kept : moment.event.released? ≠ some page := by
      intro released
      have given : page ∈ moment.event.released?.toList := Option.mem_toList.mpr released
      exact apart.2.2 page given page (List.mem_append_right _ held) rfl
    have origin := moved.symm.subset
      (List.mem_append_right _ (List.mem_append_right _ held))
    cases List.mem_append.mp origin with
    | inl obtained => exact .inl (Option.mem_toList.mp obtained)
    | inr before => exact .inr ⟨kept, holding.out page before⟩

variable [AccessedBits bits]

theorem Traffic.Run.holding {history : List (Moment bits)} {traffic : Traffic bits}
    (run : Traffic.Run history traffic) (free : HandsOutFree history) :
    traffic.Holding history := by
  induction run with
  | start empty =>
      have nothing : ∀ subsystem : Subsystem bits, subsystem.frames = {} →
          Traffic.pages { subsystem } = [] := by
        intro subsystem same
        unfold Traffic.pages
        rw [same]
        rfl
      constructor
      · rw [nothing _ empty]
        exact List.nodup_nil
      · rw [nothing _ empty]
        intro page impossible
        cases impossible
  | step run step ih =>
      exact holding_step (step.pages run.sound.wellFormed) (ih free.2) free.1

end History

end KernelPaging
