import KernelPaging.Proofs.Overlaps

/-!
What becomes of the contents of pages. An allocation that asks for zeroes clears its page in one of
two places: a fresh page as it is taken from the supply, and a reclaimed one when the eviction is
over. In both cases that is the page it returns, and it has changed nothing else. Since nothing was
cleared before the writeback, the victim is saved as it was.

A call is followed through its course: its own pieces, with anything at all in between.
-/

set_option autoImplicit false

namespace KernelPaging

variable {bits : Type}

def PageMemory.Clear (memory : PageMemory) (page : Address) : Prop :=
  memory.page page = Vector.replicate pageSize 0

def Event.cleared? : Event → Option Address
  | .went (.obtain request) (.goesOn (.bind _ kpage)) =>
      if request.flags.zero then some kpage else none
  | .went (.hand frame true) _ => some frame.kpage
  | _ => none

def Call.allocates : Call → Bool
  | .obtain _ | .bind .. | .reclaim _ | .write _ | .await _ | .finish .. | .hand .. => true
  | _ => false

/-- A step in the course of a call: a piece of the call itself, or something that comes between
two of its pieces. -/
structure Passage (bits : Type) where
  own : Option Event
  before : Subsystem bits
  after : Subsystem bits

def Passage.cleared? (passage : Passage bits) : Option Address :=
  passage.own.bind Event.cleared?

/-- An allocation from the state in which it is called, the latest step first. What comes between
its pieces may change the state in any way. -/
inductive Course [AccessedBits bits] (request : Request) (start : Subsystem bits) :
    List (Passage bits) → Subsystem bits → Outcome → Prop
  | begins : Course request start [] start (.goesOn (.obtain request))
  | moves {passages : List (Passage bits)} {before after : Subsystem bits} {call : Call}
      {outcome : Outcome} : Course request start passages before (.goesOn call) →
      call.Proceeds before outcome after →
      Course request start (⟨some (.went call outcome), before, after⟩ :: passages) after outcome
  | meets {passages : List (Passage bits)} {before : Subsystem bits} {stage : Outcome}
      (after : Subsystem bits) : Course request start passages before stage →
      Course request start (⟨none, before, after⟩ :: passages) after stage

/-- An allocation that stands at a call began at a moment of the history, and its course since then
consists of the later moments. -/
def CourseSince [AccessedBits bits] (history : List (Moment bits)) (now : Subsystem bits)
    (call : Call) : Prop :=
  ∃ request begun recent older passages, history = recent ++ begun :: older ∧
    begun.event = .began (.obtain request) ∧
    Course request begun.after.subsystem passages now (.goesOn call) ∧
    passages.map (fun passage => (passage.before, passage.after)) =
      recent.map (fun moment => (moment.before.subsystem, moment.after.subsystem))

/-- Nobody else has written to the page since the call cleared it. -/
def Spared (page : Address) : List (Passage bits) → Prop
  | [] => True
  | passage :: earlier =>
      passage.cleared? = some page ∨
        passage.after.memory.page page = passage.before.memory.page page ∧ Spared page earlier

/-- What an allocation has done to the contents of pages when it has come to a stage. -/
structure KeepsContents (request : Request) (start : Subsystem bits)
    (passages : List (Passage bits)) (now : Subsystem bits) (stage : Outcome) : Prop where
  unasked : request.flags.zero = false → ∀ passage ∈ passages, passage.own.isSome = true →
    passage.after.memory = passage.before.memory
  failed : ∀ failure, stage = .ends (.allocated (.error failure)) →
    ∀ passage ∈ passages, passage.own.isSome = true →
      passage.after.memory = passage.before.memory
  others : ∀ frame, stage = .ends (.allocated (.ok frame)) →
    ∀ passage ∈ passages, passage.own.isSome = true → ∀ page ≠ frame.kpage,
      passage.after.memory.page page = passage.before.memory.page page
  clear : ∀ frame, stage = .ends (.allocated (.ok frame)) → request.flags.zero = true →
    Spared frame.kpage passages → now.memory.Clear frame.kpage
  /-- When the writeback is called, it has changed nothing, so the page of the victim is as it was
  at the call unless somebody else has written to it. -/
  saved : ∀ flight, stage = .goesOn (.await flight) →
    (∀ passage ∈ passages, passage.own.isSome = true →
      passage.after.memory = passage.before.memory) ∧
    ((∀ passage ∈ passages, passage.own = none →
      passage.after.memory.page flight.victim.kpage =
        passage.before.memory.page flight.victim.kpage) →
      now.memory.page flight.victim.kpage = start.memory.page flight.victim.kpage)

def Request.Serves (request : Request) (result : Except AllocError Frame)
    (before after : PageMemory) : Prop :=
  match result with
  | .error _ => after = before
  | .ok frame =>
      (request.flags.zero = false → after = before) ∧
        (request.flags.zero = true → after.Clear frame.kpage) ∧
          ∀ page ≠ frame.kpage, after.page page = before.page page

theorem PageMemory.clear_zeroPage (memory : PageMemory) (page : Address) :
    (memory.zeroPage page).Clear page := by
  unfold PageMemory.Clear PageMemory.page PageMemory.zeroPage PageMemory.setPage
  exact Std.HashMap.getD_insert_self

theorem PageMemory.page_zeroPage (memory : PageMemory) {page other : Address}
    (different : other ≠ page) : (memory.zeroPage page).page other = memory.page other := by
  have values : (page.value == other.value) = false := by
    apply beq_eq_false_iff_ne.mpr
    intro same
    apply different
    cases page
    cases other
    cases same
    rfl
  unfold PageMemory.page PageMemory.zeroPage PageMemory.setPage
  rw [Std.HashMap.getD_insert, values]
  rfl

theorem PageFlags.withUser_zero (flags : PageFlags) : flags.withUser.zero = flags.zero := by
  have bit : (flags.bits ||| 2) &&& 1 = flags.bits &&& 1 := by
    apply UInt32.toBitVec_inj.mp
    simp only [UInt32.toBitVec_and, UInt32.toBitVec_or]
    rw [BitVec.and_or_distrib_right]
    simp
  unfold PageFlags.zero PageFlags.withUser
  rw [bit]

theorem Request.serves_of_zero {request : Request} {frame : Frame} (memory : PageMemory)
    (asked : request.flags.zero = true) :
    request.Serves (.ok frame) memory (memory.zeroPage frame.kpage) := by
  refine ⟨?_, fun _ => memory.clear_zeroPage frame.kpage, ?_⟩
  · intro unasked
    cases asked.symm.trans unasked
  · intro page different
    exact memory.page_zeroPage different

theorem Request.serves_of_not_zero {request : Request} {frame : Frame} (memory : PageMemory)
    (unasked : request.flags.zero = false) : request.Serves (.ok frame) memory memory := by
  refine ⟨fun _ => rfl, ?_, fun _ _ => rfl⟩
  intro asked
  cases asked.symm.trans unasked

theorem FrameTable.enroll_kpage {table after : FrameTable} {owner : ThreadId}
    {uaddr kpage : Address} {frame : Frame}
    (enrolled : table.enroll owner uaddr kpage = .ok (frame, after)) : frame.kpage = kpage := by
  unfold FrameTable.enroll at enrolled
  split at enrolled
  · cases enrolled
  · cases enrolled
    rfl

section Pieces

variable [AccessedBits bits]

theorem Call.Proceeds.memory_eq {before after : Subsystem bits} {call : Call} {outcome : Outcome}
    (proceeds : call.Proceeds before outcome after) :
    after.memory =
      (Event.went call outcome).cleared?.elim before.memory before.memory.zeroPage := by
  cases proceeds with
  | @obtained request kpage supply _ =>
      dsimp only [Event.cleared?]
      rw [PageFlags.withUser_zero]
      cases request.flags.zero <;> rfl
  | handed frame zero => cases zero <;> rfl
  | _ => rfl

theorem Call.Proceeds.memory_of_not_cleared {before after : Subsystem bits} {call : Call}
    {outcome : Outcome} (proceeds : call.Proceeds before outcome after)
    (none : (Event.went call outcome).cleared? = none) : after.memory = before.memory := by
  rw [proceeds.memory_eq, none]
  rfl

theorem Call.Proceeds.memory_of_not_allocates {before after : Subsystem bits} {call : Call}
    {outcome : Outcome} (proceeds : call.Proceeds before outcome after)
    (other : call.allocates = false) : after.memory = before.memory := by
  apply proceeds.memory_of_not_cleared
  cases call with
  | obtain | hand => cases other
  | _ => rfl

end Pieces

/-! ### What a course has cleared -/

def Quiet (passages : List (Passage bits)) : Prop :=
  ∀ passage ∈ passages, passage.cleared? = none

/-- The call has cleared no page but this one, and that only because it was asked for zeroes. -/
def ClearsOnly (request : Request) (page : Address) (passages : List (Passage bits)) : Prop :=
  ∀ passage ∈ passages, ∀ cleared ∈ passage.cleared?,
    cleared = page ∧ request.flags.zero = true

structure Prepares (request : Request) (page : Address) (passages : List (Passage bits))
    (now : Subsystem bits) : Prop where
  only : ClearsOnly request page passages
  clear : request.flags.zero = true → Spared page passages → now.memory.Clear page

/-- How an allocation stands at each stage. -/
def Standing (request : Request) (passages : List (Passage bits)) (now : Subsystem bits) :
    Outcome → Prop
  | .goesOn (.obtain asked) | .goesOn (.reclaim asked) => asked = request ∧ Quiet passages
  | .goesOn (.bind _ kpage) => Prepares request kpage passages now
  | .goesOn (.write flight) | .goesOn (.await flight) | .goesOn (.finish flight _) =>
      flight.request = request ∧ Quiet passages
  | .goesOn (.hand _ true) => request.flags.zero = true ∧ Quiet passages
  | .goesOn (.hand frame false) => Prepares request frame.kpage passages now
  | .ends (.allocated (.ok frame)) => Prepares request frame.kpage passages now
  | .ends (.allocated (.error _)) => Quiet passages
  | .ends (.stopped _) => ∃ page, ClearsOnly request page passages
  | _ => False

section Steps

variable {request : Request} {page : Address} {passages : List (Passage bits)}
  {passage : Passage bits}

theorem Quiet.nil : Quiet ([] : List (Passage bits)) := by
  intro passage impossible
  cases impossible

theorem Quiet.past (quiet : Quiet passages) (none : passage.cleared? = none) :
    Quiet (passage :: passages) := by
  intro other member
  cases List.mem_cons.mp member with
  | inl same => exact same ▸ none
  | inr earlier => exact quiet other earlier

theorem Quiet.clearsOnly (quiet : Quiet passages) : ClearsOnly request page passages := by
  intro passage member cleared found
  rw [quiet passage member] at found
  cases found

theorem ClearsOnly.of_cleared (only : ClearsOnly request page passages)
    (here : ∀ cleared ∈ passage.cleared?, cleared = page ∧ request.flags.zero = true) :
    ClearsOnly request page (passage :: passages) := by
  intro other member
  cases List.mem_cons.mp member with
  | inl same => exact same ▸ here
  | inr earlier => exact only other earlier

theorem ClearsOnly.past (only : ClearsOnly request page passages)
    (none : passage.cleared? = none) : ClearsOnly request page (passage :: passages) := by
  apply only.of_cleared
  intro cleared found
  cases none.symm.trans found

theorem Prepares.past (prepares : Prepares request page passages passage.before)
    (none : passage.cleared? = none) :
    Prepares request page (passage :: passages) passage.after where
  only := prepares.only.past none
  clear := by
    intro asked spared
    cases spared with
    | inl cleared => cases none.symm.trans cleared
    | inr kept =>
        unfold PageMemory.Clear
        rw [kept.1]
        exact prepares.clear asked kept.2

theorem Prepares.of_cleared (quiet : Quiet passages) (asked : request.flags.zero = true)
    (cleared : passage.cleared? = some page) (clear : passage.after.memory.Clear page) :
    Prepares request page (passage :: passages) passage.after where
  only := by
    apply quiet.clearsOnly.of_cleared
    intro other found
    cases cleared.symm.trans found
    exact ⟨rfl, asked⟩
  clear _ _ := clear

theorem Prepares.of_quiet {now : Subsystem bits} (quiet : Quiet passages)
    (unasked : request.flags.zero = false) : Prepares request page passages now where
  only := quiet.clearsOnly
  clear asked := by
    cases unasked.symm.trans asked

theorem Standing.past {stage : Outcome} (standing : Standing request passages passage.before stage)
    (none : passage.cleared? = none) :
    Standing request (passage :: passages) passage.after stage := by
  unfold Standing at standing ⊢
  split at standing
  · exact ⟨standing.1, standing.2.past none⟩
  · exact ⟨standing.1, standing.2.past none⟩
  · exact standing.past none
  · exact ⟨standing.1, standing.2.past none⟩
  · exact ⟨standing.1, standing.2.past none⟩
  · exact ⟨standing.1, standing.2.past none⟩
  · exact ⟨standing.1, standing.2.past none⟩
  · exact standing.past none
  · exact standing.past none
  · exact standing.past none
  · obtain ⟨page, only⟩ := standing
    exact ⟨page, only.past none⟩
  · exact standing.elim

theorem Standing.moves [AccessedBits bits] {before after : Subsystem bits} {call : Call}
    {outcome : Outcome} (standing : Standing request passages before (.goesOn call))
    (proceeds : call.Proceeds before outcome after) :
    Standing request (⟨some (.went call outcome), before, after⟩ :: passages) after outcome := by
  cases proceeds with
  | @obtained asked kpage supply _ =>
      obtain ⟨rfl, quiet⟩ := standing
      have event : (Event.went (.obtain asked) (.goesOn (.bind asked kpage))).cleared? =
          if asked.flags.zero then some kpage else none := rfl
      cases zero : asked.flags.zero with
      | true =>
          rw [zero, if_pos rfl] at event
          refine Prepares.of_cleared quiet zero ?_ ?_
          · exact event
          · dsimp only
            rw [PageFlags.withUser_zero, if_pos zero]
            exact before.memory.clear_zeroPage kpage
      | false =>
          rw [zero] at event
          exact Prepares.of_quiet (quiet.past event) zero
  | exhausted _ => exact ⟨standing.1, standing.2.past rfl⟩
  | obtainStops _ => exact ⟨default, (standing.2.past rfl).clearsOnly⟩
  | bound enrolled =>
      have same := FrameTable.enroll_kpage enrolled
      subst same
      exact Prepares.past standing rfl
  | bindStops _ => exact ⟨_, standing.only.past rfl⟩
  | selected _ _ => exact ⟨standing.1, standing.2.past rfl⟩
  | unselected _ => exact standing.2.past rfl
  | selectStops _ => exact ⟨default, (standing.2.past rfl).clearsOnly⟩
  | writes flight => exact ⟨standing.1, standing.2.past rfl⟩
  | written flight written => exact ⟨standing.1, standing.2.past rfl⟩
  | @rebound flight written frame frames _ =>
      obtain ⟨rfl, quiet⟩ := standing
      cases zero : flight.request.flags.zero with
      | true => exact ⟨zero, quiet.past rfl⟩
      | false => exact Prepares.of_quiet (quiet.past rfl) zero
  | kept _ => exact standing.2.past rfl
  | vanished _ | finishStops _ => exact ⟨default, (standing.2.past rfl).clearsOnly⟩
  | handed frame zero =>
      cases zero with
      | true => exact Prepares.of_cleared standing.2 standing.1 rfl (before.memory.clear_zeroPage _)
      | false => exact Prepares.past standing rfl
  | _ => exact standing.elim

theorem Standing.clearsOnly {now : Subsystem bits} {stage : Outcome}
    (standing : Standing request passages now stage) :
    ∃ page, ClearsOnly request page passages := by
  unfold Standing at standing
  split at standing
  · exact ⟨default, standing.2.clearsOnly⟩
  · exact ⟨default, standing.2.clearsOnly⟩
  · exact ⟨_, standing.only⟩
  · exact ⟨default, standing.2.clearsOnly⟩
  · exact ⟨default, standing.2.clearsOnly⟩
  · exact ⟨default, standing.2.clearsOnly⟩
  · exact ⟨default, standing.2.clearsOnly⟩
  · exact ⟨_, standing.only⟩
  · exact ⟨_, standing.only⟩
  · exact ⟨default, standing.clearsOnly⟩
  · exact standing
  · exact standing.elim

end Steps

/-! ### Courses -/

section Courses

variable [AccessedBits bits] {request : Request} {start now : Subsystem bits}
  {passages : List (Passage bits)} {stage : Outcome}

theorem Course.standing (course : Course request start passages now stage) :
    Standing request passages now stage := by
  induction course with
  | begins => exact ⟨rfl, Quiet.nil⟩
  | moves course proceeds ih => exact ih.moves proceeds
  | meets after course ih => exact ih.past rfl

theorem Course.memory_eq (course : Course request start passages now stage) :
    ∀ passage ∈ passages, passage.own.isSome = true → passage.after.memory =
      passage.cleared?.elim passage.before.memory passage.before.memory.zeroPage := by
  induction course with
  | begins =>
      intro passage impossible
      cases impossible
  | moves course proceeds ih =>
      intro passage member own
      cases List.mem_cons.mp member with
      | inl same =>
          subst same
          exact proceeds.memory_eq
      | inr earlier => exact ih passage earlier own
  | meets after course ih =>
      intro passage member own
      cases List.mem_cons.mp member with
      | inl same =>
          subst same
          cases own
      | inr earlier => exact ih passage earlier own

theorem Course.memory_of_quiet (course : Course request start passages now stage)
    (quiet : Quiet passages) : ∀ passage ∈ passages, passage.own.isSome = true →
      passage.after.memory = passage.before.memory := by
  intro passage member own
  rw [course.memory_eq passage member own, quiet passage member]
  rfl

theorem Course.page_eq (course : Course request start passages now stage) {page : Address}
    (kept : ∀ passage ∈ passages,
      passage.after.memory.page page = passage.before.memory.page page) :
    now.memory.page page = start.memory.page page := by
  induction course with
  | begins => rfl
  | moves _ _ ih | meets _ _ ih =>
      have here := kept _ List.mem_cons_self
      apply here.trans
      apply ih
      intro passage member
      exact kept passage (List.mem_cons_of_mem _ member)

theorem Course.keepsContents (course : Course request start passages now stage) :
    KeepsContents request start passages now stage where
  unasked := by
    intro unasked
    obtain ⟨page, only⟩ := course.standing.clearsOnly
    apply course.memory_of_quiet
    intro passage member
    apply Option.eq_none_iff_forall_not_mem.mpr
    intro cleared found
    cases unasked.symm.trans (only passage member cleared found).2
  failed := by
    intro failure same
    subst same
    exact course.memory_of_quiet course.standing
  others := by
    intro frame same passage member own page different
    subst same
    rw [course.memory_eq passage member own]
    cases found : passage.cleared? with
    | none => rfl
    | some cleared =>
        have only := course.standing.only passage member cleared found
        exact PageMemory.page_zeroPage _ (only.1 ▸ different)
  clear := by
    intro frame same asked spared
    subst same
    exact course.standing.clear asked spared
  saved := by
    intro flight same
    subst same
    have still := course.memory_of_quiet course.standing.2
    refine ⟨still, ?_⟩
    intro kept
    apply course.page_eq
    intro passage member
    cases own : passage.own with
    | none => exact kept passage member own
    | some event =>
        have ours : passage.own.isSome = true := by
          rw [own]
          rfl
        rw [still passage member ours]

end Courses

/-! ### Allocations in runs -/

section Runs

variable [AccessedBits bits] {history : List (Moment bits)} {traffic : Traffic bits} {call : Call}

theorem CourseSince.meets (course : CourseSince history traffic.subsystem call) (event : Event)
    (after : Traffic bits) :
    CourseSince (⟨traffic, event, after⟩ :: history) after.subsystem call := by
  obtain ⟨request, begun, recent, older, passages, rfl, began, followed, same⟩ := course
  refine ⟨request, begun, ⟨traffic, event, after⟩ :: recent, older,
    ⟨none, traffic.subsystem, after.subsystem⟩ :: passages, rfl, began, ?_, ?_⟩
  · exact followed.meets after.subsystem
  · rw [List.map_cons, List.map_cons, same]

theorem CourseSince.moves {next : Call} (course : CourseSince history traffic.subsystem call)
    (event : Event) (after : Traffic bits)
    (proceeds : call.Proceeds traffic.subsystem (.goesOn next) after.subsystem) :
    CourseSince (⟨traffic, event, after⟩ :: history) after.subsystem next := by
  obtain ⟨request, begun, recent, older, passages, rfl, began, followed, same⟩ := course
  refine ⟨request, begun, ⟨traffic, event, after⟩ :: recent, older,
    ⟨some (.went call (.goesOn next)), traffic.subsystem, after.subsystem⟩ :: passages, rfl, began,
    followed.moves proceeds, ?_⟩
  rw [List.map_cons, List.map_cons, same]

theorem Call.Proceeds.allocates_before {before after : Subsystem bits} {next : Call}
    (proceeds : call.Proceeds before (.goesOn next) after) (allocates : next.allocates = true) :
    call.allocates = true := by
  cases proceeds with
  | freed | dozes | woken | tornDown | released => cases allocates
  | _ => rfl

theorem Traffic.Run.course (run : Traffic.Run history traffic) :
    ∀ call ∈ traffic.calls, call.allocates = true → CourseSince history traffic.subsystem call := by
  induction run with
  | start _ =>
      intro call impossible
      cases impossible
  | @step earlier before after event run step ih =>
      intro call member allocates
      cases step with
      | @begin _ entered entry =>
          cases List.mem_cons.mp member with
          | inl same =>
              subst same
              cases call with
              | obtain request =>
                  exact ⟨request, _, [], earlier, [], rfl, rfl, .begins, rfl⟩
              | bind | reclaim | write | await | finish | hand => cases entry
              | _ => cases allocates
          | inr old => exact (ih call old allocates).meets _ _
      | @proceed _ _ mover outcome front back proceeds =>
          simp only [List.mem_append] at member
          have others : ∀ call ∈ front ++ back, call ∈ front ++ mover :: back := by
            intro other beside
            exact ((List.sublist_cons_self mover back).append_left front).subset beside
          rcases member with ahead | moved | behind
          · have old := others call (List.mem_append_left _ ahead)
            exact (ih call old allocates).meets _ _
          · cases outcome with
            | ends answer => cases moved
            | goesOn next =>
                have same := List.mem_singleton.mp moved
                subst same
                have course := ih mover List.mem_append_cons_self
                  (proceeds.allocates_before allocates)
                exact course.moves _ ⟨_, _⟩ proceeds
          · have old := others call (List.mem_append_right _ behind)
            exact (ih call old allocates).meets _ _
      | outside same => exact (ih call member allocates).meets _ _

end Runs

section Programs

variable {request : Request} {state now : Subsystem bits}

theorem announce_memory {notice : Notice} {value : Unit}
    (announced : announce notice state = .ok value now) : now.memory = state.memory :=
  (announce_leaves (fun _ _ => rfl) notice).of_ok announced

theorem bindFresh_memory {kpage : Address} {frame : Frame}
    (returned : bindFresh request kpage state = .ok frame now) :
    frame.kpage = kpage ∧ now.memory = state.memory := by
  obtain ⟨⟨bound, frames⟩, enrolled, goesOn⟩ := exists_of_section returned
  obtain ⟨_, _, modified, last⟩ := exists_of_bind goesOn
  cases modified
  obtain ⟨_, noted, announced, gave⟩ := exists_of_bind last
  cases gave
  have kept := announce_memory announced
  exact ⟨FrameTable.enroll_kpage enrolled, kept⟩

theorem obtainPage_memory {flags : PageFlags} {page : Option Address}
    (returned : obtainPage flags state = .ok page now) :
    now.memory = match page with
      | none => state.memory
      | some page => if flags.zero then state.memory.zeroPage page else state.memory := by
  obtain ⟨obtained, _, goesOn⟩ := exists_of_section returned
  cases obtained with
  | none =>
      cases goesOn
      rfl
  | some taken =>
      dsimp only at goesOn
      cases zero : flags.zero with
      | true =>
          rw [zero] at goesOn
          cases goesOn
          rfl
      | false =>
          rw [zero] at goesOn
          cases goesOn
          rfl

theorem finishAllocation_memory {eviction : Eviction} {written : Bool}
    {result : Except AllocError Frame}
    (returned : finishAllocation request eviction written state = .ok result now) :
    request.Serves result state.memory now.memory := by
  obtain ⟨⟨ending, frames⟩, _, goesOn⟩ := exists_of_section returned
  obtain ⟨_, changed, modified, last⟩ := exists_of_bind goesOn
  cases modified
  cases ending with
  | rebound frame =>
      dsimp only at last
      cases zero : request.flags.zero with
      | true =>
          rw [zero] at last
          cases last
          exact request.serves_of_zero _ zero
      | false =>
          rw [zero] at last
          cases last
          exact request.serves_of_not_zero _ zero
  | kept =>
      obtain ⟨_, noted, announced, gave⟩ := exists_of_bind last
      cases gave
      have still := announce_memory announced
      exact still
  | vanished =>
      obtain ⟨_, _, _, thrown⟩ := exists_of_bind last
      cases thrown

variable [AccessedBits bits]

theorem beginEviction_memory {begun : Allocation}
    (returned : beginEviction request state = .ok begun now) :
    now.memory = state.memory ∧ ∀ frame, begun ≠ .finished (.ok frame) := by
  obtain ⟨⟨outcome, frames, accessed⟩, _, goesOn⟩ := exists_of_section returned
  obtain ⟨_, changed, modified, last⟩ := exists_of_bind goesOn
  cases modified
  cases outcome with
  | error failure =>
      obtain ⟨_, noted, announced, gave⟩ := exists_of_bind last
      cases gave
      have kept := announce_memory announced
      exact ⟨kept, nofun⟩
  | ok eviction =>
      obtain ⟨_, noted, announced, gave⟩ := exists_of_bind last
      cases gave
      have kept := announce_memory announced
      exact ⟨kept, nofun⟩

theorem beginAllocation_memory {begun : Allocation}
    (returned : beginAllocation request state = .ok begun now) :
    match begun with
    | .finished result => request.Serves result state.memory now.memory
    | .writing _ => now.memory = state.memory := by
  obtain ⟨page, taken, obtained, goesOn⟩ := exists_of_bind returned
  have memory := obtainPage_memory obtained
  cases page with
  | some kpage =>
      obtain ⟨frame, bound, ran, gave⟩ := exists_of_bind goesOn
      cases gave
      obtain ⟨same, kept⟩ := bindFresh_memory ran
      subst same
      dsimp only at memory ⊢
      rw [kept, memory, PageFlags.withUser_zero]
      cases zero : request.flags.zero with
      | true => exact request.serves_of_zero _ zero
      | false => exact request.serves_of_not_zero _ zero
  | none =>
      obtain ⟨_, noted, announced, evicts⟩ := exists_of_bind goesOn
      obtain ⟨kept, failing⟩ := beginEviction_memory evicts
      have still : now.memory = state.memory :=
        kept.trans ((announce_memory announced).trans memory)
      cases begun with
      | writing eviction => exact still
      | finished result =>
          cases result with
          | error failure => exact still
          | ok frame => exact absurd rfl (failing frame)

/-- The writeback sees memory as it was at the call, and what the call does to memory comes after
it. -/
theorem allocate_memory {writeback : ThreadId → Address → Kernel bits Bool}
    {result : Except AllocError Frame}
    (returned : allocate request writeback state = .ok result now) :
    request.Serves result state.memory now.memory ∨
      ∃ eviction called written left,
        beginAllocation request state = .ok (.writing eviction) called ∧
        called.memory = state.memory ∧
        writeback eviction.owner eviction.uaddr called = .ok written left ∧
        request.Serves result left.memory now.memory := by
  obtain ⟨begun, called, began, goesOn⟩ := exists_of_bind returned
  have memory := beginAllocation_memory began
  cases begun with
  | finished outcome =>
      cases goesOn
      exact .inl memory
  | writing eviction =>
      obtain ⟨written, left, ran, finishes⟩ := exists_of_bind goesOn
      exact .inr ⟨eviction, called, written, left, began, memory, ran,
        finishAllocation_memory finishes⟩

end Programs

theorem free_leaves (entry : Option FrameId) :
    Leaves Subsystem.memory (free entry : Kernel bits (FreeOutcome × Option FrameId)) := by
  cases entry with
  | none => exact Leaves.pure _
  | some id =>
      apply Leaves.get.bind
      intro current
      cases current.frames.detach id with | mk detachment frames =>
      refine Leaves.bind (Leaves.modify ?_) ?_
      · intro _
        rfl
      intro _
      cases detachment with
      | stale => exact (announce_leaves (fun _ _ => rfl) _).bind fun _ => Leaves.pure _
      | pinned => exact Leaves.pure _
      | removed record =>
          exact (releasePage_leaves (fun _ _ => rfl) (fun _ _ => rfl) _).bind fun _ => Leaves.pure _

theorem unpin_leaves (id : FrameId) : Leaves Subsystem.memory (unpin id : Kernel bits Unit) := by
  apply Leaves.get.bind
  intro current
  apply (orStop_leaves (fun _ _ => rfl) _).bind
  intro frames
  exact Leaves.modify fun _ => rfl

theorem teardown_leaves {other : Type} (owner : ThreadId) (table : SupplementalTable)
    {rounds : List (Kernel bits other)} (played : ∀ round ∈ rounds, Leaves Subsystem.memory round) :
    Leaves Subsystem.memory (teardown owner table rounds) := by
  rw [teardown_eq]
  apply (awaitIdle_leaves played).bind
  intro others
  refine Leaves.bind ?_ fun _ => Leaves.pure _
  apply Leaves.get.bind
  intro current
  cases current.frames.removeNamed table with | mk records frames =>
  refine Leaves.bind (Leaves.modify ?_) ?_
  · intro _
    rfl
  intro _
  exact giveBack_leaves (fun _ _ => rfl) (fun _ _ => rfl) owner table records

/-- What an allocation does to the contents of pages, on its own and whatever comes between its
pieces, and that nothing else in the kernel does anything to them. -/
theorem allocation_clears_only_its_page [AccessedBits bits] (request : Request)
    (start : Subsystem bits) :
    (∀ eviction called, beginAllocation request start = .ok (.writing eviction) called →
      called.memory = start.memory) ∧
    (∀ writeback result now, allocate request writeback start = .ok result now →
      request.Serves result start.memory now.memory ∨
        ∃ eviction called written left,
          beginAllocation request start = .ok (.writing eviction) called ∧
          called.memory = start.memory ∧
          writeback eviction.owner eviction.uaddr called = .ok written left ∧
          request.Serves result left.memory now.memory) ∧
    (∀ passages now stage, Course request start passages now stage →
      KeepsContents request start passages now stage) ∧
    (∀ (history : List (Moment bits)) (traffic : Traffic bits), Traffic.Run history traffic →
      ∀ call ∈ traffic.calls, call.allocates = true →
        CourseSince history traffic.subsystem call) ∧
    (∀ before after call outcome, Call.Proceeds (before : Subsystem bits) call outcome after →
      call.allocates = false → after.memory = before.memory) ∧
    (∀ entry, Leaves Subsystem.memory
      (free entry : Kernel bits (FreeOutcome × Option FrameId))) ∧
    (∀ id, Leaves Subsystem.memory (unpin id : Kernel bits Unit)) ∧
    ∀ (owner : ThreadId) (table : SupplementalTable) (rounds : List (Kernel bits Unit)),
      (∀ round ∈ rounds, Leaves Subsystem.memory round) →
        Leaves Subsystem.memory (teardown owner table rounds) := by
  refine ⟨?_, ?_, ?_, ?_, ?_, free_leaves, unpin_leaves, ?_⟩
  · intro eviction called began
    exact beginAllocation_memory began
  · intro writeback result now returned
    exact allocate_memory returned
  · intro passages now stage course
    exact course.keepsContents
  · intro history traffic run
    exact run.course
  · intro before after call outcome proceeds other
    exact proceeds.memory_of_not_allocates other
  · intro owner table rounds played
    exact teardown_leaves owner table played

/-- A page full of other bytes is reclaimed from thread 1 for thread 2, which asks for zeroes. -/
theorem reclaimed_page_clear :
    let request : Request := { Request.simple 2 with flags := ⟨1⟩ }
    let start := Traffic.oneUnpinned.2.subsystem
    ∃ frame now, allocate request (fun _ _ => pure true) start = .ok (.ok frame) now ∧
      ¬ start.memory.Clear frame.kpage ∧ now.memory.Clear frame.kpage ∧
      ∀ page ≠ frame.kpage, now.memory.page page = start.memory.page page := by
  intro request start
  have served : (((allocate request fun _ _ => pure true).run' start).bind
      Except.toOption).map Frame.kpage = some default := by decide +kernel
  unfold EStateM.run' EStateM.run at served
  have dirty : ¬ start.memory.Clear default := by
    intro clear
    have first : (start.memory.page default).toArray[0]? = some 0xcc := by decide +kernel
    rw [clear] at first
    exact absurd first (by decide +kernel)
  have memory := (allocation_clears_only_its_page request start).2.1 (fun _ _ => pure true)
  cases ran : allocate request (fun _ _ => pure true) start with
  | error halt now =>
      rw [ran] at served
      cases served
  | ok result now =>
      rw [ran] at served
      cases result with
      | error failure => cases served
      | ok frame =>
          have kpage : frame.kpage = default := Option.some.inj served
          refine ⟨frame, now, rfl, ?_, ?_⟩
          · rw [kpage]
            exact dirty
          · cases memory (.ok frame) now ran with
            | inl serves => exact ⟨serves.2.1 (by decide), serves.2.2⟩
            | inr written =>
                obtain ⟨eviction, called, written, left, _, same, answered, serves⟩ := written
                cases answered
                rw [← same]
                exact ⟨serves.2.1 (by decide), serves.2.2⟩

end KernelPaging
