import Mathlib.Data.List.Infix
import KernelPaging.Barrier

/-!
Waiting at the barrier. The waiter watches the epoch, not the count; all the same it behaves as if
it looked at the count whenever the others have played a round. For that the epoch must move in
every round that ends with nobody in flight, and it does unless the count falls to zero 2^64 times
in one round.
-/

set_option autoImplicit false

namespace KernelPaging

section Parts

variable {ε σ α β : Type} {code : EStateM ε σ α} {next : α → EStateM ε σ β} {before after : σ}

theorem bind_of_ok {value : α} (ran : code before = .ok value after) :
    (code >>= next) before = next value after := by
  change EStateM.bind code next before = _
  unfold EStateM.bind
  rw [ran]

theorem bind_of_error {failure : ε} (stopped : code before = .error failure after) :
    (code >>= next) before = .error failure after := by
  change EStateM.bind code next before = _
  unfold EStateM.bind
  rw [stopped]

theorem bind_of_same {other : EStateM ε σ α} (same : code before = other after) :
    (code >>= next) before = (other >>= next) after := by
  change EStateM.bind code next before = EStateM.bind other next after
  unfold EStateM.bind
  rw [same]

end Parts

section Polling

variable {σ ρ : Type} (barrier : σ → Barrier)

/-- A wait that looks at the count itself, before the first round and after each. -/
def pollIdle : List (EStateM Halt σ ρ) → EStateM Halt σ (List ρ)
  | [] => do
      if (barrier (← get)).inFlight = 0 then
        return []
      else
        throw .waitsForever
  | round :: later => do
      if (barrier (← get)).inFlight = 0 then
        return []
      else
        let played ← round
        let others ← pollIdle later
        return played :: others

/-- A round that takes the count from above zero to zero is seen by the epoch it leaves. -/
def Signalled : List (EStateM Halt σ ρ) → σ → Prop
  | [], _ => True
  | round :: later, before => ∀ played after, round before = .ok played after →
      ((barrier before).inFlight ≠ 0 → (barrier after).inFlight = 0 →
        (barrier after).epoch ≠ (barrier before).epoch) ∧ Signalled later after

variable {barrier} {state : σ}

theorem pollIdle_of_idle (rounds : List (EStateM Halt σ ρ))
    (idle : (barrier state).inFlight = 0) : pollIdle barrier rounds state = .ok [] state := by
  cases rounds with
  | nil =>
      change (if _ then _ else _ : EStateM Halt σ (List ρ)) state = _
      rw [if_pos idle]
      rfl
  | cons round later =>
      change (if _ then _ else _ : EStateM Halt σ (List ρ)) state = _
      rw [if_pos idle]
      rfl

theorem pollIdle_nil (busy : (barrier state).inFlight ≠ 0) :
    pollIdle barrier ([] : List (EStateM Halt σ ρ)) state = .error .waitsForever state := by
  change (if _ then _ else _ : EStateM Halt σ (List ρ)) state = _
  rw [if_neg busy]
  rfl

theorem pollIdle_cons {round : EStateM Halt σ ρ} {later : List (EStateM Halt σ ρ)}
    (busy : (barrier state).inFlight ≠ 0) :
    pollIdle barrier (round :: later) state =
      (do
        let played ← round
        let others ← pollIdle barrier later
        return played :: others : EStateM Halt σ (List ρ)) state := by
  change (if _ then _ else _ : EStateM Halt σ (List ρ)) state = _
  rw [if_neg busy]

theorem pollIdle_ne_nil {rounds : List (EStateM Halt σ ρ)} {after : σ}
    (busy : (barrier state).inFlight ≠ 0) : pollIdle barrier rounds state ≠ .ok [] after := by
  intro returned
  cases rounds with
  | nil => cases (pollIdle_nil busy).symm.trans returned
  | cons round later =>
      rw [pollIdle_cons busy] at returned
      cases ran : round state with
      | error halt stopped => cases (bind_of_error ran).symm.trans returned
      | ok played middle =>
          rw [bind_of_ok ran] at returned
          cases polled : pollIdle barrier later middle with
          | error halt stopped => cases (bind_of_error polled).symm.trans returned
          | ok others ended => cases (bind_of_ok polled).symm.trans returned

/-- The snapshot of the epoch is always the current one when the others begin a round. -/
private theorem awaitEpoch_eq_poll (rounds : List (EStateM Halt σ ρ)) :
    ∀ state, (barrier state).inFlight ≠ 0 → Signalled barrier rounds state →
      awaitEpoch barrier (barrier state).epoch rounds state = pollIdle barrier rounds state := by
  induction rounds with
  | nil =>
      intro state busy _
      exact (pollIdle_nil busy).symm
  | cons round later ih =>
      intro state busy signalled
      rw [pollIdle_cons busy]
      unfold awaitEpoch
      cases ran : round state with
      | error halt stopped => rw [bind_of_error ran, bind_of_error ran]
      | ok played after =>
          obtain ⟨signal, rest⟩ := signalled played after ran
          rw [bind_of_ok ran, bind_of_ok ran]
          change (if (barrier after).epoch = (barrier state).epoch then _ else if _ then _ else _ :
            EStateM Halt σ (List ρ)) after = _
          -- An idle barrier has a new epoch; an old epoch or a new one, a busy one is waited for.
          by_cases idle : (barrier after).inFlight = 0
          · rw [if_neg (signal busy idle), if_pos idle, bind_of_ok (pollIdle_of_idle later idle)]
          · rw [← bind_of_same (ih after idle rest)]
            by_cases unmoved : (barrier after).epoch = (barrier state).epoch
            · rw [if_pos unmoved, unmoved]
            · rw [if_neg unmoved, if_neg idle]

theorem awaitIdle_eq_poll {rounds : List (EStateM Halt σ ρ)}
    (signalled : Signalled barrier rounds state) :
    awaitIdle barrier rounds state = pollIdle barrier rounds state := by
  change (if (barrier state).inFlight = 0 then _ else _ : EStateM Halt σ (List ρ)) state = _
  by_cases idle : (barrier state).inFlight = 0
  · rw [if_pos idle, pollIdle_of_idle rounds idle]
    rfl
  · rw [if_neg idle]
    exact awaitEpoch_eq_poll rounds state idle signalled

end Polling

/-! ### Rounds of actions -/

def BarrierAction.countAfter (action : BarrierAction) (count : Nat) : Nat :=
  match action with
  | .enter => count + 1
  | .exit => count - 1
  | .count => count

def BarrierAction.crossing (action : BarrierAction) (count : Nat) : Nat :=
  match action, count with
  | .exit, 1 => 1
  | _, _ => 0

def countAfter : List BarrierAction → Nat → Nat
  | [], count => count
  | action :: later, count => countAfter later (action.countAfter count)

def crossings : List BarrierAction → Nat → Nat
  | [], _ => 0
  | action :: later, count => action.crossing count + crossings later (action.countAfter count)

/-- Nobody leaves the barrier while nobody is in flight. -/
def Permitted : List BarrierAction → Nat → Prop
  | [], _ => True
  | action :: later, count =>
      (action = .exit → count ≠ 0) ∧ Permitted later (action.countAfter count)

def Barrier.play (rounds : List (List BarrierAction)) :
    EStateM Halt Barrier (List (List BarrierReading)) :=
  rounds.mapM fun actions => actions.mapM BarrierAction.perform

theorem countAfter_append (first second : List BarrierAction) :
    ∀ count, countAfter (first ++ second) count = countAfter second (countAfter first count) := by
  induction first with
  | nil => intro count; rfl
  | cons action first ih => intro count; exact ih _

theorem Permitted.append {first second : List BarrierAction} :
    ∀ {count}, Permitted (first ++ second) count →
      Permitted first count ∧ Permitted second (countAfter first count) := by
  induction first with
  | nil => intro count permitted; exact ⟨trivial, permitted⟩
  | cons action first ih =>
      intro count permitted
      have rest := ih permitted.2
      exact ⟨⟨permitted.1, rest.1⟩, rest.2⟩

def Barrier.after (barrier : Barrier) (action : BarrierAction) : Barrier where
  inFlight := action.countAfter barrier.inFlight
  epoch := barrier.epoch + UInt64.ofNat (action.crossing barrier.inFlight)

theorem BarrierAction.perform_ok {action : BarrierAction} {barrier : Barrier}
    (allowed : action = .exit → barrier.inFlight ≠ 0) :
    ∃ reading, action.perform barrier = .ok reading (barrier.after action) := by
  obtain ⟨inFlight, epoch⟩ := barrier
  have still : epoch + UInt64.ofNat 0 = epoch := UInt64.add_zero _
  unfold Barrier.after
  cases action with
  | enter =>
      change ∃ reading, _ = EStateM.Result.ok reading
        (Barrier.mk (inFlight + 1) (epoch + UInt64.ofNat 0))
      rw [still]
      exact ⟨_, rfl⟩
  | exit =>
      match inFlight with
      | 0 => exact absurd rfl (allowed rfl)
      | 1 => exact ⟨_, rfl⟩
      | others + 2 =>
          change ∃ reading, _ = EStateM.Result.ok reading
            (Barrier.mk (others + 1) (epoch + UInt64.ofNat 0))
          rw [still]
          exact ⟨_, rfl⟩
  | count =>
      change ∃ reading, _ = EStateM.Result.ok reading
        (Barrier.mk inFlight (epoch + UInt64.ofNat 0))
      rw [still]
      exact ⟨_, rfl⟩

theorem BarrierAction.mapM_perform (actions : List BarrierAction) :
    ∀ {barrier : Barrier}, Permitted actions barrier.inFlight →
      ∃ readings, (actions.mapM BarrierAction.perform) barrier =
        .ok readings (actions.foldl Barrier.after barrier) := by
  induction actions with
  | nil =>
      intro barrier _
      exact ⟨[], rfl⟩
  | cons action later ih =>
      intro barrier permitted
      obtain ⟨reading, performed⟩ := BarrierAction.perform_ok permitted.1
      obtain ⟨readings, rest⟩ := @ih (barrier.after action) permitted.2
      refine ⟨reading :: readings, ?_⟩
      rw [List.mapM_cons, bind_of_ok performed, bind_of_ok rest]
      rfl

theorem Barrier.foldl_after (actions : List BarrierAction) : ∀ barrier : Barrier,
    actions.foldl Barrier.after barrier =
      { inFlight := countAfter actions barrier.inFlight
        epoch := barrier.epoch + UInt64.ofNat (crossings actions barrier.inFlight) } := by
  induction actions with
  | nil =>
      intro barrier
      have still : barrier.epoch + UInt64.ofNat 0 = barrier.epoch := UInt64.add_zero _
      change barrier = Barrier.mk barrier.inFlight (barrier.epoch + UInt64.ofNat 0)
      rw [still]
  | cons action later ih =>
      intro barrier
      have all : crossings (action :: later) barrier.inFlight =
          action.crossing barrier.inFlight +
            crossings later (action.countAfter barrier.inFlight) := rfl
      rw [List.foldl_cons, ih, all, UInt64.ofNat_add, ← UInt64.add_assoc]
      rfl

theorem crossings_pos {actions : List BarrierAction} :
    ∀ {count}, count ≠ 0 → countAfter actions count = 0 → 0 < crossings actions count := by
  induction actions with
  | nil => intro count busy idle; exact absurd idle busy
  | cons action later ih =>
      intro count busy idle
      unfold crossings
      by_cases fell : action.countAfter count = 0
      · have crosses : action.crossing count = 1 := by
          cases action with
          | enter => exact absurd fell (Nat.succ_ne_zero _)
          | exit =>
              have last : count = 1 := by
                change count - 1 = 0 at fell
                omega
              rw [last]
              rfl
          | count => exact absurd fell busy
        omega
      · have positive := ih fell idle
        omega

/-- The epoch tells a round that ends with nobody in flight, unless it wraps around in it. -/
theorem Barrier.epoch_moves {barrier : Barrier} {actions : List BarrierAction}
    (few : crossings actions barrier.inFlight < 0x10000000000000000)
    (busy : barrier.inFlight ≠ 0) (idle : countAfter actions barrier.inFlight = 0) :
    barrier.epoch + UInt64.ofNat (crossings actions barrier.inFlight) ≠ barrier.epoch := by
  have positive := crossings_pos busy idle
  intro same
  have moved : UInt64.ofNat (crossings actions barrier.inFlight) = 0 := by
    rw [← UInt64.add_right_inj barrier.epoch, same, UInt64.add_zero]
  have value := congrArg UInt64.toNat moved
  rw [UInt64.toNat_ofNat_of_lt' few] at value
  change crossings actions barrier.inFlight = 0 at value
  omega

/-- Every round on its own lets the count fall to zero fewer than 2^64 times. -/
def EpochSuffices : List (List BarrierAction) → Nat → Prop
  | [], _ => True
  | round :: later, count =>
      crossings round count < 0x10000000000000000 ∧ EpochSuffices later (countAfter round count)

theorem signalled_of_few (rounds : List (List BarrierAction)) : ∀ {barrier : Barrier},
    Permitted rounds.flatten barrier.inFlight → EpochSuffices rounds barrier.inFlight →
      Signalled id (rounds.map fun actions => actions.mapM BarrierAction.perform) barrier := by
  induction rounds with
  | nil => intro barrier _ _; exact trivial
  | cons round later ih =>
      intro barrier permitted few
      obtain ⟨now, rest⟩ := permitted.append
      obtain ⟨readings, played⟩ := BarrierAction.mapM_perform round now
      rw [Barrier.foldl_after] at played
      intro value after ran
      cases played.symm.trans ran
      exact ⟨Barrier.epoch_moves few.1, ih rest few.2⟩

/-- The rounds that are played until nobody is in flight at the end of one for the first time. None
is if nobody is in flight at the beginning. -/
structure FirstIdle (rounds played : List (List BarrierAction)) (count : Nat) : Prop where
  begins : played <+: rounds
  idle : countAfter played.flatten count = 0
  busy : ∀ fewer, fewer <+: played → fewer.length < played.length →
    countAfter fewer.flatten count ≠ 0

theorem FirstIdle.nil_of_idle {rounds played : List (List BarrierAction)}
    (first : FirstIdle rounds played 0) : played = [] := by
  cases played with
  | nil => rfl
  | cons round rest =>
      exact absurd rfl (first.busy [] List.nil_prefix (Nat.succ_pos _))

theorem FirstIdle.tail {round : List BarrierAction} {later played : List (List BarrierAction)}
    {count : Nat} (first : FirstIdle (round :: later) played count) (busy : count ≠ 0) :
    ∃ rest, played = round :: rest ∧ FirstIdle later rest (countAfter round count) := by
  rcases List.prefix_cons_iff.mp first.begins with none | ⟨rest, same, begins⟩
  · have idle := first.idle
    rw [none] at idle
    exact absurd idle busy
  · subst same
    refine ⟨rest, rfl, begins, ?_, ?_⟩
    · rw [← countAfter_append]
      exact first.idle
    · intro fewer sooner shorter
      rw [← countAfter_append]
      refine first.busy (round :: fewer) (List.cons_prefix_cons.mpr ⟨rfl, sooner⟩) ?_
      rw [List.length_cons, List.length_cons]
      omega

private theorem pollIdle_first (rounds : List (List BarrierAction)) :
    ∀ {barrier : Barrier} {played : List (List BarrierAction)},
      Permitted rounds.flatten barrier.inFlight → FirstIdle rounds played barrier.inFlight →
      ∃ readings after, Barrier.play played barrier = .ok readings after ∧
        pollIdle id (rounds.map fun actions => actions.mapM BarrierAction.perform) barrier =
          .ok readings after ∧
        readings.length = played.length ∧ after.inFlight = 0 := by
  induction rounds with
  | nil =>
      intro barrier played _ first
      have none := List.prefix_nil.mp first.begins
      have idle := first.idle
      rw [none] at idle ⊢
      exact ⟨[], barrier, rfl, pollIdle_of_idle [] idle, rfl, idle⟩
  | cons round later ih =>
      intro barrier played permitted first
      by_cases idle : barrier.inFlight = 0
      · rw [idle] at first
        rw [first.nil_of_idle]
        exact ⟨[], barrier, rfl, pollIdle_of_idle _ idle, rfl, idle⟩
      · obtain ⟨rest, same, onward⟩ := first.tail idle
        obtain ⟨now, permittedLater⟩ := permitted.append
        obtain ⟨reading, ran⟩ := BarrierAction.mapM_perform round now
        rw [Barrier.foldl_after] at ran
        obtain ⟨readings, after, played, polled, length, ended⟩ :=
          @ih { inFlight := _, epoch := _ } rest permittedLater onward
        subst same
        refine ⟨reading :: readings, after, ?_, ?_, ?_, ended⟩
        · unfold Barrier.play at played ⊢
          rw [List.mapM_cons, bind_of_ok ran, bind_of_ok played]
          rfl
        · rw [List.map_cons, pollIdle_cons idle, bind_of_ok ran, bind_of_ok polled]
          rfl
        · rw [List.length_cons, List.length_cons, length]

private theorem pollIdle_never (rounds : List (List BarrierAction)) :
    ∀ {barrier : Barrier}, Permitted rounds.flatten barrier.inFlight →
      (∀ played, played <+: rounds → countAfter played.flatten barrier.inFlight ≠ 0) →
      ∃ readings after, Barrier.play rounds barrier = .ok readings after ∧
        pollIdle id (rounds.map fun actions => actions.mapM BarrierAction.perform) barrier =
          .error .waitsForever after := by
  induction rounds with
  | nil =>
      intro barrier _ busy
      exact ⟨[], barrier, rfl, pollIdle_nil (busy [] List.nil_prefix)⟩
  | cons round later ih =>
      intro barrier permitted busy
      obtain ⟨now, permittedLater⟩ := permitted.append
      obtain ⟨reading, ran⟩ := BarrierAction.mapM_perform round now
      rw [Barrier.foldl_after] at ran
      have busyLater : ∀ played, played <+: later →
          countAfter played.flatten (countAfter round barrier.inFlight) ≠ 0 := by
        intro played begins
        rw [← countAfter_append]
        exact busy (round :: played) (List.cons_prefix_cons.mpr ⟨rfl, begins⟩)
      obtain ⟨readings, after, played, polled⟩ :=
        @ih { inFlight := _, epoch := _ } permittedLater busyLater
      refine ⟨reading :: readings, after, ?_, ?_⟩
      · unfold Barrier.play at played ⊢
        rw [List.mapM_cons, bind_of_ok ran, bind_of_ok played]
        rfl
      · have busyNow := busy [] List.nil_prefix
        rw [List.map_cons, pollIdle_cons busyNow, bind_of_ok ran, bind_of_error polled]

/-- A wait is over after exactly the first round that ends with nobody in flight, at once if nobody
is in flight when it begins, and never if there is no such round. -/
theorem Barrier.wait_returns_first_idle (barrier : Barrier) (rounds : List (List BarrierAction))
    (permitted : Permitted rounds.flatten barrier.inFlight)
    (few : EpochSuffices rounds barrier.inFlight) :
    ((∃ after, Barrier.wait rounds barrier = .ok [] after) ↔ barrier.inFlight = 0) ∧
    (∀ played, FirstIdle rounds played barrier.inFlight →
      ∃ readings after, Barrier.play played barrier = .ok readings after ∧
        Barrier.wait rounds barrier = .ok readings after ∧
        readings.length = played.length ∧ after.inFlight = 0) ∧
    ((∀ played, played <+: rounds → countAfter played.flatten barrier.inFlight ≠ 0) →
      ∃ readings after, Barrier.play rounds barrier = .ok readings after ∧
        Barrier.wait rounds barrier = .error .waitsForever after) := by
  have polls : Barrier.wait rounds barrier =
      pollIdle id (rounds.map fun actions => actions.mapM BarrierAction.perform) barrier :=
    awaitIdle_eq_poll (signalled_of_few rounds permitted few)
  rw [polls]
  refine ⟨⟨?_, ?_⟩, ?_, pollIdle_never rounds permitted⟩
  · rintro ⟨after, returned⟩
    by_contra busy
    exact pollIdle_ne_nil busy returned
  · intro idle
    exact ⟨barrier, pollIdle_of_idle _ idle⟩
  · intro played first
    exact pollIdle_first rounds permitted first

/-- Of two in flight one leaves and a third one enters; then nobody does anything; then the count
touches zero and rises again; then it falls to zero. The last round is not played. -/
def BarrierAction.touchAndGo : List (List BarrierAction) :=
  [[.exit, .enter], [], [.exit, .exit, .enter], [.count, .exit], [.enter]]

theorem Barrier.wait_past_touch :
    Permitted BarrierAction.touchAndGo.flatten 2 ∧ EpochSuffices BarrierAction.touchAndGo 2 ∧
    FirstIdle BarrierAction.touchAndGo (BarrierAction.touchAndGo.take 4) 2 ∧
    ∃ readings after, Barrier.wait BarrierAction.touchAndGo { inFlight := 2 } = .ok readings after ∧
      readings.length = 4 ∧ after.inFlight = 0 := by
  have permitted : Permitted BarrierAction.touchAndGo.flatten 2 := by
    simp [BarrierAction.touchAndGo, Permitted, BarrierAction.countAfter]
  have few : EpochSuffices BarrierAction.touchAndGo 2 := by
    simp [BarrierAction.touchAndGo, EpochSuffices, crossings, countAfter,
      BarrierAction.countAfter, BarrierAction.crossing]
  have first : FirstIdle BarrierAction.touchAndGo (BarrierAction.touchAndGo.take 4) 2 := by
    refine ⟨List.take_prefix _ _, rfl, ?_⟩
    intro fewer begins
    rw [← List.mem_inits] at begins
    revert fewer
    decide
  have returns := (Barrier.wait_returns_first_idle { inFlight := 2 } _ permitted few).2.1 _ first
  obtain ⟨readings, after, _, waited, length, idle⟩ := returns
  exact ⟨permitted, few, first, readings, after, waited, length, idle⟩

end KernelPaging
