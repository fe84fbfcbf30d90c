import KernelPaging.Halt

/-!
The barrier between evictions and teardown. It counts the evictions in flight; whenever the count
falls to zero the epoch moves on, and a waiter that saw the old epoch looks again.
-/

set_option autoImplicit false

namespace KernelPaging

structure Barrier where
  inFlight : Nat := 0
  epoch : UInt64 := 0
deriving DecidableEq

def Barrier.enter (barrier : Barrier) : Barrier :=
  { barrier with inFlight := barrier.inFlight + 1 }

/-- Tells whether this was the last one in flight. -/
def Barrier.exit (barrier : Barrier) : Except Halt (Bool × Barrier) :=
  match barrier.inFlight with
  | 0 => .error .exitWithoutEnter
  | 1 => .ok (true, { inFlight := 0, epoch := barrier.epoch + 1 })
  | others + 2 => .ok (false, { barrier with inFlight := others + 1 })

/-- Waits for the epoch to move away from `seen`. Each time the waiter relaxes, the next round of
what others do is played; with no round left it waits forever. -/
def awaitEpoch {σ ρ : Type} (barrier : σ → Barrier) (seen : UInt64) :
    List (EStateM Halt σ ρ) → EStateM Halt σ (List ρ)
  | [] => throw .waitsForever
  | round :: later => do
      let played ← round
      let now := barrier (← get)
      if now.epoch = seen then
        let others ← awaitEpoch barrier seen later
        return played :: others
      else if now.inFlight = 0 then
        return [played]
      else
        let others ← awaitEpoch barrier now.epoch later
        return played :: others

def awaitIdle {σ ρ : Type} (barrier : σ → Barrier) (rounds : List (EStateM Halt σ ρ)) :
    EStateM Halt σ (List ρ) := do
  let now := barrier (← get)
  if now.inFlight = 0 then
    return []
  else
    awaitEpoch barrier now.epoch rounds

inductive BarrierAction
  | enter
  | exit
  | count

structure BarrierReading where
  last : Option Bool := none
  count : Nat

def BarrierAction.perform (action : BarrierAction) : EStateM Halt Barrier BarrierReading := do
  match action with
  | .enter =>
      modify Barrier.enter
      return { count := (← get).inFlight }
  | .exit =>
      match (← get).exit with
      | .ok (last, barrier) =>
          set barrier
          return { last, count := barrier.inFlight }
      | .error halt => throw halt
  | .count => return { count := (← get).inFlight }

def Barrier.wait (rounds : List (List BarrierAction)) :
    EStateM Halt Barrier (List (List BarrierReading)) :=
  awaitIdle id (rounds.map fun actions => actions.mapM BarrierAction.perform)

end KernelPaging
