import KernelPaging.Accessed.Store
import KernelPaging.Frame.Table

/-!
Second-chance selection of a victim. The hand advances to the first unpinned frame; from there on
the sweep passes over pinned frames, and over touched ones after clearing their mark, and stops at
the first untouched one. If it comes back to where it started, that frame is the victim.
-/

set_option autoImplicit false

namespace KernelPaging

def FrameTable.unpinnedAt (table : FrameTable) (index : Nat) : Bool :=
  match table.occupant? index with
  | some occupant => !occupant.pinned
  | none => false

def FrameTable.seekUnpinned : (turns : Nat) → FrameTable → Option Nat × FrameTable
  | 0, table => (none, table)
  | turns + 1, table =>
      match table.advance table.hand with
      | none => (none, table)
      | some index =>
          let moved := { table with hand := some index }
          if moved.unpinnedAt index then (some index, moved) else moved.seekUnpinned turns

/-- Whether the frame in a slot may be taken now. A touched frame may not, but loses its mark. -/
def FrameTable.examine {bits : Type} [AccessedBits bits] (table : FrameTable) (index : Nat)
    (marks : bits) : Except Halt (Bool × bits) :=
  match table.occupant? index with
  | none => .ok (false, marks)
  | some occupant =>
      if occupant.pinned then
        .ok (false, marks)
      else
        match AccessedBits.isAccessed occupant.owner occupant.uaddr marks with
        | .error halt => .error halt
        | .ok (false, marks) => .ok (true, marks)
        | .ok (true, marks) =>
            match AccessedBits.clearAccessed occupant.owner occupant.uaddr marks with
            | .error halt => .error halt
            | .ok marks => .ok (false, marks)

/-- Sweeps on from `current` until a frame may be taken or the sweep is back at `start`. A ring of
`turns` frames is around in as many turns. -/
def FrameTable.sweep {bits : Type} [AccessedBits bits] (start : Nat) :
    (turns : Nat) → (current : Nat) → FrameTable → bits → Except Halt (Nat × FrameTable × bits)
  | 0, _, table, marks => .ok (start, table, marks)
  | turns + 1, current, table, marks =>
      match table.examine current marks with
      | .error halt => .error halt
      | .ok (true, marks) => .ok (current, table, marks)
      | .ok (false, marks) =>
          match table.advance (some current) with
          | none => .ok (start, table, marks)
          | some next =>
              let moved := { table with hand := some next }
              if next = start then
                .ok (start, moved, marks)
              else
                moved.sweep start turns next marks

def FrameTable.selectVictim {bits : Type} [AccessedBits bits] (table : FrameTable) (marks : bits) :
    Except Halt (Except AllocError Nat × FrameTable × bits) :=
  if table.count = 0 then
    .ok (.error .tableEmpty, table, marks)
  else
    match table.seekUnpinned table.count with
    | (none, table) => .ok (.error .allPinned, table, marks)
    | (some start, table) =>
        match table.sweep start table.count start marks with
        | .error halt => .error halt
        | .ok (victim, table, marks) => .ok (.ok victim, table, marks)

end KernelPaging
