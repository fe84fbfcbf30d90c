import KernelPaging.Frame.Sections
import KernelPaging.Log
import KernelPaging.Notice
import KernelPaging.Page.Supply
import KernelPaging.User.Access

/-!
Memory management as a whole: the log, the supply of pages with their contents, the accessed bits,
the frame table and user memory. Kernel code runs on it and may stop; what was done and logged
before the stop stays.
-/

set_option autoImplicit false

namespace KernelPaging

structure Subsystem (bits : Type) where
  log : Logger := {}
  supply : PageSupply
  memory : PageMemory := {}
  accessed : bits
  frames : FrameTable := {}
  window : UserWindow := ({} : Config).window
  user : UserSpace := {}

abbrev Kernel (bits : Type) := EStateM Halt (Subsystem bits)

variable {bits result : Type}

def announce (notice : Notice) : Kernel bits Unit := do
  let subsystem ← get
  match subsystem.log.write notice.record with
  | .ok log => set { subsystem with log }
  | .error halt => throw halt

def announce? : Option Notice → Kernel bits Unit
  | none => return
  | some notice => announce notice

def stop (halt : Halt) : Kernel bits result := do
  announce? halt.notice?
  throw halt

def orStop (outcome : Except Halt result) : Kernel bits result :=
  match outcome with
  | .ok value => return value
  | .error halt => stop halt

/-- Runs code whose stop ends only the thread it runs on. -/
def attempt (code : Kernel bits result) : Kernel bits (Except Halt result) := fun subsystem =>
  match code subsystem with
  | .ok value subsystem => .ok (.ok value) subsystem
  | .error halt subsystem => .ok (.error halt) subsystem

end KernelPaging
