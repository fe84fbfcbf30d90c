/-!
Recovery from page faults raised by the kernel's own accesses to user memory. A table pairs the
address of each instruction that may fault with the address at which to resume.
-/

set_option autoImplicit false

namespace KernelPaging

structure FixupEntry where
  instruction : UInt64
  resume : UInt64

structure FaultContext where
  rip : UInt64 := 0
  rax : UInt64 := 0

/-- Left in `rax` to report that the access did not happen. -/
def accessFaulted : UInt64 := 0xffffffffffffffff

def raisedInUserMode (errorCode : UInt64) : Bool :=
  errorCode &&& 4 != 0

/-- The context to resume in, if the fault came from a kernel access listed in the table. The first
matching entry decides. -/
def recoverFault (table : List FixupEntry) (errorCode : UInt64) (context : FaultContext) :
    Option FaultContext :=
  if raisedInUserMode errorCode then
    none
  else
    (table.find? fun entry => entry.instruction == context.rip).map fun entry =>
      { rip := entry.resume, rax := accessFaulted }

/-- A hosted kernel has no access instructions of its own to recover. -/
def hostedFixups : List FixupEntry := []

end KernelPaging
