import KernelPaging.Subsystem.Kernel

/-!
Bringing memory management up, with the regions that pages come from and the settings of the boot
configuration.
-/

set_option autoImplicit false

namespace KernelPaging

variable {bits : Type}

structure RegionPlan where
  base : UInt64
  pages : Nat

inductive SupplyPlan
  | single (region : RegionPlan)
  | split (kernel user : RegionPlan)

def openRegion (plan : RegionPlan) : Kernel bits PageRegion := do
  let base ← orStop (Address.ofWord plan.base)
  let region ← orStop (PageRegion.create base plan.pages)
  announce (.regionReady base plan.pages)
  return region

def openSupply (plan : SupplyPlan) : Kernel bits Unit := do
  match plan with
  | .single region =>
      let region ← openRegion region
      modify fun subsystem => { subsystem with supply := .single region }
  | .split kernel user =>
      let kernel ← openRegion kernel
      let user ← openRegion user
      modify fun subsystem => { subsystem with supply := .split { kernel, user } }

/-- Applies a configuration: the log level first, then the view of user memory. -/
def boot (config : Config) : Kernel bits Unit := do
  modify fun subsystem =>
    { subsystem with log := subsystem.log.setLevel config.level, window := config.window }
  announce (.ready config.userTop config.effectiveChunk)

end KernelPaging
