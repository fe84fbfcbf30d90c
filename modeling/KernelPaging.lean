import KernelPaging.Frame.Basic
import KernelPaging.Log
import KernelPaging.User.Access
import KernelPaging.FaultFixup
import KernelPaging.Barrier
import KernelPaging.Page.Supply
import KernelPaging.Accessed.Store
import KernelPaging.Frame.Sections
import KernelPaging.User.Stream
import KernelPaging.User.Copy
import KernelPaging.Subsystem.Boot
import KernelPaging.Subsystem.Release
import KernelPaging.Subsystem.UserCalls
import KernelPaging.Proofs.Slots
import KernelPaging.Proofs.Ring
import KernelPaging.Proofs.RingChanges
import KernelPaging.Proofs.Arena
import KernelPaging.Proofs.Residents
import KernelPaging.Proofs.LockSections
import KernelPaging.Proofs.Traffic
import KernelPaging.Proofs.Effects
import KernelPaging.Proofs.Issues
import KernelPaging.Proofs.Walks
import KernelPaging.Proofs.Victims
import KernelPaging.Proofs.Schedules
import KernelPaging.Proofs.Unpinning
import KernelPaging.Proofs.Bindings
import KernelPaging.Proofs.Programs
import KernelPaging.Proofs.Bitmaps
import KernelPaging.Proofs.Supplies
import KernelPaging.Proofs.Holdings
import KernelPaging.Proofs.Turnover
import KernelPaging.Proofs.Names
import KernelPaging.Proofs.Pins
import KernelPaging.Proofs.Conservation
import KernelPaging.Proofs.Refaults
import KernelPaging.Proofs.Marks
import KernelPaging.Proofs.Waits
import KernelPaging.Proofs.SweepOrder
import KernelPaging.Proofs.ColdFrames
import KernelPaging.Proofs.Teardowns
import KernelPaging.Proofs.Untouched
import KernelPaging.Proofs.TwoThreads
import KernelPaging.Proofs.Overlaps
import KernelPaging.Proofs.UserMirrors
import KernelPaging.Proofs.UserAccesses
import KernelPaging.Proofs.UserBytes
import KernelPaging.Proofs.Streams
import KernelPaging.Proofs.PageChecks
import KernelPaging.Proofs.PageLedgers
import KernelPaging.Proofs.FailedSweeps
import KernelPaging.Proofs.FailedReclaims
import KernelPaging.Proofs.TableWalks
import KernelPaging.Proofs.PageContents
import KernelPaging.Proofs.PoolLedgers
import KernelPaging.Proofs.LogRuns
import KernelPaging.Proofs.SecondChance
import KernelPaging.Proofs.SweepBounds
import KernelPaging.Proofs.RingFrames
import KernelPaging.Proofs.OpenLogs
import KernelPaging.Proofs.HeldVictims
import KernelPaging.Proofs.RegionsInUse
import KernelPaging.Proofs.AllocationOutcomes
import KernelPaging.Proofs.TeardownResults
import KernelPaging.Proofs.RegionEnds
import KernelPaging.Proofs.CopiesIn
import KernelPaging.Proofs.UserTexts
import KernelPaging.Proofs.CopiesOut
import KernelPaging.Proofs.OrderChanges
import KernelPaging.Proofs.Frees
