import TieredState.Main
import TieredState.Proofs.Atomicity
import TieredState.Proofs.BindingStates
import TieredState.Proofs.Episodes
import TieredState.Proofs.HookDispatch
import TieredState.Proofs.Registration
import TieredState.Proofs.Retention
import TieredState.Proofs.Teardown
import TieredState.Proofs.Views
import TieredState.Proofs.Contention
import TieredState.Proofs.Balance
import TieredState.Proofs.Accesses
import TieredState.Proofs.Flags
import TieredState.Proofs.Phases
import TieredState.Proofs.Shutdown
import TieredState.Proofs.Refusals
import TieredState.Proofs.Lockstep
import TieredState.Proofs.Unwinding
import TieredState.Proofs.Conservation
import TieredState.Proofs.PolicyRules
import TieredState.Proofs.HookLocks
import TieredState.Proofs.HookIdentities
import TieredState.Proofs.Isolation
import TieredState.Proofs.GeneratedNames
import TieredState.Proofs.GeneratedModule
import TieredState.Proofs.Reordering
import TieredState.Proofs.GuardedGroups
import TieredState.Proofs.SingleInstance
import TieredState.Proofs.LateGuards
import TieredState.Proofs.GeneratedText
import TieredState.Proofs.ConstantIdentity
import TieredState.Proofs.Ancestry
import TieredState.Proofs.RefusedBindings
import TieredState.Proofs.TextTraffic
import TieredState.Proofs.Schedules
import TieredState.Proofs.ReferenceCounts
import TieredState.Proofs.ManifestReading
import TieredState.Proofs.ReleasedKeys
import TieredState.Proofs.InstalledName
import TieredState.Proofs.AllocationFigures
import TieredState.Proofs.DeclaredFields
