import KasmCloud.Controller.RefCounting
import KasmCloud.Controller.Cleanup
import KasmCloud.Controller.ProviderSharing
import KasmCloud.Controller.ProviderRemoval
import KasmCloud.Controller.Convergence
import KasmCloud.Controller.FleetCleanup
import KasmCloud.Host.Presence
import KasmCloud.Host.Confinement
import KasmCloud.Host.Isolation
import KasmCloud.Apis.Labels
import KasmCloud.Controller.Statuses
import KasmCloud.Controller.Release
import KasmCloud.Host.Transport
import KasmCloud.Host.CallPaths
import KasmCloud.Host.ActorTable
import KasmCloud.Controller.Fixpoint
import KasmCloud.Host.LinkKnowledge
import KasmCloud.Host.CallDeadlock
import KasmCloud.Host.Failures
import KasmCloud.Controller.Announcements
import KasmCloud.Host.ImageChange
import KasmCloud.Host.ProviderRuns
import KasmCloud.Host.Subjects
import KasmCloud.Host.Replies
import KasmCloud.Host.Responses
import KasmCloud.Host.Blobstore
import KasmCloud.Controller.ClaimTimes
import KasmCloud.Controller.Replicas
import KasmCloud.Host.Aliases
import KasmCloud.Host.LockOrder
import KasmCloud.Host.Stats
import KasmCloud.Host.Names
import KasmCloud.Controller.ActorFleet
import KasmCloud.Controller.ActorPlacement
import KasmCloud.Controller.SingleHost
import KasmCloud.Controller.Resync
import KasmCloud.Host.Guard
import KasmCloud.Controller.LinkedCalls
import KasmCloud.Host.SharedCalls
