/-
KasmCloud.Host.Api — a host that takes its public calls one after the other.

`apiMachine` runs the six calls of `Host` that change it, in any order and
with any answer of the surroundings; between two calls a provider process
may end by itself. `start_provider` and `stop_provider` hold the write lock
of `Host.providers` throughout, so for them this is every run of the host.
-/
import KasmCloud.Host.Frames
import KasmCloud.Lib.Machine

namespace KasmCloud

open Lib

inductive HostCall where
  | reconcileActor (name actorRef : String) (fetched : Except String WasmActor) (replica : Nat)
      (failAt : Option Nat)
  | removeActor (name : String)
  | startProvider (linkName providerRef : String) (fetched : Except String ProviderImage)
      (failure : Option StartFailure)
  | stopProvider (linkName key : String) (shutdown : ShutdownOutcome)
  | addLinkdef (ld : LinkDefinition) (outcome : PublishOutcome)
  | deleteLinkdef (ld : LinkDefinition) (outcome : PublishOutcome)
  | processExit (pid : Pid)

/-- A provider process ends by itself. -/
def Host.processExit (host : Host) (pid : Pid) : Host :=
  { host with processes := host.processes.erase pid }

section Sha256

variable (sha256 : String → String)

def Host.serve (host : Host) : HostCall → Host
  | .reconcileActor name actorRef fetched replica failAt =>
    (host.reconcileActor name actorRef fetched replica failAt).1
  | .removeActor name => host.removeActor name
  | .startProvider linkName providerRef fetched failure =>
    (host.startProvider linkName providerRef fetched failure).1
  | .stopProvider linkName key shutdown => host.stopProvider linkName key shutdown
  | .addLinkdef ld outcome => (host.addLinkdef sha256 ld outcome).1
  | .deleteLinkdef ld outcome => (host.deleteLinkdef sha256 ld outcome).1
  | .processExit pid => host.processExit pid

/-- The host under its public calls. -/
def apiMachine (latticePrefix : String) : Machine Host HostCall where
  init := .new latticePrefix
  step host call := some (host.serve sha256 call)

end Sha256

/-! ## Providers -/

theorem ProvidersOk.processExit {host : Host} (h : ProvidersOk host) (pid : Pid) :
    ProvidersOk (host.processExit pid) where
  used p hp := h.used p (Finset.mem_of_mem_erase hp)
  recorded := h.recorded
  distinct := h.distinct

theorem ProvidersOk.startProvider {host : Host} (h : ProvidersOk host)
    (linkName providerRef : String) (fetched : Except String ProviderImage)
    (failure : Option StartFailure) :
    ProvidersOk (host.startProvider linkName providerRef fetched failure).1 := by
  rcases startProvider_cases host linkName providerRef h.used fetched failure with
    ⟨e, -, -, hsame⟩ | ⟨image, -, ⟨i, -, -, hsame⟩ |
      ⟨-, ⟨f, -, -, hsame⟩ | ⟨-, -, i, -, hnew⟩⟩⟩
  · exact h.unchanged hsame
  · exact h.unchanged hsame
  · exact h.unchanged hsame
  · exact h.launched hnew

section Sha256

variable {sha256 : String → String}

theorem ProvidersOk.serve {host : Host} (h : ProvidersOk host) (call : HostCall) :
    ProvidersOk (host.serve sha256 call) := by
  cases call with
  | reconcileActor name actorRef fetched replica failAt =>
    exact h.unchanged (reconcileActor_sameProviders host name actorRef fetched replica failAt).unchanged
  | removeActor name => exact h.unchanged (removeActor_sameProviders host name).unchanged
  | startProvider linkName providerRef fetched failure =>
    exact h.startProvider linkName providerRef fetched failure
  | stopProvider linkName key shutdown =>
    exact h.halted (stopProvider_halted host linkName key shutdown)
  | addLinkdef ld outcome =>
    exact h.unchanged (addLinkdef_sameProviders sha256 host ld outcome).unchanged
  | deleteLinkdef ld outcome =>
    exact h.unchanged (deleteLinkdef_sameProviders sha256 host ld outcome).unchanged
  | processExit pid => exact h.processExit pid

theorem providersOk_of_api {latticePrefix : String} {host : Host}
    (h : (apiMachine sha256 latticePrefix).Reachable host) : ProvidersOk host := by
  refine h.invariant (providersOk_new latticePrefix) ?_
  intro host call host' hok hs
  cases hs
  exact hok.serve call

end Sha256

end KasmCloud
