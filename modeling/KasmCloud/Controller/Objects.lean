/-
KasmCloud.Controller.Objects — the Actor and Provider controllers of one
host (`src/main.rs`): `reconcile_actor`, `delete_actor`,
`reconcile_provider` and `delete_provider`, with the statuses they publish.

As for `add_link`, a failed status patch is only logged; the result says
which status a run asked the API server to store.
-/
import KasmCloud.Host.Actors
import KasmCloud.Host.Providers
import KasmCloud.Controller.Links
import Mathlib.Data.List.Sort

namespace KasmCloud

open Lib V1alpha1

/-! ## Actors -/

/-- `as usize` of an `i32`: the value modulo 2^64. -/
def asUsize (n : Int32) : Nat := (n.toInt % 2 ^ 64).toNat

theorem asUsize_of_nonneg {n : Int32} (h : 0 ≤ n.toInt) : (asUsize n : Int) = n.toInt := by
  have hlt : n.toInt < 2 ^ 64 := by have := n.toInt_lt; omega
  rw [asUsize, Int.emod_eq_of_lt h hlt, Int.toNat_of_nonneg h]

/-- The status `reconcile_actor` publishes. An actor image lists its
capabilities under `capability_provider`. -/
def actorStatus (claims : Jwt.Claims Jwt.Actor) (replicas : Int32) : ActorStatus :=
  let status : ActorStatus :=
    { publicKey := claims.subject
      claims := .ofJwt claims
      descriptiveName := none
      caps := none
      capabilityProvider := none
      callAlias := none
      version := none
      reversion := none
      conditions := []
      replicas := replicas
      availableReplicas := replicas }
  match claims.metadata with
  | none => status
  | some md =>
    { status with
      descriptiveName := md.name
      caps := if md.provider then md.caps else none
      capabilityProvider := if md.provider then none else md.caps
      reversion := md.rev
      version := md.ver
      callAlias := md.callAlias }

/-- The result of a run of `reconcile_actor`. -/
structure ReconcileActorResult where
  action : Action
  host : Host
  patch : Option ActorStatus

/-- `reconcile_actor` of `main.rs`. -/
def reconcileActor (host : Host) (actor : V1alpha1.Actor) (fetched : Except String WasmActor)
    (failAt : Option Nat) : ReconcileActorResult :=
  match host.reconcileActor actor.name actor.spec.image fetched (asUsize actor.spec.replicas)
      failAt with
  | (host, .ok claims) =>
    let status := actorStatus claims actor.spec.replicas
    if actor.status = some status then ⟨.awaitChange, host, none⟩
    else ⟨.awaitChange, host, some status⟩
  | (host, .error _) => ⟨.awaitChange, host, none⟩

theorem reconcileActor_of_ok {host host' : Host} {actor : V1alpha1.Actor}
    {fetched : Except String WasmActor} {failAt : Option Nat} {claims : Jwt.Claims Jwt.Actor}
    (h : host.reconcileActor actor.name actor.spec.image fetched (asUsize actor.spec.replicas)
      failAt = (host', .ok claims)) :
    reconcileActor host actor fetched failAt =
      ⟨.awaitChange, host',
        if actor.status = some (actorStatus claims actor.spec.replicas) then none
        else some (actorStatus claims actor.spec.replicas)⟩ := by
  simp only [reconcileActor, h]
  split <;> rfl

theorem reconcileActor_of_error {host host' : Host} {actor : V1alpha1.Actor}
    {fetched : Except String WasmActor} {failAt : Option Nat} {e : String}
    (h : host.reconcileActor actor.name actor.spec.image fetched (asUsize actor.spec.replicas)
      failAt = (host', .error e)) :
    reconcileActor host actor fetched failAt = ⟨.awaitChange, host', none⟩ := by
  simp only [reconcileActor, h]

theorem reconcileActor_host (host : Host) (actor : V1alpha1.Actor)
    (fetched : Except String WasmActor) (failAt : Option Nat) :
    (reconcileActor host actor fetched failAt).host =
      (host.reconcileActor actor.name actor.spec.image fetched (asUsize actor.spec.replicas)
        failAt).1 := by
  rcases hcall : host.reconcileActor actor.name actor.spec.image fetched
    (asUsize actor.spec.replicas) failAt with ⟨host', e | claims⟩
  · rw [reconcileActor_of_error hcall]
  · rw [reconcileActor_of_ok hcall]

/-- Every run of `reconcile_actor` ends the same way. -/
theorem reconcileActor_action (host : Host) (actor : V1alpha1.Actor)
    (fetched : Except String WasmActor) (failAt : Option Nat) :
    (reconcileActor host actor fetched failAt).action = .awaitChange := by
  rcases hcall : host.reconcileActor actor.name actor.spec.image fetched
    (asUsize actor.spec.replicas) failAt with ⟨host', e | claims⟩
  · rw [reconcileActor_of_error hcall]
  · rw [reconcileActor_of_ok hcall]

/-- `delete_actor`; `remove_actor` never fails. -/
def deleteActor (host : Host) (actor : V1alpha1.Actor) : Action × Host :=
  (.awaitChange, host.removeActor actor.name)

/-! ## Providers -/

/-- The status `reconcile_provider` publishes. -/
def providerStatus (claims : Jwt.Claims Jwt.CapabilityProvider) : ProviderStatus :=
  let status : ProviderStatus :=
    { publicKey := claims.subject
      descriptiveName := none
      contractId := ""
      vendor := ""
      reversion := none
      version := none
      claims := .ofJwt claims
      architectureTargets := []
      conditions := []
      instanceId := "" }
  match claims.metadata with
  | none => status
  | some md =>
    { status with
      descriptiveName := md.name
      reversion := md.rev
      version := md.ver
      vendor := md.vendor
      contractId := md.capid
      architectureTargets := md.targetHashes.insertionSort (· ≤ ·) }

@[simp] theorem providerStatus_publicKey (claims : Jwt.Claims Jwt.CapabilityProvider) :
    (providerStatus claims).publicKey = claims.subject := by
  unfold providerStatus
  cases claims.metadata <;> rfl

/-- The result of a run of `reconcile_provider`. -/
structure ReconcileProviderResult where
  action : Action
  host : Host
  patch : Option ProviderStatus

/-- `reconcile_provider`. -/
def reconcileProvider (host : Host) (g : V1alpha1.Provider) (fetched : Except String ProviderImage)
    (failure : Option StartFailure) : ReconcileProviderResult :=
  match host.startProvider g.spec.link g.spec.image fetched failure with
  | (host, .ok claims) =>
    let status := providerStatus claims
    if g.status = some status then ⟨.awaitChange, host, none⟩
    else ⟨.awaitChange, host, some status⟩
  | (host, .error _) => ⟨.awaitChange, host, none⟩

theorem reconcileProvider_of_ok {host host' : Host} {g : V1alpha1.Provider}
    {fetched : Except String ProviderImage} {failure : Option StartFailure}
    {claims : Jwt.Claims Jwt.CapabilityProvider}
    (h : host.startProvider g.spec.link g.spec.image fetched failure = (host', .ok claims)) :
    reconcileProvider host g fetched failure =
      ⟨.awaitChange, host',
        if g.status = some (providerStatus claims) then none else some (providerStatus claims)⟩ := by
  simp only [reconcileProvider, h]
  split <;> rfl

theorem reconcileProvider_host (host : Host) (g : V1alpha1.Provider)
    (fetched : Except String ProviderImage) (failure : Option StartFailure) :
    (reconcileProvider host g fetched failure).host =
      (host.startProvider g.spec.link g.spec.image fetched failure).1 := by
  unfold reconcileProvider
  split
  · rename_i hresult
    dsimp only
    split <;> rw [hresult]
  · rename_i hresult
    rw [hresult]

/-- Every run of `reconcile_provider` ends the same way. -/
theorem reconcileProvider_action (host : Host) (g : V1alpha1.Provider)
    (fetched : Except String ProviderImage) (failure : Option StartFailure) :
    (reconcileProvider host g fetched failure).action = .awaitChange := by
  unfold reconcileProvider
  split
  · dsimp only
    split <;> rfl
  · rfl

/-- `delete_provider`; `stop_provider` never fails. -/
def deleteProvider (host : Host) (provider : V1alpha1.Provider) (shutdown : ShutdownOutcome) :
    Action × Host :=
  match provider.status with
  | none => (.awaitChange, host)
  | some status =>
    if status.publicKey = "" then (.awaitChange, host)
    else (.awaitChange, host.stopProvider provider.spec.link status.publicKey shutdown)

end KasmCloud
