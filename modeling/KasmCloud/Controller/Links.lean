/-
KasmCloud.Controller.Links — the Link controller of one host: `add_link`
and `delete_link` of `src/main.rs`, with the `Ctx.links` table in which the
host counts the Links that refer to a definition.

* `resolveLink` is `add_link` up to the point where the definition is
  complete, with every early exit. What the API server answers to the two
  lookups is the argument `cluster`.
* `Ctx.installLink` is the section under the write lock of `Ctx.links`.
* `LinkWorld` is a host together with the Link statuses the API server
  stores; `linkMachine` runs `add_link` and `delete_link` over Links whose
  specs do not change, each run reading the status stored last.
-/
import KasmCloud.Host.LinksTheorems
import KasmCloud.Lib.Machine
import KasmCloud.Lib.RefTable

namespace KasmCloud

open Lib V1alpha1

/-- `kube::runtime::controller::Action`; seconds for a requeue. -/
inductive Action where
  | awaitChange
  | requeue (secs : Nat)
  deriving DecidableEq, Repr

/-! ## Resolution -/

/-- The answers to `actor_client.get` and `provider_client.get`; `none` is
an error. -/
structure Cluster where
  actor : String → Option V1alpha1.Actor
  provider : String → Option V1alpha1.Provider

/-- The definition before any lookup: the spec, then a complete status. -/
def initialDefinition (spec : LinkSpec) (status : Option LinkStatus) :
    LinkDefinition :=
  let ld : LinkDefinition :=
    { actorId := "", providerId := "", linkName := spec.linkName,
      contractId := spec.contractId, values := spec.values }
  match status with
  | some status =>
    if status.complete then
      { ld with
        actorId := status.actorKey, providerId := status.providerKey,
        linkName := status.linkName }
    else ld
  | none => ld

/-- The actor's public key, unless it is known already. -/
def resolveActor (cluster : Cluster) (spec : LinkSpec) (ld : LinkDefinition) :
    Except Action LinkDefinition :=
  if ld.actorId = "" then
    if spec.actor.key ≠ "" then .ok { ld with actorId := spec.actor.key }
    else if spec.actor.name ≠ "" then
      match cluster.actor spec.actor.name with
      | some actor =>
        match actor.status with
        | some status =>
          if status.publicKey = "" then .error (.requeue 10)
          else .ok { ld with actorId := status.publicKey }
        | none => .error (.requeue 10)
      | none => .error (.requeue 60)
    else .error .awaitChange
  else .ok ld

/-- The provider's public key and link name, unless both are known already. -/
def resolveProvider (cluster : Cluster) (spec : LinkSpec) (ld : LinkDefinition) :
    Except Action LinkDefinition :=
  if ld.providerId = "" ∨ ld.linkName = "" then
    if spec.provider.name ≠ "" then
      match cluster.provider spec.provider.name with
      | some provider =>
        if ld.linkName ≠ "" ∧ ld.linkName ≠ provider.spec.link then .error .awaitChange
        else
          match provider.status with
          | some status =>
            if status.publicKey = "" then .error (.requeue 10)
            else if spec.provider.key ≠ "" ∧ status.publicKey ≠ spec.provider.key then
              .error (.requeue 10)
            else .ok { ld with providerId := status.publicKey, linkName := provider.spec.link }
          | none => .error (.requeue 10)
      | none => .error (.requeue 60)
    else if spec.provider.key ≠ "" then .ok { ld with providerId := spec.provider.key }
    else .error .awaitChange
  else .ok ld

/-- `add_link` until the definition is complete; an error is the action
returned instead. -/
def resolveLink (cluster : Cluster) (link : Link) : Except Action LinkDefinition :=
  if link.spec.linkName = "" ∧ link.spec.provider.key ≠ "" then
    -- `please set provider's link name`: this exit does not look at
    -- `spec.provider.name`, nor at the status
    .error .awaitChange
  else do
    let ld ← resolveActor cluster link.spec (initialDefinition link.spec link.status)
    resolveProvider cluster link.spec ld

/-! ## The table of references -/

/-- The key of `Ctx.links`: `"{contract_id}.{actor_id}.{link_name}"`. -/
def linkId (contractId actorId linkName : String) : String :=
  contractId ++ "." ++ actorId ++ "." ++ linkName

def LinkDefinition.id (ld : LinkDefinition) : String :=
  linkId ld.contractId ld.actorId ld.linkName

/-- The part of `Ctx` that is not an API client. -/
structure Ctx where
  host : Host
  /-- id -> (definition, names of the Links that refer to it) -/
  links : HashMap String (LinkDefinition × Finset String)
  deriving DecidableEq

def Ctx.new (latticePrefix : String) : Ctx where
  host := .new latticePrefix
  links := ∅

/-- The status `add_link` publishes for a definition. -/
def LinkDefinition.status (ld : LinkDefinition) : LinkStatus where
  providerKey := ld.providerId
  actorKey := ld.actorId
  linkName := ld.linkName
  conditions := []

section Sha256

variable (sha256 : String → String)

/-- The section of `add_link` under the write lock of `Ctx.links`; the flag
says whether it went through. An occupied entry is joined without a look at
its definition. -/
def Ctx.installLink (ctx : Ctx) (name : String) (ld : LinkDefinition)
    (publish : PublishOutcome) : Ctx × Bool :=
  match ctx.links.lookup ld.id with
  | none =>
    match ctx.host.addLinkdef sha256 ld publish with
    | (host, .ok ()) => ({ host, links := ctx.links.insert ld.id (ld, {name}) }, true)
    | (host, .error _) => ({ ctx with host }, false)
  | some (found, names) =>
    ({ ctx with links := ctx.links.insert ld.id (found, insert name names) }, true)

/-- The result of one `add_link` run: the action, the tables, and the status
the run asked the API server to store, if it did. -/
structure AddLinkResult where
  action : Action
  ctx : Ctx
  patch : Option LinkStatus

/-- `add_link`. A failed status patch is only logged, so it does not show in
the result; the caller of this function decides whether `patch` is stored. -/
def addLink (ctx : Ctx) (cluster : Cluster) (link : Link) (publish : PublishOutcome) :
    AddLinkResult :=
  match resolveLink cluster link with
  | .error action => ⟨action, ctx, none⟩
  | .ok ld =>
    match ctx.installLink sha256 link.name ld publish with
    | (ctx, false) => ⟨.awaitChange, ctx, none⟩
    | (ctx, true) =>
      if link.status = some ld.status then ⟨.awaitChange, ctx, none⟩
      else ⟨.awaitChange, ctx, some ld.status⟩

/-- The section of `delete_link` under the write lock of `Ctx.links`. -/
def Ctx.releaseLink (ctx : Ctx) (name id : String) (publish : PublishOutcome) :
    Action × Ctx :=
  match ctx.links.lookup id with
  | none => (.awaitChange, ctx)
  | some (ld, names) =>
    if names.erase name = ∅ then
      match ctx.host.deleteLinkdef sha256 ld publish with
      | (host, .ok ()) => (.awaitChange, { host, links := ctx.links.erase id })
      | (host, .error _) =>
        -- the entry stays, without the name
        (.requeue 10, { host, links := ctx.links.insert id (ld, ∅) })
    else (.awaitChange, { ctx with links := ctx.links.insert id (ld, names.erase name) })

/-- `delete_link`. -/
def deleteLink (ctx : Ctx) (link : Link) (publish : PublishOutcome) : Action × Ctx :=
  match link.status with
  | some status =>
    if status.complete then
      ctx.releaseLink sha256 link.name
        (linkId link.spec.contractId status.actorKey status.linkName) publish
    else (.awaitChange, ctx)
  | none => (.awaitChange, ctx)

/-! ## Runs over a set of Links -/

/-- A host and the Link statuses in the API server. -/
structure LinkWorld where
  ctx : Ctx
  stored : HashMap String LinkStatus
  deriving DecidableEq

def LinkWorld.new (latticePrefix : String) : LinkWorld where
  ctx := .new latticePrefix
  stored := ∅

/-- One controller run, with what its surroundings answer. -/
inductive LinkRun where
  | add (name : String) (cluster : Cluster) (publish : PublishOutcome) (patched : Bool)
  | delete (name : String) (publish : PublishOutcome)

variable (spec : String → LinkSpec)

/-- The Link object of a name, as the API server stores it. -/
def LinkWorld.link (w : LinkWorld) (name : String) : Link :=
  ⟨name, spec name, w.stored.lookup name⟩

def LinkWorld.run (w : LinkWorld) : LinkRun → LinkWorld
  | .add name cluster publish patched =>
    let res := addLink sha256 w.ctx cluster (w.link spec name) publish
    { ctx := res.ctx
      stored :=
        match res.patch with
        | some status => if patched then w.stored.insert name status else w.stored
        | none => w.stored }
  | .delete name publish =>
    { w with ctx := (deleteLink sha256 w.ctx (w.link spec name) publish).2 }

/-- The Link controller of one host over Links with fixed specs. -/
def linkMachine (latticePrefix : String) : Machine LinkWorld LinkRun where
  init := .new latticePrefix
  step w r := some (w.run sha256 spec r)

end Sha256

end KasmCloud
