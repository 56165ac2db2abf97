/-
KasmCloud.Controller.World — a host, its three controllers and the objects
the API server stores for them.

A step applies a spec, as the webhooks admit it, lets one controller run on
an object as it is stored, or lets a provider process end by itself. A
cleanup that returns takes the finalizer off, whatever its action, and the
object is gone. What the surroundings answer is part of the step, so every
outcome of a fetch, a NATS call, a spawn or a status patch is some step.

The runs here come one after the other: `Host/Concurrent.lean` is about
what the locks let interleave. `startedFor` is a history variable: steps
write it, and none reads it.
-/
import KasmCloud.Controller.Objects

namespace KasmCloud

open Lib V1alpha1

structure World where
  ctx : Ctx
  /-- The objects of this host, by name. -/
  actors : HashMap String V1alpha1.Actor
  links : HashMap String Link
  providers : HashMap String V1alpha1.Provider
  /-- The call loops that runs for an actor have started so far. -/
  startedFor : HashMap String (Finset Ulid)

def World.new (latticePrefix : String) : World where
  ctx := .new latticePrefix
  actors := ∅
  links := ∅
  providers := ∅
  startedFor := ∅

abbrev World.host (w : World) : Host := w.ctx.host

def World.setHost (w : World) (host : Host) : World :=
  { w with ctx := { w.ctx with host } }

def World.startedBy (w : World) (name : String) : Finset Ulid :=
  (w.startedFor.lookup name).getD ∅

inductive WorldStep where
  | applyActor (name : String) (spec : ActorSpec)
  | applyLink (name : String) (spec : LinkSpec)
  | applyProvider (name : String) (spec : ProviderSpec)
  | reconcileActor (name : String) (fetched : Except String WasmActor) (failAt : Option Nat)
      (patched : Bool)
  | deleteActor (name : String)
  | addLink (name : String) (cluster : Cluster) (publish : PublishOutcome) (patched : Bool)
  | deleteLink (name : String) (publish : PublishOutcome)
  | reconcileProvider (name : String) (fetched : Except String ProviderImage)
      (failure : Option StartFailure) (patched : Bool)
  | deleteProvider (name : String) (shutdown : ShutdownOutcome)
  | processExit (pid : Pid)

/-- The status an object has after a run asked for `patch`. -/
def patchStatus {α : Type} (old patch : Option α) (patched : Bool) : Option α :=
  match patch with
  | some status => if patched then some status else old
  | none => old

/-- `kubectl apply` of an Actor; the webhook reads `replicas` as a `uint`. -/
def World.applyActor (w : World) (name : String) (spec : ActorSpec) : Option World :=
  if spec.replicas.toInt < 0 then none
  else
    match w.actors.lookup name with
    | none => some { w with actors := w.actors.insert name ⟨name, spec, none⟩ }
    | some old =>
      if Actor.validateUpdate { old with spec } old = [] then
        some { w with actors := w.actors.insert name { old with spec } }
      else none

def World.applyLink (w : World) (name : String) (spec : LinkSpec) : Option World :=
  match w.links.lookup name with
  | none =>
    if Link.validate ⟨name, spec, none⟩ = [] then
      some { w with links := w.links.insert name ⟨name, spec, none⟩ }
    else none
  | some old =>
    if Link.validateUpdate { old with spec } old = [] then
      some { w with links := w.links.insert name { old with spec } }
    else none

def World.applyProvider (w : World) (name : String) (spec : ProviderSpec) : Option World :=
  match w.providers.lookup name with
  | none => some { w with providers := w.providers.insert name ⟨name, spec, none⟩ }
  | some old =>
    if Provider.validateUpdate { old with spec } old = [] then
      some { w with providers := w.providers.insert name { old with spec } }
    else none

section Sha256

variable (sha256 : String → String)

/-- A controller runs on an object that exists. -/
def World.step (w : World) : WorldStep → Option World
  | .applyActor name spec => w.applyActor name spec
  | .applyLink name spec => w.applyLink name spec
  | .applyProvider name spec => w.applyProvider name spec
  | .reconcileActor name fetched failAt patched =>
    (w.actors.lookup name).map fun actor =>
      let res := reconcileActor w.host actor fetched failAt
      { w.setHost res.host with
        actors := w.actors.insert name
          { actor with status := patchStatus actor.status res.patch patched }
        startedFor := w.startedFor.insert actor.name
          (w.startedBy actor.name ∪ (res.host.loops \ w.host.loops)) }
  | .deleteActor name =>
    (w.actors.lookup name).map fun actor =>
      { w.setHost (deleteActor w.host actor).2 with actors := w.actors.erase name }
  | .addLink name cluster publish patched =>
    (w.links.lookup name).map fun link =>
      let res := addLink sha256 w.ctx cluster link publish
      { w with
        ctx := res.ctx
        links := w.links.insert name
          { link with status := patchStatus link.status res.patch patched } }
  | .deleteLink name publish =>
    (w.links.lookup name).map fun link =>
      { w with
        ctx := (deleteLink sha256 w.ctx link publish).2
        links := w.links.erase name }
  | .reconcileProvider name fetched failure patched =>
    (w.providers.lookup name).map fun provider =>
      let res := reconcileProvider w.host provider fetched failure
      { w.setHost res.host with
        providers := w.providers.insert name
          { provider with status := patchStatus provider.status res.patch patched } }
  | .deleteProvider name shutdown =>
    (w.providers.lookup name).map fun provider =>
      { w.setHost (deleteProvider w.host provider shutdown).2 with
        providers := w.providers.erase name }
  | .processExit pid =>
    some (w.setHost { w.host with processes := w.host.processes.erase pid })

/-- A host with its controllers and their objects. -/
def worldMachine (latticePrefix : String) : Machine World WorldStep where
  init := .new latticePrefix
  step := World.step sha256

end Sha256

end KasmCloud
