/-
KasmCloud.Controller.Fleet — several hosts that run the Link controller over
the same Link objects with one finalizer, `kasmcloud-host/cleanup`
(`main`, the links controller).

* `LinkObject` is a Link in the API server: an object that is being deleted
  stays until its finalizer is taken off.
* `HostView` is one host: its tables, the versions of the objects its watch
  has delivered so far, and the names its controller has yet to run on. A
  controller runs on the version delivered last; one that is gone by then
  is not run on.
* `FinalizerEvent` is the decision of `finalizer::finalizer`, on the version
  the host has.

Watches deliver versions at any time and may skip some. What the API server
refuses, and whatever else goes wrong after a run, is the flag `patched`.
-/
import KasmCloud.Controller.LinksTheorems

namespace KasmCloud

open Lib V1alpha1

/-! ## The API server -/

/-- A Link with the metadata a finalizer looks at. Its name is its key. -/
structure LinkObject where
  spec : LinkSpec
  status : Option LinkStatus
  deleting : Bool
  finalizer : Bool
  deriving DecidableEq

def LinkObject.link (o : LinkObject) (name : String) : Link := ⟨name, o.spec, o.status⟩

/-- What a controller does with an object. -/
inductive FinalizerEvent where
  | addFinalizer
  | apply
  | cleanup
  | ignore
  deriving DecidableEq, Repr

def LinkObject.event (o : LinkObject) : FinalizerEvent :=
  if o.deleting then
    if o.finalizer then .cleanup else .ignore
  else
    if o.finalizer then .apply else .addFinalizer

/-- The API server adds no finalizer to an object that is being deleted. -/
def LinkObject.addFinalizer (o : LinkObject) : LinkObject :=
  if o.deleting then o else { o with finalizer := true }

/-- `patch_status` of `add_link`, which may not have asked for it. -/
def LinkObject.storeStatus (patch : Option LinkStatus) (o : LinkObject) : LinkObject :=
  match patch with
  | some status => { o with status := some status }
  | none => o

/-- The last finalizer of an object that is being deleted takes it away. A
patch for one that is not there fails its test. -/
def LinkObject.removeFinalizer (o : LinkObject) : Option LinkObject :=
  if o.finalizer then
    if o.deleting then none else some { o with finalizer := false }
  else some o

/-! ## The hosts -/

structure HostView where
  ctx : Ctx
  /-- The versions delivered last. -/
  store : HashMap String LinkObject
  /-- Names with an event that is not processed. -/
  queue : Finset String

variable {η : Type}

structure Fleet (η : Type) where
  objects : HashMap String LinkObject
  hosts : η → HostView

def Fleet.new (latticePrefix : String) : Fleet η where
  objects := ∅
  hosts _ := ⟨.new latticePrefix, ∅, ∅⟩

/-- A patch of an object that may be gone, or whose patch may go wrong. -/
def Fleet.patch (s : Fleet η) (name : String) (patched : Bool)
    (f : LinkObject → Option LinkObject) : Fleet η :=
  match s.objects.lookup name with
  | some o =>
    if patched then
      match f o with
      | some o' => { s with objects := s.objects.insert name o' }
      | none => { s with objects := s.objects.erase name }
    else s
  | none => s

variable [DecidableEq η]

def Fleet.setHost (s : Fleet η) (h : η) (v : HostView) : Fleet η :=
  { s with hosts := Function.update s.hosts h v }

inductive FleetStep (η : Type) where
  | create (name : String) (spec : LinkSpec)
  | delete (name : String)
  | observe (h : η) (name : String)
  | process (h : η) (name : String) (cluster : Cluster) (publish : PublishOutcome)
      (patched : Bool)

/-- A name leaves the queue unless its run asks to be run again. -/
def HostView.finish (v : HostView) (name : String) (action : Action) (patched : Bool) : HostView :=
  { v with queue := if action = .awaitChange ∧ patched = true then v.queue.erase name else v.queue }

section Sha256

variable (sha256 : String → String)

/-- One run of the Link controller of a host on a name. -/
def Fleet.process (s : Fleet η) (h : η) (name : String) (seen : LinkObject) (cluster : Cluster)
    (publish : PublishOutcome) (patched : Bool) : Fleet η :=
  let v := s.hosts h
  match seen.event with
  | .addFinalizer =>
    (s.setHost h (v.finish name .awaitChange patched)).patch name patched
      fun o => some o.addFinalizer
  | .apply =>
    let res := addLink sha256 v.ctx cluster (seen.link name) publish
    -- a failed status patch is only logged
    (s.setHost h ({ v with ctx := res.ctx }.finish name res.action true)).patch name patched
      fun o => some (o.storeStatus res.patch)
  | .cleanup =>
    match deleteLink sha256 v.ctx (seen.link name) publish with
    | (action, ctx) =>
      -- the finalizer comes off once the run has returned, whatever its action
      (s.setHost h ({ v with ctx }.finish name action patched)).patch name patched
        LinkObject.removeFinalizer
  | .ignore => s.setHost h (v.finish name .awaitChange true)

def Fleet.step (s : Fleet η) : FleetStep η → Option (Fleet η)
  | .create name spec =>
    match s.objects.lookup name with
    | none =>
      if Link.validate ⟨name, spec, none⟩ = [] then
        some { s with objects := s.objects.insert name ⟨spec, none, false, false⟩ }
      else none
    | some _ => none
  | .delete name =>
    match s.objects.lookup name with
    | some o =>
      if o.finalizer then
        some { s with objects := s.objects.insert name { o with deleting := true } }
      else some { s with objects := s.objects.erase name }
    | none => none
  | .observe h name =>
    let v := s.hosts h
    match s.objects.lookup name with
    | some o =>
      some (s.setHost h { v with store := v.store.insert name o, queue := insert name v.queue })
    | none => some (s.setHost h { v with store := v.store.erase name, queue := v.queue.erase name })
  | .process h name cluster publish patched =>
    if name ∈ (s.hosts h).queue then
      ((s.hosts h).store.lookup name).map fun seen =>
        s.process sha256 h name seen cluster publish patched
    else none

/-- Any number of hosts over the same Links. -/
def fleetMachine (η : Type) [DecidableEq η] (latticePrefix : String) :
    Machine (Fleet η) (FleetStep η) where
  init := .new latticePrefix
  step := Fleet.step sha256

end Sha256

end KasmCloud
