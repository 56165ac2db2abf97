/-
KasmCloud.Controller.ActorFleet — several hosts that run the Actor controller
over the same Actor objects (`main`, the actors controller).

A host leaves an Actor of another host alone, so one host only adds the
finalizer, applies the object and cleans it up. What a controller works on
are versions that its watch has delivered; the object may have changed since,
and even be a new one of the same name, which the patches do not notice.

* `ActorObject` has the metadata a finalizer looks at, and the `uid` that
  tells a later object of a name from an earlier one. The status is not read
  by any of the steps here.
* `ActorHost` is one host: its tables with the calls in progress
  (`Host/Concurrent.lean`), the versions delivered last, and the version that
  a run in progress is on. There is one run for a name at a time.
* A run takes several steps: it begins, its call goes through its sections, and
  once the call has returned the object is patched. What makes a controller
  begin a run is left out: it may do so at any time.
-/
import KasmCloud.Controller.Fleet
import KasmCloud.Controller.Objects
import KasmCloud.Host.Concurrent

namespace KasmCloud

open Lib V1alpha1

/-! ## The API server -/

structure ActorObject where
  uid : Nat
  spec : ActorSpec
  deleting : Bool
  finalizer : Bool
  deriving DecidableEq

/-- The decision of `finalizer::finalizer`. -/
def ActorObject.event (o : ActorObject) : FinalizerEvent :=
  if o.deleting then
    if o.finalizer then .cleanup else .ignore
  else
    if o.finalizer then .apply else .addFinalizer

/-- The API server adds no finalizer to an object that is being deleted. -/
def ActorObject.addFinalizer (o : ActorObject) : ActorObject :=
  if o.deleting then o else { o with finalizer := true }

/-- The last finalizer of an object that is being deleted takes it away. -/
def ActorObject.removeFinalizer (o : ActorObject) : Option ActorObject :=
  if o.finalizer then
    if o.deleting then none else some { o with finalizer := false }
  else some o

/-- The call a controller makes for a version of an object. -/
def ActorObject.call (o : ActorObject) (name : String) (fetched : Except String WasmActor) :
    Option SystemStep :=
  match o.event with
  | .apply => some (.reconcileActor name o.spec.image fetched (asUsize o.spec.replicas))
  | .cleanup => some (.removeActor name)
  | .addFinalizer | .ignore => none

/-! ## The hosts -/

structure ActorHost where
  system : System
  /-- The versions delivered last. -/
  store : HashMap String ActorObject
  /-- The versions that runs in progress are on. -/
  runs : HashMap String ActorObject

def ActorHost.new (latticePrefix : String) : ActorHost where
  system := .new latticePrefix
  store := ∅
  runs := ∅

/-- The steps of link calls, which other controllers make. -/
def SystemStep.onLinks : SystemStep → Bool
  | .addLinkdef _ | .deleteLinkdef _ | .routeLinkdef | .publishLinkdef _ => true
  | _ => false

section Sha256

variable (sha256 : String → String)

/-- The controller begins a run on a name, with the call it makes. -/
def ActorHost.begin (v : ActorHost) (name : String) (seen : ActorObject)
    (fetched : Except String WasmActor) : Option ActorHost :=
  match seen.event, seen.call name fetched with
  | .ignore, _ => some v
  | _, some call => (v.system.step sha256 call).map fun system =>
    { v with system, runs := v.runs.insert name seen }
  | _, none => some { v with runs := v.runs.insert name seen }

/-- The controller of the host `hostName` is called for a name. -/
def ActorHost.start (v : ActorHost) (hostName name : String) (fetched : Except String WasmActor) :
    Option ActorHost :=
  match v.runs.lookup name, v.store.lookup name with
  | none, some seen =>
    if seen.spec.host ≠ hostName then some v else v.begin sha256 name seen fetched
  | _, _ => none

end Sha256

/-! ## The fleet -/

variable {η : Type}

structure ActorFleet (η : Type) where
  objects : HashMap String ActorObject
  nextUid : Nat
  hosts : η → ActorHost

def ActorFleet.new (latticePrefix : String) : ActorFleet η where
  objects := ∅
  nextUid := 0
  hosts _ := .new latticePrefix

/-- A patch of an object that may be gone, or whose patch may go wrong. -/
def ActorFleet.patch (s : ActorFleet η) (name : String) (patched : Bool)
    (f : ActorObject → Option ActorObject) : ActorFleet η :=
  match s.objects.lookup name with
  | some o =>
    if patched then
      match f o with
      | some o' => { s with objects := s.objects.insert name o' }
      | none => { s with objects := s.objects.erase name }
    else s
  | none => s

inductive ActorFleetStep (η : Type) where
  | create (name : String) (spec : ActorSpec)
  | update (name : String) (spec : ActorSpec)
  | delete (name : String)
  | observe (h : η) (name : String)
  | start (h : η) (name : String) (fetched : Except String WasmActor)
  | actorSection (h : η) (name : String) (failAt : Option Nat)
  | finish (h : η) (name : String) (patched : Bool)
  | links (h : η) (step : SystemStep)
  | restart (h : η)

variable [DecidableEq η]

def ActorFleet.setHost (s : ActorFleet η) (h : η) (v : ActorHost) : ActorFleet η :=
  { s with hosts := Function.update s.hosts h v }

/-- A run whose call has returned ends with its patch. That of an applied
object is one of its status. -/
def ActorFleet.finish (s : ActorFleet η) (h : η) (name : String) (seen : ActorObject)
    (patched : Bool) : ActorFleet η :=
  let s := s.setHost h { s.hosts h with runs := (s.hosts h).runs.erase name }
  match seen.event with
  | .addFinalizer => s.patch name patched fun o => some o.addFinalizer
  | .cleanup => s.patch name patched ActorObject.removeFinalizer
  | .apply | .ignore => s

/-- What the webhooks ask of a new spec of an object. -/
def ActorObject.admits (o : ActorObject) (name : String) (spec : ActorSpec) : Bool :=
  decide (0 ≤ spec.replicas.toInt ∧
    Actor.validateUpdate ⟨name, spec, none⟩ ⟨name, o.spec, none⟩ = [])

section Step

variable (sha256 : String → String) (hostName : η → String) (latticePrefix : String)

/-- Take one step; `none` if it is not enabled. -/
def ActorFleet.step (s : ActorFleet η) : ActorFleetStep η → Option (ActorFleet η)
  | .create name spec =>
    match s.objects.lookup name with
    | none =>
      if 0 ≤ spec.replicas.toInt then
        some { s with
          objects := s.objects.insert name ⟨s.nextUid, spec, false, false⟩
          nextUid := s.nextUid + 1 }
      else none
    | some _ => none
  | .update name spec =>
    match s.objects.lookup name with
    | some o =>
      if o.admits name spec then
        some { s with objects := s.objects.insert name { o with spec } }
      else none
    | none => none
  | .delete name =>
    match s.objects.lookup name with
    | some o =>
      if o.finalizer then
        some { s with objects := s.objects.insert name { o with deleting := true } }
      else some { s with objects := s.objects.erase name }
    | none => none
  | .observe h name =>
    let v := s.hosts h
    match s.objects.lookup name with
    | some o => some (s.setHost h { v with store := v.store.insert name o })
    | none => some (s.setHost h { v with store := v.store.erase name })
  | .start h name fetched =>
    ((s.hosts h).start sha256 (hostName h) name fetched).map (s.setHost h)
  | .actorSection h name failAt =>
    ((s.hosts h).system.step sha256 (.actorSection name failAt)).map fun system =>
      s.setHost h { s.hosts h with system }
  | .finish h name patched =>
    match (s.hosts h).runs.lookup name, (s.hosts h).system.actorCalls.lookup name with
    | some seen, none => some (s.finish h name seen patched)
    | _, _ => none
  | .links h step =>
    if step.onLinks then
      ((s.hosts h).system.step sha256 step).map fun system =>
        s.setHost h { s.hosts h with system }
    else none
  | .restart h => some (s.setHost h (.new latticePrefix))

/-- Any number of hosts over the same Actors; `hostName` is the name each is
configured with. -/
def actorFleetMachine : Machine (ActorFleet η) (ActorFleetStep η) where
  init := .new latticePrefix
  step := ActorFleet.step sha256 hostName latticePrefix

end Step

end KasmCloud
