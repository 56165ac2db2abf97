/-
KasmCloud.Host.Targets — the targets that actors set for their interface
calls (`crates/host/src/handler.rs`).

`Bus::set_target` writes the target table of a handler; the typed interface
calls (blobstore, keyvalue, messaging) read it. Both hold the table's lock,
an interface call until it returns, so the calls of all invocations take
effect one after the other: `busMachine` interleaves them with the steps of
the host. Every invocation has a clone of its instance's handler, and a
clone points to the table `start_actor` allocated for the actor.

An interface call is modelled as far as it uses the target: to the exchange
of `Handler.callOperationWithPayload`. The argument checks before it send
nothing, and the reply is decoded after it.
-/
import KasmCloud.Host.Confinement
import KasmCloud.Lib.Writes

namespace KasmCloud

open Lib

/-! ## Setting a target -/

/-- The loop of `set_target` over the interfaces it is given. -/
def TargetTable.set (targets : TargetTable) (target : Option TargetEntity)
    (interfaces : List TargetInterface) : TargetTable :=
  match target with
  | some target => interfaces.foldl (fun targets interface => targets.insert interface target) targets
  | none => interfaces.foldl (fun targets interface => targets.erase interface) targets

theorem TargetTable.lookup_set (targets : TargetTable) (target : Option TargetEntity)
    (interfaces : List TargetInterface) (interface : TargetInterface) :
    (targets.set target interfaces).lookup interface =
      if interface ∈ interfaces then target else targets.lookup interface := by
  induction interfaces generalizing targets with
  | nil => cases target <;> rfl
  | cons i interfaces ih =>
    cases target with
    | none =>
      show (TargetTable.set (targets.erase i) none interfaces).lookup interface = _
      rw [ih, HashMap.lookup_erase_if]
      by_cases hi : interface = i <;> simp [hi]
    | some target =>
      show (TargetTable.set (targets.insert i target) (some target) interfaces).lookup interface = _
      rw [ih, HashMap.lookup_insert_if]
      by_cases hi : interface = i <;> simp [hi]

/-- `Handler::set_target`. -/
def Host.setTarget (host : Host) (handler : Handler) (target : Option TargetEntity)
    (interfaces : List TargetInterface) : Host :=
  { host with targetTables := host.targetTables.modify handler.targets (·.set target interfaces) }

/-- `targets.get(interface)`. -/
def Host.targetFor (host : Host) (handler : Handler) (interface : TargetInterface) :
    Option TargetEntity :=
  (host.targetTables.get? handler.targets).bind (·.lookup interface)

/-! ## Interface calls -/

/-- The interface methods that call a provider. -/
inductive InterfaceMethod where
  | createContainer
  | containerExists
  | deleteContainer
  | containerInfo
  | getData
  | hasObject
  | writeData
  | deleteObjects
  | listObjects
  | objectInfo
  | increment
  | get
  | set
  | delete
  | exists
  | request
  | publish
  deriving DecidableEq, Repr

def InterfaceMethod.operation : InterfaceMethod → String
  | .createContainer => "wasmcloud:blobstore/Blobstore.CreateContainer"
  | .containerExists => "wasmcloud:blobstore/Blobstore.ContainerExists"
  | .deleteContainer => "wasmcloud:blobstore/Blobstore.DeleteContainer"
  | .containerInfo => "wasmcloud:blobstore/Blobstore.GetContainerInfo"
  | .getData => "wasmcloud:blobstore/Blobstore.GetObject"
  | .hasObject => "wasmcloud:blobstore/Blobstore.ObjectExists"
  | .writeData => "wasmcloud:blobstore/Blobstore.PutObject"
  | .deleteObjects => "wasmcloud:blobstore/Blobstore.RemoveObjects"
  | .listObjects => "wasmcloud:blobstore/Blobstore.ListObjects"
  | .objectInfo => "wasmcloud:blobstore/Blobstore.GetObjectInfo"
  | .increment => "wasmcloud:keyvalue/KeyValue.Increment"
  | .get => "wasmcloud:keyvalue/KeyValue.Get"
  | .set => "wasmcloud:keyvalue/KeyValue.Set"
  | .delete => "wasmcloud:keyvalue/KeyValue.Del"
  | .exists => "wasmcloud:keyvalue/KeyValue.Contains"
  | .request => "wasmcloud:messaging/Messaging.Request"
  | .publish => "wasmcloud:messaging/Messaging.Publish"

/-- The interface whose target a method uses. -/
def InterfaceMethod.interface : InterfaceMethod → TargetInterface
  | .increment => .wasiKeyvalueAtomic
  | .get | .set | .delete | .exists => .wasiKeyvalueReadwrite
  | .request | .publish => .wasmcloudMessagingConsumer
  | _ => .wasiBlobstoreBlobstore

/-- The links table a handler points to. -/
def Host.linksOf (host : Host) (handler : Handler) : LinkTable :=
  match host.groups.get? handler.links with
  | some group => group.links
  | none => ∅

/-- An interface call: the target is read, and `request` is the encoded
argument. -/
def Host.interfaceCall (chunkThreshold : Nat) (host : Host) (handler : Handler)
    (method : InterfaceMethod) (request : Bytes) : CallProg (Except String Bytes) :=
  handler.callOperationWithPayload chunkThreshold (host.linksOf handler) host.aliases
    (host.targetFor handler method.interface) method.operation request

/-! ## Invocations side by side -/

/-- One message handled by one instance. -/
structure Invoker where
  actorInstance : ActorInstance
  message : Nat
  deriving DecidableEq

/-- The handler `handle_invocation` clones. -/
def Invoker.handler (x : Invoker) : Handler := x.actorInstance.handler

inductive BusStep where
  | host (step : SystemStep)
  | setTarget (x : Invoker) (target : Option TargetEntity) (interfaces : List TargetInterface)
  | interfaceCall (x : Invoker) (method : InterfaceMethod) (request : Bytes)

section Sha256

variable (sha256 : String → String)

/-- One step of the host or one call of an invocation. A handler exists only
once its actor is started, that is, once its target table is allocated. -/
def System.busStep (s : System) : BusStep → Option System
  | .host step => s.step sha256 step
  | .setTarget x target interfaces =>
    match s.host.targetTables.get? x.handler.targets with
    | some _ => some { s with host := s.host.setTarget x.handler target interfaces }
    | none => none
  | .interfaceCall x _ _ =>
    match s.host.targetTables.get? x.handler.targets with
    | some _ => some s
    | none => none

/-- A host whose actors are at work. -/
def busMachine (latticePrefix : String) : Machine System BusStep where
  init := .new latticePrefix
  step := System.busStep sha256

end Sha256

end KasmCloud
