/-
KasmCloud.Host.State — the tables of a host and the values they hold
(`crates/host/src/lib.rs`, `actor.rs`, `provider.rs`).

* What sits behind an `Arc` is a cell of a `Heap`, so that two holders of
  one pointer see each other's writes: actor groups (`Host.groups`) and the
  target table of each actor (`Host.targetTables`). The links table of a
  group is created with the group and never replaced, so a handler names it
  by the group's `Ref`.
* What the host starts outside itself is recorded beside the tables: the
  call loops spawned and not aborted, the provider processes alive, and the
  messages and process effects in the order they happened.
* `Ulid::new` and process ids are the next unused number.

Locks are not part of this state: a function here is one lock-protected
section or a sequence of them; `Host/Concurrent.lean` interleaves them.
-/
import KasmCloud.Apis.V1alpha1
import KasmCloud.Lib.Tables
import Mathlib.Algebra.GroupWithZero.Nat
import Mathlib.Data.Finset.Basic

namespace KasmCloud

open Lib

/-! ## Entities and link definitions -/

/-- The addressee of an invocation: an actor (empty contract and link name)
or one link of a provider. -/
structure WasmCloudEntity where
  publicKey : String
  linkName : String
  contractId : String
  deriving DecidableEq, Repr, Inhabited

structure LinkDefinition where
  actorId : String
  providerId : String
  linkName : String
  contractId : String
  values : V1alpha1.Values
  deriving DecidableEq

/-- Actor, contract, link name. -/
abbrev Triple := String × String × String

/-- What a definition is for. -/
def LinkDefinition.triple (ld : LinkDefinition) : Triple :=
  (ld.actorId, ld.contractId, ld.linkName)

/-- The entity an actor's calls through this definition go to. -/
def LinkDefinition.entity (ld : LinkDefinition) : WasmCloudEntity where
  publicKey := ld.providerId
  linkName := ld.linkName
  contractId := ld.contractId

@[simp] theorem LinkDefinition.entity_linkName (ld : LinkDefinition) :
    ld.entity.linkName = ld.linkName := rfl

@[simp] theorem LinkDefinition.entity_contractId (ld : LinkDefinition) :
    ld.entity.contractId = ld.contractId := rfl

@[simp] theorem LinkDefinition.entity_publicKey (ld : LinkDefinition) :
    ld.entity.publicKey = ld.providerId := rfl

inductive LinkdefVerb where
  | put
  | del
  deriving DecidableEq, Repr

/-- A `linkdefs.put` or `linkdefs.del` message. -/
structure LinkdefMessage where
  verb : LinkdefVerb
  definition : LinkDefinition
  deriving DecidableEq

/-- The NATS subject of a link definition message. -/
def LinkdefMessage.subject (latticePrefix : String) (m : LinkdefMessage) : String :=
  "wasmbus.rpc." ++ latticePrefix ++ "." ++ m.definition.providerId ++ "." ++
    m.definition.linkName ++
    match m.verb with
    | .put => ".linkdefs.put"
    | .del => ".linkdefs.del"

/-! ## Actors -/

/-- package -> target -> entity -/
abbrev LinkTable := HashMap String (HashMap String WasmCloudEntity)

/-- The interfaces a target can be set for. The host's typed calls use the
first four. -/
inductive TargetInterface where
  | wasiBlobstoreBlobstore
  | wasiKeyvalueAtomic
  | wasiKeyvalueReadwrite
  | wasmcloudMessagingConsumer
  | wasiLoggingLogging
  | wasiHttpOutgoingHandler
  | custom (namespacePart package interface : String)
  deriving DecidableEq, Repr

/-- `ActorIdentifier`: a public key or a call alias. -/
inductive ActorIdentifier where
  | key (publicKey : String)
  | alias (callAlias : String)
  deriving DecidableEq, Repr

inductive TargetEntity where
  | link (linkName : Option String)
  | actor (id : ActorIdentifier)
  deriving DecidableEq, Repr, Inhabited

abbrev TargetTable := HashMap TargetInterface TargetEntity

abbrev Ulid := Nat

abbrev Pid := Nat

/-- A fetched actor module. -/
structure WasmActor where
  /-- Stands for the code: two fetches give the same module exactly when
  this agrees. -/
  module : String
  claims : Option (Jwt.Claims Jwt.Actor)
  deriving DecidableEq, Repr

/-- `handler::Handler`. Cloning one copies the two pointers. -/
structure Handler where
  latticePrefix : String
  claims : Jwt.Claims Jwt.Actor
  origin : WasmCloudEntity
  /-- The group whose links table this handler reads. -/
  links : Ref
  targets : Ref
  deriving DecidableEq, Repr

structure ActorInstance where
  id : Ulid
  handler : Handler
  pool : WasmActor
  deriving DecidableEq, Repr

structure Actor where
  imageRef : String
  handler : Handler
  pool : WasmActor
  instances : List ActorInstance
  deriving DecidableEq, Repr

structure ActorGroup where
  publicKey : String
  actors : HashMap String Actor
  links : LinkTable
  deriving DecidableEq

/-! ## Providers -/

/-- A fetched provider image: the executable and its claims. -/
structure ProviderImage where
  path : String
  claims : Jwt.Claims Jwt.CapabilityProvider
  deriving DecidableEq, Repr

structure ProviderInstance where
  id : Ulid
  child : Pid
  deriving DecidableEq, Repr

structure Provider where
  claims : Jwt.Claims Jwt.CapabilityProvider
  /-- link name -> ProviderInstance -/
  instances : HashMap String ProviderInstance
  imageRef : String
  deriving DecidableEq

/-- What a provider process reads from its standard input, without the
values that are the same for every provider of the host. -/
structure HostData where
  linkName : String
  instanceId : Ulid
  providerKey : String
  linkDefinitions : List LinkDefinition
  deriving DecidableEq

/-- What the host does to provider processes, in order. -/
inductive ProcessEffect where
  | spawn (pid : Pid) (path : String)
  | hostData (pid : Pid) (data : HostData)
  | shutdownRequest (subject : String)
  | shutdownReply (answered : Bool)
  | kill (pid : Pid)
  deriving DecidableEq

/-! ## The host -/

structure Host where
  latticePrefix : String
  /-- hash -> LinkDefinition -/
  links : HashMap String LinkDefinition
  /-- name -> public key -/
  actorKeys : HashMap String String
  /-- public key -> ActorGroup -/
  actors : HashMap String Ref
  /-- public key -> Provider -/
  providers : HashMap String Provider
  aliases : HashMap String WasmCloudEntity
  groups : Heap ActorGroup
  targetTables : Heap TargetTable
  /-- Link definition messages published so far, oldest first. -/
  published : List LinkdefMessage
  /-- Call loops spawned and not aborted. -/
  loops : Finset Ulid
  /-- Provider processes alive. -/
  processes : Finset Pid
  processEffects : List ProcessEffect
  nextId : Nat
  deriving DecidableEq

/-- `Host::new`: every table starts empty. -/
def Host.new (latticePrefix : String) : Host where
  latticePrefix := latticePrefix
  links := ∅
  actorKeys := ∅
  actors := ∅
  providers := ∅
  aliases := ∅
  groups := .empty
  targetTables := .empty
  published := []
  loops := ∅
  processes := ∅
  processEffects := []
  nextId := 0

/-- The group registered under a public key. -/
def Host.group? (host : Host) (publicKey : String) : Option ActorGroup :=
  (host.actors.lookup publicKey).bind host.groups.get?

/-- `Host::stats`, the counts published in the host object's status. -/
structure HostStats where
  providerCount : Nat
  actorCount : Nat
  actorInstanceCount : Nat
  deriving DecidableEq, Repr

def Host.stats (host : Host) : HostStats where
  providerCount := host.providers.entries.length
  actorCount := host.actors.entries.length
  actorInstanceCount :=
    (host.actors.values.map fun ref =>
      match host.groups.get? ref with
      | some group => (group.actors.values.map fun actor => actor.instances.length).sum
      | none => 0).sum

end KasmCloud
