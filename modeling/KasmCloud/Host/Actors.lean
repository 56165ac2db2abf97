/-
KasmCloud.Host.Actors — `Host::reconcile_actor`, `Host::remove_actor`,
`Host::start_actor` and `Host::instantiate_actor`
(`crates/host/src/lib.rs`).

Every lock-protected section of the two calls is a function of its own:

* `reconcile_actor` — `checkActorKey`, `registerActorKey`, `lookupGroup`,
  `fillGroup`; the fetch before them holds no lock;
* `remove_actor` — `readActorKey`, `removeFromGroup`, `dropActorKey`.

`Host.reconcileActor` and `Host.removeActor` run the sections in order;
`Host/Concurrent.lean` interleaves them. What the surroundings decide is an
argument: the fetched image, and which subscription fails, if one does.
-/
import KasmCloud.Host.Links

namespace KasmCloud

open Lib

/-! ## Starting instances -/

/-- The subject an actor's instances subscribe to. -/
def actorTopic (latticePrefix subject : String) : String :=
  "wasmbus.rpc." ++ latticePrefix ++ "." ++ subject

/-- `Host::instantiate_actor`. `failAt` counts down to the subscription that
fails. The call loops started before it go on running: what is dropped with
the unfinished list is only the handle that could abort them. -/
def Host.instantiateActor (host : Host) (pool : WasmActor) (handler : Handler) :
    Nat → Option Nat → Host × Except String (List ActorInstance)
  | 0, _ => (host, .ok [])
  | _ + 1, some 0 => (host, .error "failed to instantiate actor")
  | count + 1, failAt =>
    let started : Host :=
      { host with loops := insert host.nextId host.loops, nextId := host.nextId + 1 }
    match started.instantiateActor pool handler count (failAt.map (· - 1)) with
    | (host', .ok rest) => (host', .ok (⟨host.nextId, handler, pool⟩ :: rest))
    | (host', .error e) => (host', .error e)

/-- The handler `start_actor` builds: a target table of its own, and the
links table of the group. -/
def Host.actorHandler (host : Host) (claims : Jwt.Claims Jwt.Actor) (group : Ref) : Handler where
  latticePrefix := host.latticePrefix
  claims := claims
  origin := ⟨claims.subject, "", ""⟩
  links := group
  targets := host.targetTables.next

/-- `Arc::new(RwLock::default())`. -/
def Host.allocTargets (host : Host) : Host :=
  { host with targetTables := host.targetTables.alloc ∅ }

/-- `Host::start_actor`. -/
def Host.startActor (host : Host) (actor : WasmActor) (actorRef : String) (replica : Nat)
    (group : Ref) (failAt : Option Nat) : Host × Except String Actor :=
  match actor.claims with
  | none => (host, .error "claims missing")
  | some claims =>
    let handler := host.actorHandler claims group
    match host.allocTargets.instantiateActor actor handler replica failAt with
    | (host, .ok instances) => (host, .ok ⟨actorRef, handler, actor, instances⟩)
    | (host, .error _) => (host, .error "failed to instantiate actor")

/-- Abort the call loops of some instances. -/
def Host.abortCalls (host : Host) (instances : List ActorInstance) : Host :=
  { host with loops := host.loops \ (instances.map ActorInstance.id).toFinset }

/-! ## Sections of reconcile_actor -/

/-- First section: the key of a known name must not change. -/
def Host.checkActorKey (host : Host) (name publicKey : String) : Except String Unit :=
  match host.actorKeys.lookup name with
  | some key => if key ≠ publicKey then .error "actor public key is change" else .ok ()
  | none => .ok ()

/-- Second section: a new name is entered. -/
def Host.registerActorKey (host : Host) (name publicKey : String) : Host :=
  match host.actorKeys.lookup name with
  | none => { host with actorKeys := host.actorKeys.insert name publicKey }
  | some _ => host

/-- Third section: the group of a key is found, or made with the links known
by then. -/
def Host.lookupGroup (host : Host) (publicKey : String) : Ref × Host :=
  match host.actors.lookup publicKey with
  | none =>
    (host.groups.next,
      { host with
        actors := host.actors.insert publicKey host.groups.next
        groups := host.groups.alloc ⟨publicKey, ∅, host.getActorLinks publicKey⟩ })
  | some ref => (ref, host)

/-- Write an actor into a group. -/
def Host.setActor (host : Host) (group : Ref) (name : String) (actor : Actor) : Host :=
  { host with
    groups := host.groups.modify group fun g => { g with actors := g.actors.insert name actor } }

/-- Fourth section: start the actor in the group, or bring the one there to
the wanted number of instances. A known actor keeps its image, its pool and
its handler; the oldest instances go first. -/
def Host.fillGroup (host : Host) (group : Ref) (name : String) (actor : WasmActor)
    (actorRef : String) (replica : Nat) (failAt : Option Nat) : Host × Except String Unit :=
  match host.groups.get? group with
  | none => (host, .ok ())
  | some g =>
    match g.actors.lookup name with
    | none =>
      if replica = 0 then (host, .ok ())
      else
        match host.startActor actor actorRef replica group failAt with
        | (host, .ok a) => (host.setActor group name a, .ok ())
        | (host, .error _) => (host, .error "failed to start actor")
    | some a =>
      if a.instances.length ≤ replica then
        if replica - a.instances.length = 0 then (host, .ok ())
        else
          match host.instantiateActor a.pool a.handler (replica - a.instances.length) failAt with
          | (host, .ok delta) =>
            (host.setActor group name { a with instances := a.instances ++ delta }, .ok ())
          | (host, .error _) => (host, .error "failed to instantiate actor")
      else
        let delta := a.instances.length - replica
        ((host.abortCalls (a.instances.take delta)).setActor group name
          { a with instances := a.instances.drop delta }, .ok ())

/-! ## Sections of remove_actor -/

/-- First section. -/
def Host.readActorKey (host : Host) (name : String) : Option String :=
  host.actorKeys.lookup name

/-- Take an actor out of a group and abort its call loops. -/
def Host.dropActor (host : Host) (group : Ref) (name : String) (actor : Actor) : Host :=
  { host.abortCalls actor.instances with
    groups := host.groups.modify group fun g => { g with actors := g.actors.erase name } }

/-- Second section, under the write lock of `Host.actors`: the actor goes,
and with it the group if it has no actor then. -/
def Host.removeFromGroup (host : Host) (publicKey name : String) : Host :=
  match host.actors.lookup publicKey with
  | none => host
  | some ref =>
    match host.groups.get? ref with
    | none => host
    | some g =>
      let emptied : Host :=
        match g.actors.lookup name with
        | some actor => host.dropActor ref name actor
        | none => host
      if HashMap.isEmpty (g.actors.erase name) then
        { emptied with actors := emptied.actors.erase publicKey }
      else emptied

/-- Third section. -/
def Host.dropActorKey (host : Host) (name : String) : Host :=
  { host with actorKeys := host.actorKeys.erase name }

/-! ## The calls, run without interruption -/

/-- `Host::reconcile_actor`. The fetch, the claims check and the key check
come before any change. -/
def Host.reconcileActor (host : Host) (name actorRef : String)
    (fetched : Except String WasmActor) (replica : Nat) (failAt : Option Nat) :
    Host × Except String (Jwt.Claims Jwt.Actor) :=
  match fetched with
  | .error e => (host, .error e)
  | .ok actor =>
    match actor.claims with
    | none => (host, .error "claims missing")
    | some claims =>
      match host.checkActorKey name claims.subject with
      | .error e => (host, .error e)
      | .ok () =>
        match (host.registerActorKey name claims.subject).lookupGroup claims.subject with
        | (group, host) =>
          match host.fillGroup group name actor actorRef replica failAt with
          | (host, .ok ()) => (host, .ok claims)
          | (host, .error e) => (host, .error e)

/-- `Host::remove_actor`; it never fails. -/
def Host.removeActor (host : Host) (name : String) : Host :=
  match host.readActorKey name with
  | none => host
  | some key => (host.removeFromGroup key name).dropActorKey name

end KasmCloud
