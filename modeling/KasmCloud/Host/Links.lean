/-
KasmCloud.Host.Links — `Host::add_linkdef`, `Host::delete_linkdef`,
`Host::get_actor_links` and `linkdef_hash` (`crates/host/src/lib.rs`).

`add_linkdef` and `delete_linkdef` each change two tables under two locks,
the definitions (`Host.links`) and the links table of the actor's group,
and publish only then. The two lock-protected sections are functions of
their own (`addLinkdefInsert` / `onGroupLinks`, `deleteLinkdefRemove` /
`onGroupLinks`); `addLinkdef` and `deleteLinkdef` run them in order.

SHA-256 is not part of the repository: `sha256` is a parameter, the
upper-case hex digest of a string's UTF-8 bytes.
-/
import KasmCloud.Host.State

namespace KasmCloud

open Lib

/-! ## The links table of a group -/

/-- `links[contract_id][link_name]`. -/
def LinkTable.entity? (links : LinkTable) (contractId linkName : String) :
    Option WasmCloudEntity :=
  (links.lookup contractId).bind fun targets => targets.lookup linkName

/-- `links.entry(contract_id).or_default().insert(link_name, entity)`. -/
def LinkTable.route (links : LinkTable) (ld : LinkDefinition) : LinkTable :=
  links.insert ld.contractId
    (((links.lookup ld.contractId).getD ∅).insert ld.linkName ld.entity)

/-- `if let Some(links) = links.get_mut(contract_id) { links.remove(link_name); }`. -/
def LinkTable.unroute (links : LinkTable) (ld : LinkDefinition) : LinkTable :=
  match links.lookup ld.contractId with
  | some targets => links.insert ld.contractId (targets.erase ld.linkName)
  | none => links

/-- `Host::get_actor_links`: the fold over the definitions of one actor. -/
def Host.getActorLinks (host : Host) (key : String) : LinkTable :=
  (host.links.values.filter fun ld => ld.actorId = key).foldl LinkTable.route ∅

/-! ## Sections of add_linkdef and delete_linkdef -/

section Sha256

variable (sha256 : String → String)

/-- The three parts go into the digest one after the other, with nothing
between them. -/
def linkdefHash (actorId contractId linkName : String) : String :=
  sha256 (actorId ++ contractId ++ linkName)

/-- The key of a definition in `Host.links`. -/
def LinkDefinition.hash (ld : LinkDefinition) : String :=
  linkdefHash sha256 ld.actorId ld.contractId ld.linkName

/-- First section of `add_linkdef`; `none` is the `skip linkdef` branch. -/
def Host.addLinkdefInsert (host : Host) (ld : LinkDefinition) : Option Host :=
  match host.links.lookup (ld.hash sha256) with
  | none => some { host with links := host.links.insert (ld.hash sha256) ld }
  | some _ => none

/-- First section of `delete_linkdef`: the definition found under the hash,
which need not be the one asked for, is taken out and used from here on. -/
def Host.deleteLinkdefRemove (host : Host) (ld : LinkDefinition) :
    Option (LinkDefinition × Host) :=
  match host.links.lookup (ld.hash sha256) with
  | some found => some (found, { host with links := host.links.erase (ld.hash sha256) })
  | none => none

end Sha256

/-- Second section of both calls: edit the links table of the group
registered for an actor, if there is one. -/
def Host.onGroupLinks (host : Host) (actorId : String) (f : LinkTable → LinkTable) : Host :=
  { host with
    groups :=
      match host.actors.lookup actorId with
      | some ref => host.groups.modify ref fun group => { group with links := f group.links }
      | none => host.groups }

/-- How encoding and publishing a definition can end. -/
inductive PublishOutcome where
  | sent
  | encodeFailed
  | publishFailed
  deriving DecidableEq, Repr

/-- The error text of a failed publish. -/
def LinkdefVerb.publishError : LinkdefVerb → String
  | .put => "failed to publish link deinition"
  | .del => "failed to publish link definition deletion"

/-- Last part of both calls: encode and publish. -/
def Host.publishLinkdef (host : Host) (m : LinkdefMessage) (outcome : PublishOutcome) :
    Host × Except String Unit :=
  match outcome with
  | .sent => ({ host with published := host.published ++ [m] }, .ok ())
  | .encodeFailed => (host, .error "failed to encode link definition")
  | .publishFailed => (host, .error m.verb.publishError)

section Sha256

variable (sha256 : String → String)

/-- `Host::add_linkdef`. -/
def Host.addLinkdef (host : Host) (ld : LinkDefinition) (outcome : PublishOutcome) :
    Host × Except String Unit :=
  match host.addLinkdefInsert sha256 ld with
  | none => (host, .ok ())
  | some host =>
    (host.onGroupLinks ld.actorId (·.route ld)).publishLinkdef ⟨.put, ld⟩ outcome

/-- `Host::delete_linkdef`. -/
def Host.deleteLinkdef (host : Host) (ld : LinkDefinition) (outcome : PublishOutcome) :
    Host × Except String Unit :=
  match host.deleteLinkdefRemove sha256 ld with
  | none => (host, .error "attempt to remove a non-exitent link")
  | some (found, host) =>
    (host.onGroupLinks found.actorId (·.unroute found)).publishLinkdef ⟨.del, found⟩ outcome

end Sha256

end KasmCloud
