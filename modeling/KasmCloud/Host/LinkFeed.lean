/-
KasmCloud.Host.LinkFeed — how a provider process learns its links
(`crates/host/src/lib.rs`).

A process is given the definitions of its link at its start, and is sent a
message for every later change. `start_provider`, `add_linkdef` and
`delete_linkdef` are cut at their locks:

* a start holds the write lock of `Host.providers` throughout, and the read
  lock of `Host.links` from the list of definitions to its return, so no
  change of that table falls between the two;
* a change of the table, of the group's links and the message are one step
  each; changes come one at a time;
* a process subscribes at some moment after it was spawned. A message that is
  published before that is gone.

`start_uninterrupted` and its two siblings join the steps to the functions of
`Host/Providers.lean` and `Host/Links.lean`.
-/
import KasmCloud.Host.ProvidersTheorems
import KasmCloud.Host.LinksTheorems
import KasmCloud.Lib.Machine

namespace KasmCloud

open Lib

/-! ## What a process knows -/

/-- (actor, contract) -> values -/
abbrev LinkView := HashMap (String × String) V1alpha1.Values

def LinkView.tell (view : LinkView) (m : LinkdefMessage) : LinkView :=
  match m.verb with
  | .put => view.insert (m.definition.actorId, m.definition.contractId) m.definition.values
  | .del => view.erase (m.definition.actorId, m.definition.contractId)

/-- The view from a list of definitions. -/
def LinkView.ofGiven (given : List LinkDefinition) : LinkView :=
  given.foldl (fun view ld => view.insert (ld.actorId, ld.contractId) ld.values) ∅

structure ProviderProcess where
  id : Ulid
  key : String
  linkName : String
  /-- The definitions in its host data. -/
  given : List LinkDefinition
  subscribed : Bool
  /-- The messages it got since it subscribed, oldest first. -/
  received : List LinkdefMessage

def ProviderProcess.view (p : ProviderProcess) : LinkView :=
  p.received.foldl LinkView.tell (.ofGiven p.given)

/-- The message is about the link of the process. -/
def LinkdefMessage.isFor (m : LinkdefMessage) (p : ProviderProcess) : Prop :=
  m.definition.providerId = p.key ∧ m.definition.linkName = p.linkName

instance (m : LinkdefMessage) (p : ProviderProcess) : Decidable (m.isFor p) :=
  inferInstanceAs (Decidable (_ ∧ _))

/-- The message is published to the subject the process listens to. -/
def ProviderProcess.listensTo (p : ProviderProcess) (latticePrefix : String)
    (m : LinkdefMessage) : Prop :=
  m.subject latticePrefix =
    LinkdefMessage.subject latticePrefix
      { m with definition := { m.definition with providerId := p.key, linkName := p.linkName } }

instance (p : ProviderProcess) (latticePrefix : String) (m : LinkdefMessage) :
    Decidable (p.listensTo latticePrefix m) :=
  inferInstanceAs (Decidable (_ = _))

/-- NATS hands a message to those that have subscribed to its subject. -/
def ProviderProcess.deliver (p : ProviderProcess) (latticePrefix : String) (m : LinkdefMessage) :
    ProviderProcess :=
  if p.subscribed = true ∧ p.listensTo latticePrefix m then
    { p with received := p.received ++ [m] }
  else p

/-! ## Calls in progress -/

/-- How far a start is that found no instance of its link. -/
inductive StartPhase where
  | entered
  | listed (id : Ulid) (given : List LinkDefinition)
  | spawned (id : Ulid) (given : List LinkDefinition) (pid : Pid)

/-- The read lock of `Host.links` is held. -/
def StartPhase.holdsLinks : StartPhase → Bool
  | .entered => false
  | .listed .. | .spawned .. => true

structure StartCall where
  linkName : String
  image : ProviderImage
  /-- The entry of the image's key. -/
  provider : Provider
  phase : StartPhase

/-- A call of `add_linkdef` or `delete_linkdef` that has changed the table. -/
structure LinkChange where
  message : LinkdefMessage
  routed : Bool
  /-- The next unused number when it did; no step reads it. -/
  since : Nat

structure LinkFeed where
  host : Host
  start : Option StartCall
  change : Option LinkChange
  processes : Pid → Option ProviderProcess

def LinkFeed.new (latticePrefix : String) : LinkFeed where
  host := .new latticePrefix
  start := none
  change := none
  processes _ := none

inductive FeedStep where
  | start (linkName providerRef : String) (image : ProviderImage)
  | list
  | spawn
  | finish
  | fail (failure : StartFailure)
  | add (ld : LinkDefinition)
  | delete (ld : LinkDefinition)
  | route
  | publish
  | subscribe (pid : Pid)

/-- The table of definitions can be changed. -/
def LinkFeed.linksFree (s : LinkFeed) : Bool :=
  s.change.isNone && s.start.all fun call => !call.phase.holdsLinks

/-! ## Steps -/

namespace LinkFeed

variable (s : LinkFeed)

def beginStart (linkName providerRef : String) (image : ProviderImage) : Option LinkFeed :=
  match s.start with
  | some _ => none
  | none =>
    match s.host.enterProvider image.claims providerRef with
    | (provider, host) =>
      match provider.instances.lookup linkName with
      | some _ => some { s with host }
      | none => some { s with host, start := some ⟨linkName, image, provider, .entered⟩ }

/-- The id is drawn, and the definitions are listed under the read lock. -/
def listLinks : Option LinkFeed :=
  match s.start with
  | some ⟨linkName, image, provider, .entered⟩ =>
    match s.host.takeId with
    | (id, host) =>
      some
        { s with
          host
          start := some ⟨linkName, image, provider,
            .listed id (host.providerLinks image.claims.subject linkName)⟩ }
  | _ => none

def spawnStep : Option LinkFeed :=
  match s.start with
  | some ⟨linkName, image, provider, .listed id given⟩ =>
    let pid : Pid := s.host.nextId
    some
      { s with
        host := s.host.spawnProcess image.path
        start := some ⟨linkName, image, provider, .spawned id given pid⟩
        processes := Function.update s.processes pid
          (some ⟨id, image.claims.subject, linkName, given, false, []⟩) }
  | _ => none

/-- The host data is written and the instance recorded. -/
def finishStart : Option LinkFeed :=
  match s.start with
  | some ⟨linkName, image, provider, .spawned id given pid⟩ =>
    let key := image.claims.subject
    let host := s.host.writeHostData pid ⟨linkName, id, key, given⟩
    some
      { s with
        host :=
          { host with
            providers := host.providers.insert key
              { provider with instances := provider.instances.insert linkName ⟨id, pid⟩ } }
        start := none }
  | _ => none

/-- A start fails; a process that was spawned is killed. -/
def failStart (failure : StartFailure) : Option LinkFeed :=
  match s.start with
  | some ⟨_, _, _, .entered⟩ =>
    if failure = .invocationSeed then some { s with host := s.host.takeId.2, start := none }
    else none
  | some ⟨_, _, _, .listed ..⟩ =>
    if failure ≠ .invocationSeed ∧ ¬ failure.spawned then some { s with start := none }
    else none
  | some ⟨linkName, image, _, .spawned id given pid⟩ =>
    if failure.spawned then
      let written :=
        if failure.written then
          s.host.writeHostData pid ⟨linkName, id, image.claims.subject, given⟩
        else s.host
      some
        { s with
          host := written.killProcess pid
          start := none
          processes := Function.update s.processes pid none }
    else none
  | none => none

section Sha256

variable (sha256 : String → String)

/-- The first section of `add_linkdef`. -/
def beginAdd (ld : LinkDefinition) : Option LinkFeed :=
  if s.linksFree then
    match s.host.addLinkdefInsert sha256 ld with
    | none => some s
    | some host => some { s with host, change := some ⟨⟨.put, ld⟩, false, s.host.nextId⟩ }
  else none

/-- The first section of `delete_linkdef`. -/
def beginDelete (ld : LinkDefinition) : Option LinkFeed :=
  if s.linksFree then
    match s.host.deleteLinkdefRemove sha256 ld with
    | none => some s
    | some (found, host) =>
      some { s with host, change := some ⟨⟨.del, found⟩, false, s.host.nextId⟩ }
  else none

end Sha256

/-- The second section of both. -/
def routeStep : Option LinkFeed :=
  match s.change with
  | some ⟨m, false, since⟩ =>
    let edit : LinkTable → LinkTable := fun links =>
      match m.verb with
      | .put => links.route m.definition
      | .del => links.unroute m.definition
    some
      { s with
        host := s.host.onGroupLinks m.definition.actorId edit
        change := some ⟨m, true, since⟩ }
  | _ => none

def publishStep : Option LinkFeed :=
  match s.change with
  | some ⟨m, true, _⟩ =>
    some
      { s with
        host := (s.host.publishLinkdef m .sent).1
        change := none
        processes := fun pid => (s.processes pid).map fun p =>
          p.deliver s.host.latticePrefix m }
  | _ => none

def subscribeStep (pid : Pid) : Option LinkFeed :=
  match s.processes pid with
  | some p =>
    if p.subscribed then none
    else some { s with processes := Function.update s.processes pid (some { p with subscribed := true }) }
  | none => none

def step (sha256 : String → String) : FeedStep → Option LinkFeed
  | .start linkName providerRef image => s.beginStart linkName providerRef image
  | .list => s.listLinks
  | .spawn => s.spawnStep
  | .finish => s.finishStart
  | .fail failure => s.failStart failure
  | .add ld => s.beginAdd sha256 ld
  | .delete ld => s.beginDelete sha256 ld
  | .route => s.routeStep
  | .publish => s.publishStep
  | .subscribe pid => s.subscribeStep pid

end LinkFeed

/-- Starts of providers, changes of definitions and subscriptions, in any
order that the locks allow. -/
def feedMachine (sha256 : String → String) (latticePrefix : String) : Machine LinkFeed FeedStep where
  init := .new latticePrefix
  step s l := s.step sha256 l

@[simp] theorem feedMachine_step (sha256 : String → String) (latticePrefix : String)
    (s : LinkFeed) (l : FeedStep) :
    (feedMachine sha256 latticePrefix).step s l = s.step sha256 l := rfl

/-! ## Uninterrupted calls -/

section Uninterrupted

variable {sha256 : String → String} {s : LinkFeed}

/-- The steps of `Host::start_provider` when nothing fails. -/
def startSteps (host : Host) (linkName providerRef : String) (image : ProviderImage) :
    List FeedStep :=
  match host.instance? image.claims.subject linkName with
  | some _ => [.start linkName providerRef image]
  | none => [.start linkName providerRef image, .list, .spawn, .finish]

theorem start_uninterrupted (latticePrefix : String) (hquiet : s.start = none)
    (linkName providerRef : String) (image : ProviderImage) :
    ∃ s', (feedMachine sha256 latticePrefix).exec s
        (startSteps s.host linkName providerRef image) = some s' ∧ s'.start = none ∧
      s'.host = (s.host.startProvider linkName providerRef (.ok image) none).1 := by
  obtain ⟨host, start, change, processes⟩ := s
  cases hquiet
  have hentry := (enterProvider_spec host providerRef image.claims).1 linkName
  unfold startSteps
  dsimp only
  rw [← hentry]
  cases hi : (host.enterProvider image.claims providerRef).1.instances.lookup linkName with
  | some i =>
    refine ⟨⟨(host.enterProvider image.claims providerRef).2, none, change, processes⟩, ?_, rfl, ?_⟩
    · simp [LinkFeed.step, LinkFeed.beginStart, hi]
    · simp [Host.startProvider, hi]
  | none =>
    simp only [Machine.exec_cons, Machine.exec_nil, feedMachine_step, LinkFeed.step,
      LinkFeed.beginStart, hi, Option.bind_some, LinkFeed.listLinks, LinkFeed.spawnStep,
      LinkFeed.finishStart]
    refine ⟨_, rfl, rfl, ?_⟩
    simp only [Host.startProvider, hi]
    rfl

/-- The steps of `Host::add_linkdef`. -/
def addSteps (sha256 : String → String) (host : Host) (ld : LinkDefinition) : List FeedStep :=
  match host.links.lookup (ld.hash sha256) with
  | some _ => [.add ld]
  | none => [.add ld, .route, .publish]

/-- The steps of `Host::delete_linkdef`. -/
def deleteSteps (sha256 : String → String) (host : Host) (ld : LinkDefinition) : List FeedStep :=
  match host.links.lookup (ld.hash sha256) with
  | some _ => [.delete ld, .route, .publish]
  | none => [.delete ld]

theorem add_uninterrupted (latticePrefix : String) (hfree : s.linksFree = true)
    (ld : LinkDefinition) :
    ∃ s', (feedMachine sha256 latticePrefix).exec s (addSteps sha256 s.host ld) = some s' ∧
      s'.host = (s.host.addLinkdef sha256 ld .sent).1 := by
  unfold addSteps
  cases hlook : s.host.links.lookup (ld.hash sha256) with
  | some found =>
    refine ⟨s, ?_, by rw [addLinkdef_of_some sha256 _ _ _ hlook]⟩
    simp [LinkFeed.step, LinkFeed.beginAdd, hfree, Host.addLinkdefInsert, hlook]
  | none =>
    simp only [Machine.exec_cons, Machine.exec_nil, feedMachine_step, LinkFeed.step,
      LinkFeed.beginAdd, hfree, if_true, Host.addLinkdefInsert, hlook, Option.bind_some,
      LinkFeed.routeStep, LinkFeed.publishStep]
    refine ⟨_, rfl, ?_⟩
    simp only [Host.addLinkdef, Host.addLinkdefInsert, hlook]

theorem delete_uninterrupted (latticePrefix : String) (hfree : s.linksFree = true)
    (ld : LinkDefinition) :
    ∃ s', (feedMachine sha256 latticePrefix).exec s (deleteSteps sha256 s.host ld) = some s' ∧
      s'.host = (s.host.deleteLinkdef sha256 ld .sent).1 := by
  unfold deleteSteps
  cases hlook : s.host.links.lookup (ld.hash sha256) with
  | none =>
    refine ⟨s, ?_, by rw [deleteLinkdef_of_none sha256 _ _ _ hlook]⟩
    simp [LinkFeed.step, LinkFeed.beginDelete, hfree, Host.deleteLinkdefRemove, hlook]
  | some found =>
    simp only [Machine.exec_cons, Machine.exec_nil, feedMachine_step, LinkFeed.step,
      LinkFeed.beginDelete, hfree, if_true, Host.deleteLinkdefRemove, hlook, Option.bind_some,
      LinkFeed.routeStep, LinkFeed.publishStep]
    refine ⟨_, rfl, ?_⟩
    simp only [Host.deleteLinkdef, Host.deleteLinkdefRemove, hlook]

end Uninterrupted

end KasmCloud
