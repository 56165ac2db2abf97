/-
KasmCloud.Host.Concurrent — a host with several calls in progress.

`hostMachine` interleaves the lock-protected sections of `reconcile_actor`,
`remove_actor`, `add_linkdef` and `delete_linkdef`. Two things are promised
by the callers and so hold of every run: calls for one actor name do not
overlap (the controller works on one object at a time), and the link calls
come one after the other (their caller holds the write lock of `Ctx.links`).

What a call knows between two sections is its `ActorCall` or `LinkdefCall`.
-/
import KasmCloud.Host.ActorsTheorems
import KasmCloud.Lib.Machine

namespace KasmCloud

open Lib

/-! ## Calls in progress -/

/-- What `reconcile_actor` works with after the fetch. -/
structure ActorJob where
  actorRef : String
  actor : WasmActor
  claims : Jwt.Claims Jwt.Actor
  replica : Nat
  claims_eq : actor.claims = some claims
  deriving DecidableEq

/-- The fetch and the check for claims; `none` is a failed call. -/
def ActorJob.fetched? (actorRef : String) (fetched : Except String WasmActor) (replica : Nat) :
    Option ActorJob :=
  match fetched with
  | .error _ => none
  | .ok actor =>
    match h : actor.claims with
    | none => none
    | some claims => some ⟨actorRef, actor, claims, replica, h⟩

theorem ActorJob.fetched?_eq_some {actorRef : String} {fetched : Except String WasmActor}
    {replica : Nat} {job : ActorJob} (h : fetched? actorRef fetched replica = some job) :
    fetched = .ok job.actor ∧ job.actorRef = actorRef ∧ job.replica = replica := by
  unfold fetched? at h
  split at h
  · cases h
  · split at h
    · cases h
    · cases h
      exact ⟨rfl, rfl, rfl⟩

/-- The section a call takes next. -/
inductive ActorCall where
  | check (job : ActorJob)
  | register (job : ActorJob)
  | lookup (job : ActorJob)
  | fill (job : ActorJob) (group : Ref)
  | readKey
  | removeGroup (publicKey : String)
  | dropKey
  deriving DecidableEq

/-- One section of a call; afterwards the call goes on or has returned. -/
def Host.actorSection (host : Host) (name : String) (failAt : Option Nat) :
    ActorCall → Host × Option ActorCall
  | .check job =>
    match host.checkActorKey name job.claims.subject with
    | .ok () => (host, some (.register job))
    | .error _ => (host, none)
  | .register job =>
    (host.registerActorKey name job.claims.subject, some (.lookup job))
  | .lookup job =>
    match host.lookupGroup job.claims.subject with
    | (group, host) => (host, some (.fill job group))
  | .fill job group =>
    ((host.fillGroup group name job.actor job.actorRef job.replica failAt).1, none)
  | .readKey =>
    match host.readActorKey name with
    | none => (host, none)
    | some key => (host, some (.removeGroup key))
  | .removeGroup key => (host.removeFromGroup key name, some .dropKey)
  | .dropKey => (host.dropActorKey name, none)

/-- An `add_linkdef` or `delete_linkdef` call after its first section:
the definition it was called with, the one it works on, and whether the
group's links table is edited already. -/
structure LinkdefCall where
  verb : LinkdefVerb
  argument : LinkDefinition
  definition : LinkDefinition
  routed : Bool
  deriving DecidableEq

/-- What the second section does to a links table. -/
def LinkdefCall.edit (call : LinkdefCall) (links : LinkTable) : LinkTable :=
  match call.verb with
  | .put => links.route call.definition
  | .del => links.unroute call.definition

/-! ## The machine -/

structure System where
  host : Host
  actorCalls : HashMap String ActorCall
  linkdefCall : Option LinkdefCall
  deriving DecidableEq

def System.new (latticePrefix : String) : System where
  host := .new latticePrefix
  actorCalls := ∅
  linkdefCall := none

inductive SystemStep where
  | reconcileActor (name actorRef : String) (fetched : Except String WasmActor) (replica : Nat)
  | removeActor (name : String)
  | actorSection (name : String) (failAt : Option Nat)
  | addLinkdef (ld : LinkDefinition)
  | deleteLinkdef (ld : LinkDefinition)
  | routeLinkdef
  | publishLinkdef (outcome : PublishOutcome)

variable (sha256 : String → String)

/-- Take one step; `none` if it is not enabled. -/
def System.step (s : System) : SystemStep → Option System
  | .reconcileActor name actorRef fetched replica =>
    match s.actorCalls.lookup name with
    | some _ => none
    | none =>
      match ActorJob.fetched? actorRef fetched replica with
      | none => some s
      | some job => some { s with actorCalls := s.actorCalls.insert name (.check job) }
  | .removeActor name =>
    match s.actorCalls.lookup name with
    | some _ => none
    | none => some { s with actorCalls := s.actorCalls.insert name .readKey }
  | .actorSection name failAt =>
    match s.actorCalls.lookup name with
    | none => none
    | some call =>
      match s.host.actorSection name failAt call with
      | (host, some next) => some { s with host, actorCalls := s.actorCalls.insert name next }
      | (host, none) => some { s with host, actorCalls := s.actorCalls.erase name }
  | .addLinkdef ld =>
    match s.linkdefCall with
    | some _ => none
    | none =>
      match s.host.addLinkdefInsert sha256 ld with
      | none => some s
      | some host => some { s with host, linkdefCall := some ⟨.put, ld, ld, false⟩ }
  | .deleteLinkdef ld =>
    match s.linkdefCall with
    | some _ => none
    | none =>
      match s.host.deleteLinkdefRemove sha256 ld with
      | none => some s
      | some (found, host) => some { s with host, linkdefCall := some ⟨.del, ld, found, false⟩ }
  | .routeLinkdef =>
    match s.linkdefCall with
    | some call =>
      if call.routed then none
      else
        some { s with
          host := s.host.onGroupLinks call.definition.actorId call.edit
          linkdefCall := some { call with routed := true } }
    | none => none
  | .publishLinkdef outcome =>
    match s.linkdefCall with
    | some call =>
      if call.routed then
        some { s with
          host := (s.host.publishLinkdef ⟨call.verb, call.definition⟩ outcome).1
          linkdefCall := none }
      else none
    | none => none

/-- A host whose calls interleave. -/
def hostMachine (latticePrefix : String) : Machine System SystemStep where
  init := .new latticePrefix
  step := System.step sha256

/-! ## What a step can do -/

section StepCases

variable {sha256} {s s' : System}

theorem step_reconcileActor {name actorRef : String} {fetched : Except String WasmActor}
    {replica : Nat} (h : s.step sha256 (.reconcileActor name actorRef fetched replica) = some s') :
    s.actorCalls.lookup name = none ∧
      (ActorJob.fetched? actorRef fetched replica = none ∧ s' = s ∨
        ∃ job, ActorJob.fetched? actorRef fetched replica = some job ∧
          s' = { s with actorCalls := s.actorCalls.insert name (.check job) }) := by
  simp only [System.step] at h
  split at h
  · cases h
  · rename_i hfree
    refine ⟨hfree, ?_⟩
    split at h
    · rename_i hnone
      exact .inl ⟨hnone, (Option.some.inj h).symm⟩
    · rename_i job hjob
      exact .inr ⟨job, hjob, (Option.some.inj h).symm⟩

theorem step_removeActor {name : String} (h : s.step sha256 (.removeActor name) = some s') :
    s.actorCalls.lookup name = none ∧
      s' = { s with actorCalls := s.actorCalls.insert name .readKey } := by
  simp only [System.step] at h
  split at h
  · cases h
  · rename_i hfree
    exact ⟨hfree, (Option.some.inj h).symm⟩

theorem step_actorSection {name : String} {failAt : Option Nat}
    (h : s.step sha256 (.actorSection name failAt) = some s') :
    ∃ call, s.actorCalls.lookup name = some call ∧
      s'.host = (s.host.actorSection name failAt call).1 ∧
      s'.linkdefCall = s.linkdefCall ∧
      ∀ m, s'.actorCalls.lookup m =
        if m = name then (s.host.actorSection name failAt call).2 else s.actorCalls.lookup m := by
  simp only [System.step] at h
  split at h
  · cases h
  · rename_i call hcall
    refine ⟨call, hcall, ?_⟩
    split at h
    · rename_i host next hsec
      cases h
      refine ⟨by rw [hsec], rfl, fun m => ?_⟩
      rw [HashMap.lookup_insert_if, hsec]
    · rename_i host hsec
      cases h
      refine ⟨by rw [hsec], rfl, fun m => ?_⟩
      rw [HashMap.lookup_erase_if, hsec]

theorem step_addLinkdef {ld : LinkDefinition} (h : s.step sha256 (.addLinkdef ld) = some s') :
    s.linkdefCall = none ∧
      (s.host.links.lookup (ld.hash sha256) ≠ none ∧ s' = s ∨
        s.host.links.lookup (ld.hash sha256) = none ∧
          s' = { s with
            host := { s.host with links := s.host.links.insert (ld.hash sha256) ld }
            linkdefCall := some ⟨.put, ld, ld, false⟩ }) := by
  simp only [System.step] at h
  split at h
  · cases h
  · rename_i hidle
    refine ⟨hidle, ?_⟩
    cases hhash : s.host.links.lookup (ld.hash sha256) with
    | some found =>
      simp only [Host.addLinkdefInsert, hhash] at h
      exact .inl ⟨by simp, (Option.some.inj h).symm⟩
    | none =>
      simp only [Host.addLinkdefInsert, hhash] at h
      exact .inr ⟨rfl, (Option.some.inj h).symm⟩

theorem step_deleteLinkdef {ld : LinkDefinition}
    (h : s.step sha256 (.deleteLinkdef ld) = some s') :
    s.linkdefCall = none ∧
      (s.host.links.lookup (ld.hash sha256) = none ∧ s' = s ∨
        ∃ found, s.host.links.lookup (ld.hash sha256) = some found ∧
          s' = { s with
            host := { s.host with links := s.host.links.erase (ld.hash sha256) }
            linkdefCall := some ⟨.del, ld, found, false⟩ }) := by
  simp only [System.step] at h
  split at h
  · cases h
  · rename_i hidle
    refine ⟨hidle, ?_⟩
    cases hhash : s.host.links.lookup (ld.hash sha256) with
    | some found =>
      simp only [Host.deleteLinkdefRemove, hhash] at h
      exact .inr ⟨found, rfl, (Option.some.inj h).symm⟩
    | none =>
      simp only [Host.deleteLinkdefRemove, hhash] at h
      exact .inl ⟨rfl, (Option.some.inj h).symm⟩

theorem step_routeLinkdef (h : s.step sha256 .routeLinkdef = some s') :
    ∃ call, s.linkdefCall = some call ∧ call.routed = false ∧
      s' = { s with
        host := s.host.onGroupLinks call.definition.actorId call.edit
        linkdefCall := some { call with routed := true } } := by
  simp only [System.step] at h
  split at h
  · rename_i call hcall
    split at h
    · cases h
    · rename_i hopen
      exact ⟨call, hcall, by simpa using hopen, (Option.some.inj h).symm⟩
  · cases h

theorem step_publishLinkdef {outcome : PublishOutcome}
    (h : s.step sha256 (.publishLinkdef outcome) = some s') :
    ∃ call, s.linkdefCall = some call ∧ call.routed = true ∧
      s' = { s with
        host := (s.host.publishLinkdef ⟨call.verb, call.definition⟩ outcome).1
        linkdefCall := none } := by
  simp only [System.step] at h
  split at h
  · rename_i call hcall
    split at h
    · rename_i hrouted
      exact ⟨call, hcall, hrouted, (Option.some.inj h).symm⟩
    · cases h
  · cases h

/-- An actor after a section was there before, or a group was filled. -/
theorem actorSection_actorAt {host : Host} {name : String} {failAt : Option Nat} {call : ActorCall}
    {ref : Ref} {m : String} {a : Actor}
    (ha : (host.actorSection name failAt call).1.actorAt ref m = some a) :
    host.actorAt ref m = some a ∨
      ∃ job group, call = .fill job group ∧
        (host.fillGroup group name job.actor job.actorRef job.replica failAt).1.actorAt ref m =
          some a := by
  cases call with
  | check job =>
    simp only [Host.actorSection] at ha
    split at ha <;> exact .inl ha
  | register job => exact .inl (by rwa [← actorAt_congr (registerActorKey_frame _ _ _).2.2])
  | lookup job => exact .inl (by rwa [← lookupGroup_actorAt])
  | fill job group => exact .inr ⟨job, group, rfl, ha⟩
  | readKey =>
    simp only [Host.actorSection] at ha
    split at ha <;> exact .inl ha
  | removeGroup key => exact .inl (removeFromGroup_actorAt host key name ha)
  | dropKey => exact .inl ha

/-- What the sections of actor calls and the three changes of link calls keep,
every step keeps. -/
theorem hostInvariant_step {I : Host → Prop}
    (hsection : ∀ host name failAt call, I host → I (Host.actorSection host name failAt call).1)
    (hlinks : ∀ (host : Host) links, I host → I { host with links })
    (hroute : ∀ (host : Host) (call : LinkdefCall), I host →
      I (host.onGroupLinks call.definition.actorId call.edit))
    (hpublished : ∀ (host : Host) published, I host → I { host with published })
    {step : SystemStep} (h : I s.host) (hs : s.step sha256 step = some s') : I s'.host := by
  cases step with
  | reconcileActor name actorRef fetched replica =>
    obtain ⟨-, ⟨-, rfl⟩ | ⟨job, -, rfl⟩⟩ := step_reconcileActor hs <;> exact h
  | removeActor name =>
    obtain ⟨-, rfl⟩ := step_removeActor hs
    exact h
  | actorSection name failAt =>
    obtain ⟨call, -, hhost, -, -⟩ := step_actorSection hs
    rw [hhost]
    exact hsection s.host name failAt call h
  | addLinkdef ld =>
    obtain ⟨-, ⟨-, rfl⟩ | ⟨-, rfl⟩⟩ := step_addLinkdef hs
    · exact h
    · exact hlinks s.host _ h
  | deleteLinkdef ld =>
    obtain ⟨-, ⟨-, rfl⟩ | ⟨found, -, rfl⟩⟩ := step_deleteLinkdef hs
    · exact h
    · exact hlinks s.host _ h
  | routeLinkdef =>
    obtain ⟨call, -, -, rfl⟩ := step_routeLinkdef hs
    exact hroute s.host call h
  | publishLinkdef outcome =>
    obtain ⟨call, -, -, rfl⟩ := step_publishLinkdef hs
    cases outcome with
    | sent => exact hpublished s.host _ h
    | encodeFailed => exact h
    | publishFailed => exact h

end StepCases

/-! ## A call run without interruption -/

section Sequential

variable (latticePrefix : String) {s : System}

/-- The sections of `add_linkdef` in a row are the call. -/
theorem exec_addLinkdef (h : s.linkdefCall = none) {ld : LinkDefinition}
    (hfree : s.host.links.lookup (ld.hash sha256) = none) (outcome : PublishOutcome) :
    (hostMachine sha256 latticePrefix).exec s
        [.addLinkdef ld, .routeLinkdef, .publishLinkdef outcome] =
      some { s with host := (s.host.addLinkdef sha256 ld outcome).1, linkdefCall := none } := by
  simp [Machine.exec, Machine.execWhen, hostMachine, System.step, h, Host.addLinkdefInsert, hfree,
    Host.addLinkdef]
  rfl

/-- The sections of `delete_linkdef` in a row are the call. -/
theorem exec_deleteLinkdef (h : s.linkdefCall = none) {ld found : LinkDefinition}
    (hused : s.host.links.lookup (ld.hash sha256) = some found) (outcome : PublishOutcome) :
    (hostMachine sha256 latticePrefix).exec s
        [.deleteLinkdef ld, .routeLinkdef, .publishLinkdef outcome] =
      some { s with host := (s.host.deleteLinkdef sha256 ld outcome).1, linkdefCall := none } := by
  simp [Machine.exec, Machine.execWhen, hostMachine, System.step, h, Host.deleteLinkdefRemove, hused,
    Host.deleteLinkdef]
  rfl

/-- The sections of a `reconcile_actor` call in a row, its key admitted, are
the call. -/
theorem exec_reconcileActor {name actorRef : String} {fetched : Except String WasmActor}
    {replica : Nat} {job : ActorJob} (h : s.actorCalls.lookup name = none)
    (hjob : ActorJob.fetched? actorRef fetched replica = some job)
    (hkey : s.host.checkActorKey name job.claims.subject = .ok ()) (failAt : Option Nat) :
    ((hostMachine sha256 latticePrefix).exec s
        [.reconcileActor name actorRef fetched replica, .actorSection name none,
          .actorSection name none, .actorSection name none, .actorSection name failAt]).map
        System.host =
      some (s.host.reconcileActor name actorRef fetched replica failAt).1 := by
  obtain ⟨rfl, rfl, rfl⟩ := ActorJob.fetched?_eq_some hjob
  simp only [Machine.exec, Machine.execWhen, hostMachine, System.step, h, hjob, Host.actorSection,
    hkey, Host.reconcileActor, job.claims_eq, AList.lookup_insert, Option.bind_some,
    Option.map_some, if_true]
  rcases Host.fillGroup _ _ _ _ _ _ _ with ⟨host, _ | _⟩ <;> rfl

/-- The sections of a `remove_actor` call in a row are the call. -/
theorem exec_removeActor {name key : String} (h : s.actorCalls.lookup name = none)
    (hkey : s.host.actorKeys.lookup name = some key) :
    ((hostMachine sha256 latticePrefix).exec s
        [.removeActor name, .actorSection name none, .actorSection name none,
          .actorSection name none]).map System.host =
      some (s.host.removeActor name) := by
  simp [Machine.exec, Machine.execWhen, hostMachine, System.step, h, Host.actorSection, Host.removeActor,
    Host.readActorKey, hkey]

end Sequential

end KasmCloud
