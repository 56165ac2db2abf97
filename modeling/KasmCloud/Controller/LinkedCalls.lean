/-
KasmCloud.Controller.LinkedCalls — from a Link object to the subject of an
actor's call.

`LinkHost` is a host whose Link controller runs beside its actor calls. A run
of `add_link` or `delete_link` holds the lock of `Ctx.links` while it works
on the tables, so runs do not meet each other there (the status it patches
after that is its own Link's); but the call of the host that it makes has two
sections and a message of its own, between which the sections of any actor
calls may run: groups are made, filled and unregistered.

* `Linked` — the invariant: the tables are those of the runs that are over,
  but for the triple of the run in progress;
* `system_reachable` — the host below is a run of `hostMachine`, so that what
  holds there of every run holds here;
* `linked_calls` — what an actor's call through a link does is decided by the
  live Links alone.
-/
import KasmCloud.Controller.RefCounting
import KasmCloud.Host.Targets
import KasmCloud.Host.Frames

namespace KasmCloud

open Lib V1alpha1

/-! ## The machine -/

/-- The call of the host in a run: the id of the entry of `Ctx.links`, and its
definition. -/
structure RunningCall where
  run : LinkRun
  verb : LinkdefVerb
  id : String
  definition : LinkDefinition

def LinkRun.publish : LinkRun → PublishOutcome
  | .add _ _ publish _ => publish
  | .delete _ publish => publish

def LinkRun.name : LinkRun → String
  | .add name _ _ _ => name
  | .delete name _ => name

structure LinkHost where
  system : System
  /-- `Ctx.links` -/
  refs : HashMap String (LinkDefinition × Finset String)
  /-- The Link statuses in the API server. -/
  stored : HashMap String LinkStatus
  /-- The run that is in its call of the host. -/
  running : Option RunningCall
  /-- The runs that are over: a history variable. -/
  done : List LinkRun

def LinkHost.new (latticePrefix : String) : LinkHost where
  system := .new latticePrefix
  refs := ∅
  stored := ∅
  running := none
  done := []

def LinkHost.world (s : LinkHost) : LinkWorld := ⟨⟨s.system.host, s.refs⟩, s.stored⟩

inductive LinkHostStep where
  /-- An actor call begins, or takes its next section. -/
  | actor (step : SystemStep)
  /-- A run takes the lock, and the first section of its call of the host. -/
  | begin (run : LinkRun)
  /-- The second section, of the links table. -/
  | route
  /-- The message is sent or not, and the run goes on to its end. -/
  | finish

def SystemStep.onActors : SystemStep → Bool
  | .reconcileActor .. | .removeActor _ | .actorSection .. => true
  | _ => false

section Sha256

variable (sha256 : String → String) (spec : String → LinkSpec)

/-- The call that a run makes, if the call changes the host. -/
def LinkWorld.hostCall? (w : LinkWorld) (run : LinkRun) : Option RunningCall :=
  match run with
  | .add name cluster _ _ =>
    match resolveLink cluster (w.link spec name) with
    | .ok ld =>
      match w.ctx.links.lookup ld.id, w.ctx.host.links.lookup (ld.hash sha256) with
      | none, none => some ⟨run, .put, ld.id, ld⟩
      | _, _ => none
    | .error _ => none
  | .delete name _ =>
    match w.stored.lookup name with
    | some status =>
      if status.complete then
        match w.ctx.links.lookup (linkId (spec name).contractId status.actorKey status.linkName) with
        | some (ld, names) =>
          match w.ctx.host.links.lookup (ld.hash sha256) with
          | some _ =>
            if names.erase name = ∅ then
              some ⟨run, .del, linkId (spec name).contractId status.actorKey status.linkName, ld⟩
            else none
          | none => none
        | none => none
      else none
    | none => none

/-- The first section of the call. -/
def RunningCall.first (call : RunningCall) : SystemStep :=
  match call.verb with
  | .put => .addLinkdef call.definition
  | .del => .deleteLinkdef call.definition

/-- The end of a run, once its call has returned. -/
def LinkHost.finished (s : LinkHost) (call : RunningCall) : LinkHost :=
  let s := { s with running := none, done := s.done ++ [call.run] }
  match call.run with
  | .add name _ .sent patched =>
    { s with
      refs := s.refs.insert call.id (call.definition, {name})
      stored :=
        if s.stored.lookup name = some call.definition.status then s.stored
        else if patched then s.stored.insert name call.definition.status else s.stored }
  | .add .. => s
  | .delete _ .sent => { s with refs := s.refs.erase call.id }
  | .delete .. => { s with refs := s.refs.insert call.id (call.definition, ∅) }

def LinkHost.step (s : LinkHost) : LinkHostStep → Option LinkHost
  | .actor step =>
    if step.onActors then (s.system.step sha256 step).map fun system => { s with system }
    else none
  | .begin run =>
    match s.running with
    | some _ => none
    | none =>
      match s.world.hostCall? sha256 spec run with
      | none =>
        let w := s.world.run sha256 spec run
        some { s with
          system := { s.system with host := w.ctx.host }
          refs := w.ctx.links
          stored := w.stored
          done := s.done ++ [run] }
      | some call =>
        (s.system.step sha256 call.first).map fun system =>
          { s with system, running := some call }
  | .route =>
    match s.running with
    | some _ => (s.system.step sha256 .routeLinkdef).map fun system => { s with system }
    | none => none
  | .finish =>
    match s.running with
    | some call =>
      (s.system.step sha256 (.publishLinkdef call.run.publish)).map fun system =>
        { s with system }.finished call
    | none => none

/-- A host whose Link controller runs beside its actor calls. -/
def linkHostMachine (latticePrefix : String) : Machine LinkHost LinkHostStep where
  init := .new latticePrefix
  step := LinkHost.step sha256 spec

end Sha256

/-! ## What a run does -/

/-- A section of an actor call leaves the definitions and the messages. -/
theorem actorSection_onlyActors (host : Host) (name : String) (failAt : Option Nat)
    (call : ActorCall) : OnlyActors host (host.actorSection name failAt call).1 := by
  cases call with
  | check job =>
    simp only [Host.actorSection]
    split <;> exact .refl host
  | register job =>
    simp only [Host.actorSection, Host.registerActorKey]
    split <;> exact ⟨_, _, _, _, _, _, le_rfl, rfl⟩
  | lookup job =>
    simp only [Host.actorSection, Host.lookupGroup]
    split <;> exact ⟨_, _, _, _, _, _, le_rfl, rfl⟩
  | fill job group => exact fillGroup_onlyActors host job.claims_eq _ _ _ _ _
  | readKey =>
    simp only [Host.actorSection]
    split <;> exact .refl host
  | removeGroup key =>
    simp only [Host.actorSection, Host.removeFromGroup]
    split
    · exact .refl host
    · split
      · exact .refl host
      · split <;> split <;> exact ⟨_, _, _, _, _, _, le_rfl, rfl⟩
  | dropKey => exact ⟨_, _, _, _, _, _, le_rfl, rfl⟩

section Runs

variable {sha256 : String → String} {spec : String → LinkSpec} {w : LinkWorld}

/-- The two calls that change the host: a definition that neither table has,
and the last reference to one that the host has. -/
theorem hostCall?_cases {run : LinkRun} {call : RunningCall}
    (h : w.hostCall? sha256 spec run = some call) :
    (∃ name cluster publish patched ld, run = .add name cluster publish patched ∧
      resolveLink cluster (w.link spec name) = .ok ld ∧ w.ctx.links.lookup ld.id = none ∧
      w.ctx.host.links.lookup (ld.hash sha256) = none ∧ call = ⟨run, .put, ld.id, ld⟩) ∨
    ∃ name publish status ld names found, run = .delete name publish ∧
      w.stored.lookup name = some status ∧ status.complete = true ∧
      w.ctx.links.lookup (statusId (spec name) status) = some (ld, names) ∧
      names.erase name = ∅ ∧ w.ctx.host.links.lookup (ld.hash sha256) = some found ∧
      call = ⟨run, .del, statusId (spec name) status, ld⟩ := by
  cases run with
  | add name cluster publish patched =>
    left
    simp only [LinkWorld.hostCall?] at h
    split at h
    · rename_i ld hld
      split at h
      · rename_i hid hhash
        cases h
        exact ⟨_, _, _, _, ld, rfl, hld, hid, hhash, rfl⟩
      · cases h
    · cases h
  | delete name publish =>
    right
    simp only [LinkWorld.hostCall?] at h
    split at h
    · rename_i status hstatus
      split at h
      · rename_i hcomplete
        split at h
        · rename_i ld names hid
          split at h
          · rename_i found hhash
            split at h
            · rename_i hlast
              cases h
              exact ⟨_, _, status, ld, names, found, rfl, hstatus, hcomplete, hid, hlast, hhash,
                rfl⟩
            · cases h
          · cases h
        · cases h
      · cases h
    · cases h

/-- Any other run leaves the host as it is. -/
theorem run_host_of_none {run : LinkRun} (h : w.hostCall? sha256 spec run = none) :
    (w.run sha256 spec run).ctx.host = w.ctx.host := by
  cases run with
  | add name cluster publish patched =>
    simp only [LinkWorld.run, addLink]
    simp only [LinkWorld.hostCall?] at h
    cases hld : resolveLink cluster (w.link spec name) with
    | error action => rfl
    | ok ld =>
      simp only [hld] at h
      cases hid : w.ctx.links.lookup ld.id with
      | some entry =>
        obtain ⟨found, names⟩ := entry
        simp only [installLink_occupied sha256 hid]
        split <;> rfl
      | none =>
        cases hhash : w.ctx.host.links.lookup (ld.hash sha256) with
        | none => simp [hid, hhash] at h
        | some found =>
          simp only [installLink_skip sha256 hid hhash]
          split <;> rfl
  | delete name publish =>
    simp only [LinkWorld.hostCall?] at h
    show (deleteLink sha256 w.ctx (w.link spec name) publish).2.host = w.ctx.host
    cases hstatus : w.stored.lookup name with
    | none =>
      have hnone : (w.link spec name).status = none := hstatus
      simp only [deleteLink, hnone]
    | some status =>
      simp only [hstatus] at h
      by_cases hcomplete : status.complete = true
      · rw [deleteLink_link sha256 spec hstatus hcomplete]
        simp only [hcomplete, if_true] at h
        cases hid : w.ctx.links.lookup (statusId (spec name) status) with
        | none => rw [releaseLink_vacant sha256 hid]
        | some entry =>
          obtain ⟨ld, names⟩ := entry
          have hentry := hid
          rw [statusId] at hentry
          simp only [hentry] at h
          by_cases hlast : names.erase name = ∅
          · cases hhash : w.ctx.host.links.lookup (ld.hash sha256) with
            | none =>
              simp [Ctx.releaseLink, hid, hlast, deleteLinkdef_of_none sha256 _ _ _ hhash]
            | some found => simp [hhash, hlast] at h
          · rw [releaseLink_shared sha256 hid hlast]
      · have hsome : (w.link spec name).status = some status := hstatus
        simp only [deleteLink, hsome, if_neg hcomplete]

/-- A run that puts a new definition: the tables and the log gain it. -/
theorem run_put {name : String} {cluster : Cluster} {ld : LinkDefinition}
    (hld : resolveLink cluster (w.link spec name) = .ok ld)
    (hid : w.ctx.links.lookup ld.id = none)
    (hhash : w.ctx.host.links.lookup (ld.hash sha256) = none) :
    let w' := w.run sha256 spec (.add name cluster .sent true)
    w'.ctx.host.links = w.ctx.host.links.insert (ld.hash sha256) ld ∧
      w'.ctx.host.published = w.ctx.host.published ++ [⟨.put, ld⟩] ∧
      w'.ctx.links = w.ctx.links.insert ld.id (ld, {name}) ∧
      w'.stored = if w.stored.lookup name = some ld.status then w.stored
        else w.stored.insert name ld.status := by
  obtain ⟨hhost, hrefs, hok⟩ := installLink_fresh sha256 hid hhash name .sent
  obtain ⟨hlinks, hpublished, -⟩ := addLinkdef_of_none sha256 w.ctx.host ld .sent hhash
  have hname : (w.link spec name).name = name := rfl
  have hstatus : (w.link spec name).status = w.stored.lookup name := rfl
  rw [if_pos rfl] at hrefs hpublished
  have htrue := hok.mpr rfl
  rcases hres : w.ctx.installLink sha256 name ld .sent with ⟨ctx, flag⟩
  rw [hres] at hhost hrefs htrue
  simp only at hhost hrefs htrue
  subst htrue
  simp only [LinkWorld.run, addLink, hld, hname, hstatus, hres]
  by_cases hpatch : w.stored.lookup name = some ld.status
  · simp only [hpatch, hhost, hlinks, hpublished, hrefs, if_true, and_self]
  · simp only [hpatch, hhost, hlinks, hpublished, hrefs, if_true, if_false, and_self]

/-- A run that drops the last reference: the tables and the log lose the
definition. -/
theorem run_del {name : String} {status : LinkStatus} {ld found : LinkDefinition}
    {names : Finset String} (hstatus : w.stored.lookup name = some status)
    (hcomplete : status.complete = true)
    (hid : w.ctx.links.lookup (statusId (spec name) status) = some (ld, names))
    (hlast : names.erase name = ∅)
    (hhash : w.ctx.host.links.lookup (ld.hash sha256) = some found) :
    let w' := w.run sha256 spec (.delete name .sent)
    w'.ctx.host.links = w.ctx.host.links.erase (ld.hash sha256) ∧
      w'.ctx.host.published = w.ctx.host.published ++ [⟨.del, found⟩] ∧
      w'.ctx.links = w.ctx.links.erase (statusId (spec name) status) ∧ w'.stored = w.stored := by
  obtain ⟨hhost, hrefs, -⟩ := releaseLink_last sha256 hid hlast hhash .sent
  obtain ⟨hlinks, hpublished, -⟩ := deleteLinkdef_of_some sha256 w.ctx.host ld .sent hhash
  rw [if_pos rfl] at hrefs hpublished
  simp only [LinkWorld.run, deleteLink_link sha256 spec hstatus hcomplete]
  exact ⟨by rw [hhost, hlinks], by rw [hhost, hpublished], hrefs, trivial⟩

end Runs

/-! ## The invariant -/

/-- The tables and the log of two worlds are the same. -/
structure SameTables (w w' : LinkWorld) : Prop where
  links : w'.ctx.host.links = w.ctx.host.links
  published : w'.ctx.host.published = w.ctx.host.published
  refs : w'.ctx.links = w.ctx.links
  stored : w'.stored = w.stored

/-- Between the sections of its call a run has changed `Host.links`, and
nothing else yet, of a world in order. -/
structure InCall (sha256 : String → String) (S : LinkSet) (s : LinkHost) (call : RunningCall) :
    Prop where
  before : ∃ w, Counted sha256 S w (S.table s.done) ∧ S.Succeeds w call.run ∧
    w.hostCall? sha256 S.spec call.run = some call ∧
    s.system.host.links = (match call.verb with
      | .put => w.ctx.host.links.insert (call.definition.hash sha256) call.definition
      | .del => w.ctx.host.links.erase (call.definition.hash sha256)) ∧
    s.system.host.published = w.ctx.host.published ∧ s.refs = w.ctx.links ∧ s.stored = w.stored
  call : ∃ c, s.system.linkdefCall = some c ∧ c.verb = call.verb ∧ c.definition = call.definition

structure Linked (sha256 : String → String) (S : LinkSet) (s : LinkHost) : Prop where
  idle : s.running = none →
    s.system.linkdefCall = none ∧ Counted sha256 S s.world (S.table s.done)
  inCall : ∀ call, s.running = some call → InCall sha256 S s call

/-- The runs that begin are over Links of the set, and succeed. -/
def LinkSet.Starts (S : LinkSet) (s : LinkHost) : LinkHostStep → Prop
  | .begin run => S.Succeeds s.world run
  | _ => True

section Invariant

variable {sha256 : String → String} {S : LinkSet} {s s' : LinkHost} {w : LinkWorld}
  {t : RefTable Triple String}

theorem Counted.congr {w' : LinkWorld} (h : Counted sha256 S w t) (hsame : SameTables w w') :
    Counted sha256 S w' t where
  host := hsame.links ▸ h.host
  ctx := hsame.refs ▸ h.ctx
  log := hsame.published ▸ h.log
  stored := hsame.stored ▸ h.stored
  used := h.used

theorem Counted.keyed (h : Counted sha256 S w t) : Keyed sha256 w.ctx.host.links := by
  intro c ld hc
  obtain ⟨k, hk, rfl⟩ := h.host.covered c ld hc
  rw [h.host.lookup k hk, RefTable.view_eq_some] at hc
  rw [← hc.2]
  exact S.hash_definition k

/-- The definition stored for a triple is the one of its live Links. -/
theorem Counted.mem_of_triple (h : Counted sha256 S w t) {k : Triple} {ld : LinkDefinition} :
    ld ∈ w.ctx.host.links.values ∧ ld.triple = k ↔ t k ≠ ∅ ∧ ld = S.definition k := by
  rw [h.host.mem_values_iff]
  constructor
  · rintro ⟨⟨k', -, hview⟩, rfl⟩
    obtain ⟨hne, rfl⟩ := RefTable.view_eq_some.mp hview
    rw [S.definition_triple]
    exact ⟨hne, rfl⟩
  · rintro ⟨hne, rfl⟩
    exact ⟨⟨k, h.used k hne, RefTable.view_eq_some.mpr ⟨hne, rfl⟩⟩, S.definition_triple k⟩

/-- Under the hash of a definition of `Ctx.links` the host has that
definition, or nothing. -/
theorem Counted.definition_of_lookup (h : Counted sha256 S w t)
    {ld found : LinkDefinition} {id : String} {names : Finset String}
    (hid : w.ctx.links.lookup id = some (ld, names))
    (hhash : w.ctx.host.links.lookup (ld.hash sha256) = some found) : found = ld := by
  obtain ⟨k, hk, rfl⟩ := h.ctx.covered id _ hid
  rw [h.ctx.lookup k hk, RefTable.view_eq_some] at hid
  obtain ⟨hne, heq⟩ := hid
  obtain ⟨rfl, -⟩ := Prod.mk.inj heq
  have hlookup := h.host.lookup k hk
  rw [S.hash_definition, hlookup, RefTable.view_eq_some] at hhash
  exact hhash.2.symm

/-! ## Steps keep it -/

/-- A section of an actor call leaves the definitions, the messages and the
link call. -/
theorem step_onActors {s s' : System} {step : SystemStep} (hon : step.onActors = true)
    (h : s.step sha256 step = some s') :
    s'.host.links = s.host.links ∧ s'.host.published = s.host.published ∧
      s'.linkdefCall = s.linkdefCall := by
  cases step with
  | reconcileActor name actorRef fetched replica =>
    obtain ⟨-, ⟨-, rfl⟩ | ⟨job, -, rfl⟩⟩ := step_reconcileActor h <;> exact ⟨rfl, rfl, rfl⟩
  | removeActor name =>
    obtain ⟨-, rfl⟩ := step_removeActor h
    exact ⟨rfl, rfl, rfl⟩
  | actorSection name failAt =>
    obtain ⟨call, -, hhost, hcall, -⟩ := step_actorSection h
    obtain ⟨_, _, _, _, _, _, -, heq⟩ := actorSection_onlyActors s.host name failAt call
    rw [hhost, heq]
    exact ⟨rfl, rfl, hcall⟩
  | addLinkdef | deleteLinkdef | routeLinkdef | publishLinkdef => cases hon

theorem linked_actor (h : Linked sha256 S s) {step : SystemStep} (hon : step.onActors = true)
    {system : System} (hs : s.system.step sha256 step = some system) :
    Linked sha256 S { s with system } := by
  obtain ⟨hlinks, hpublished, hcall⟩ := step_onActors hon hs
  constructor
  · intro hidle
    obtain ⟨hnone, hcounted⟩ := h.idle hidle
    exact ⟨hcall.trans hnone, hcounted.congr ⟨hlinks, hpublished, rfl, rfl⟩⟩
  · intro call hrunning
    obtain ⟨⟨w, hw, hok, hcall?, hlinks', hpublished', hrefs, hstored⟩, c, hc⟩ :=
      h.inCall call hrunning
    exact ⟨⟨w, hw, hok, hcall?, hlinks.trans hlinks', hpublished.trans hpublished', hrefs,
      hstored⟩, c, hcall.trans hc.1, hc.2⟩

theorem LinkSet.table_snoc (S : LinkSet) (tr : List LinkRun) (run : LinkRun) :
    S.table (tr ++ [run]) = (S.table tr).apply (S.op run) := by
  rw [LinkSet.table, List.map_append, List.map_singleton, RefTable.after_snoc]
  rfl

/-- A run that does not change the host is over at once. -/
theorem linked_begin (hsha : Function.Injective sha256) (hapart : S.EncodingsApart)
    (h : Linked sha256 S s) (hidle : s.running = none) {run : LinkRun}
    (hok : S.Succeeds s.world run) :
    Linked sha256 S { s with
      system := { s.system with host := (s.world.run sha256 S.spec run).ctx.host }
      refs := (s.world.run sha256 S.spec run).ctx.links
      stored := (s.world.run sha256 S.spec run).stored
      done := s.done ++ [run] } := by
  obtain ⟨hnone, hcounted⟩ := h.idle hidle
  constructor
  · intro _
    refine ⟨hnone, ?_⟩
    simp only [S.table_snoc]
    exact refCounting_keeps hsha hapart hcounted hok
  · intro call hcall
    rw [hidle] at hcall
    cases hcall

/-- The first section of a run's call. -/
theorem linked_first (h : Linked sha256 S s) (hidle : s.running = none) {run : LinkRun}
    {call : RunningCall} (hok : S.Succeeds s.world run)
    (hcall : s.world.hostCall? sha256 S.spec run = some call) {system : System}
    (hs : s.system.step sha256 call.first = some system) :
    Linked sha256 S { s with system, running := some call } := by
  obtain ⟨-, hcounted⟩ := h.idle hidle
  constructor
  · intro hnone
    cases hnone
  · intro call' hcall'
    cases hcall'
    rcases hostCall?_cases hcall with
      ⟨name, cluster, publish, patched, ld, rfl, -, -, hfree, rfl⟩ |
        ⟨name, publish, status, ld, names, found, rfl, -, -, hid, -, hused, rfl⟩
    · obtain ⟨-, ⟨hused, -⟩ | ⟨-, rfl⟩⟩ := step_addLinkdef hs
      · exact absurd hfree hused
      · exact ⟨⟨s.world, hcounted, hok, hcall, rfl, rfl, rfl, rfl⟩, _, rfl, rfl, rfl⟩
    · obtain ⟨-, ⟨hfree, -⟩ | ⟨found', hfound', rfl⟩⟩ := step_deleteLinkdef hs
      · have hfree' : s.world.ctx.host.links.lookup (ld.hash sha256) = none := hfree
        rw [hused] at hfree'
        cases hfree'
      · have hdef : found' = ld := hcounted.definition_of_lookup hid hfound'
        exact ⟨⟨s.world, hcounted, hok, hcall, rfl, rfl, rfl, rfl⟩, _, rfl, rfl, hdef⟩

theorem linked_route (h : Linked sha256 S s) {call : RunningCall} (hrunning : s.running = some call)
    {system : System} (hs : s.system.step sha256 .routeLinkdef = some system) :
    Linked sha256 S { s with system } := by
  obtain ⟨c, hc, -, rfl⟩ := step_routeLinkdef hs
  constructor
  · intro hidle
    rw [hrunning] at hidle
    cases hidle
  · intro call' hrunning'
    obtain ⟨⟨w, hw, hok, hcall?, hlinks, hpublished, hrefs, hstored⟩, c', hc', hverb, hdef⟩ :=
      h.inCall call' hrunning'
    rw [hc] at hc'
    cases hc'
    exact ⟨⟨w, hw, hok, hcall?, hlinks, hpublished, hrefs, hstored⟩, _, rfl, hverb, hdef⟩

/-- At its end a run has done what it does without interruption. -/
theorem linked_finish (hsha : Function.Injective sha256) (hapart : S.EncodingsApart)
    (h : Linked sha256 S s) {call : RunningCall} (hrunning : s.running = some call) {system : System}
    (hs : s.system.step sha256 (.publishLinkdef call.run.publish) = some system) :
    Linked sha256 S ({ s with system }.finished call) := by
  obtain ⟨c, hc, -, rfl⟩ := step_publishLinkdef hs
  obtain ⟨⟨w, hw, hok, hcall?, hlinks, hpublished, hrefs, hstored⟩, c', hc', hverb, hdef⟩ :=
    h.inCall call hrunning
  rw [hc] at hc'
  cases hc'
  have hrun := refCounting_keeps hsha hapart hw hok
  obtain ⟨run, verb, id, definition⟩ := call
  simp only at hverb hdef hlinks hok hrun
  rcases hostCall?_cases hcall? with
    ⟨name, cluster, publish, patched, ld, hput, hld, hid, hhash, heq⟩ |
      ⟨name, publish, status, ld, names, found, hdel, hstatus, hcomplete, hid, hlast, hhash, heq⟩
  · simp only at hput
    subst hput
    cases heq
    obtain ⟨-, -, rfl, rfl⟩ := hok
    obtain ⟨hlinks', hpublished', hrefs', hstored'⟩ := run_put hld hid hhash
    constructor
    · intro _
      refine ⟨rfl, ?_⟩
      simp only [LinkHost.finished, S.table_snoc]
      refine hrun.congr ⟨?_, ?_, ?_, ?_⟩
      · rw [hlinks']
        exact (publishLinkdef_links _ _ _).trans hlinks
      · rw [hpublished', ← hpublished, ← hverb, ← hdef]
        rfl
      · rw [hrefs', ← hrefs]
        rfl
      · rw [hstored', ← hstored]
        rfl
    · intro call' hcall'
      cases hcall'
  · simp only at hdel
    subst hdel
    cases heq
    obtain ⟨-, rfl⟩ := hok
    obtain ⟨hlinks', hpublished', hrefs', hstored'⟩ := run_del hstatus hcomplete hid hlast hhash
    have hfound : found = definition := hw.definition_of_lookup hid hhash
    constructor
    · intro _
      refine ⟨rfl, ?_⟩
      simp only [LinkHost.finished, S.table_snoc]
      refine hrun.congr ⟨?_, ?_, ?_, ?_⟩
      · rw [hlinks']
        exact (publishLinkdef_links _ _ _).trans hlinks
      · rw [hpublished', ← hpublished, hfound, ← hverb, ← hdef]
        rfl
      · rw [hrefs', ← hrefs]
        rfl
      · rw [hstored', ← hstored]
        rfl
    · intro call' hcall'
      cases hcall'

/-- Every step keeps the invariant. -/
theorem linked_step (hsha : Function.Injective sha256) (hapart : S.EncodingsApart)
    (h : Linked sha256 S s) {step : LinkHostStep} (hok : S.Starts s step)
    (hs : s.step sha256 S.spec step = some s') : Linked sha256 S s' := by
  cases step with
  | actor step =>
    simp only [LinkHost.step] at hs
    split at hs
    · rename_i hon
      obtain ⟨system, hsystem, rfl⟩ := Option.map_eq_some_iff.mp hs
      exact linked_actor h hon hsystem
    · cases hs
  | begin run =>
    simp only [LinkHost.step] at hs
    split at hs
    · cases hs
    · rename_i hidle
      split at hs
      · cases hs
        exact linked_begin hsha hapart h hidle hok
      · rename_i call hcall
        obtain ⟨system, hsystem, rfl⟩ := Option.map_eq_some_iff.mp hs
        exact linked_first h hidle hok hcall hsystem
  | route =>
    simp only [LinkHost.step] at hs
    split at hs
    · rename_i call hrunning
      obtain ⟨system, hsystem, rfl⟩ := Option.map_eq_some_iff.mp hs
      exact linked_route h hrunning hsystem
    · cases hs
  | finish =>
    simp only [LinkHost.step] at hs
    split at hs
    · rename_i call hrunning
      obtain ⟨system, hsystem, rfl⟩ := Option.map_eq_some_iff.mp hs
      exact linked_finish hsha hapart h hrunning hsystem
    · cases hs

theorem linked_of_run (hsha : Function.Injective sha256) (hapart : S.EncodingsApart)
    {latticePrefix : String} {steps : List LinkHostStep}
    (h : (linkHostMachine sha256 S.spec latticePrefix).RunWhen S.Starts steps s) :
    Linked sha256 S s := by
  refine h.invariant (I := Linked sha256 S) ?_
    fun s step s' hI hok hs => linked_step hsha hapart hI hok hs
  exact ⟨fun _ => ⟨rfl, Counted.new latticePrefix⟩, fun call hcall => nomatch hcall⟩

/-! ## The host below -/

/-- Every step is a step of the host, or leaves it as it is. -/
theorem system_step {step : LinkHostStep} (hs : s.step sha256 S.spec step = some s') :
    s'.system = s.system ∨ ∃ inner, s.system.step sha256 inner = some s'.system := by
  have hlift : ∀ {inner : SystemStep} {f : System → LinkHost}, (∀ system, (f system).system = system) →
      (s.system.step sha256 inner).map f = some s' →
      ∃ inner, s.system.step sha256 inner = some s'.system := by
    intro inner f hf hmap
    obtain ⟨system, hsystem, rfl⟩ := Option.map_eq_some_iff.mp hmap
    exact ⟨inner, by rw [hf, hsystem]⟩
  cases step with
  | actor step =>
    simp only [LinkHost.step] at hs
    split at hs
    · exact .inr (hlift (fun _ => rfl) hs)
    · cases hs
  | begin run =>
    simp only [LinkHost.step] at hs
    split at hs
    · cases hs
    · split at hs
      · rename_i hnone
        cases hs
        left
        simp only [run_host_of_none hnone]
        rfl
      · exact .inr (hlift (fun _ => rfl) hs)
  | route =>
    simp only [LinkHost.step] at hs
    split at hs
    · exact .inr (hlift (fun _ => rfl) hs)
    · cases hs
  | finish =>
    simp only [LinkHost.step] at hs
    split at hs
    · rename_i call _
      refine .inr (hlift (fun system => ?_) hs)
      unfold LinkHost.finished
      split <;> rfl
    · cases hs

/-- What a host goes through under the Link controller is a run of the host. -/
theorem system_reachable {latticePrefix : String}
    (h : (linkHostMachine sha256 S.spec latticePrefix).Reachable s) :
    (hostMachine sha256 latticePrefix).Reachable s.system := by
  refine h.invariant (I := fun s => (hostMachine sha256 latticePrefix).Reachable s.system)
    ⟨[], .nil⟩ fun s step s' hI hs => ?_
  rcases system_step hs with heq | ⟨inner, hinner⟩
  · rw [heq]
    exact hI
  · obtain ⟨tr, hrun⟩ := hI
    exact ⟨_, .snoc hrun trivial hinner⟩

/-! ## What a table holds -/

/-- At the triple of no run in progress, the definitions of the host are those
of the runs that are over. -/
theorem Linked.mem_of_triple (h : Linked sha256 S s) {k : Triple}
    (hquiet : ∀ call, s.running = some call → call.definition.triple ≠ k) {ld : LinkDefinition} :
    ld ∈ s.system.host.links.values ∧ ld.triple = k ↔
      S.table s.done k ≠ ∅ ∧ ld = S.definition k := by
  cases hrunning : s.running with
  | none => exact (h.idle hrunning).2.mem_of_triple
  | some call =>
    obtain ⟨⟨w, hw, -, hcall?, hlinks, -, -, -⟩, -⟩ := h.inCall call hrunning
    have hne := hquiet call hrunning
    rw [← hw.mem_of_triple, hlinks]
    -- the run has only touched the place of its own definition
    refine and_congr_left fun htriple => ?_
    rcases hostCall?_cases hcall? with
      ⟨_, _, _, _, definition, -, -, -, hfree, heq⟩ |
        ⟨_, _, _, definition, _, found, -, -, -, hid, -, hused, heq⟩
    · rw [heq] at hne ⊢
      rw [HashMap.mem_values_insert hfree]
      refine or_iff_right ?_
      rintro rfl
      exact hne htriple
    · rw [heq] at hne ⊢
      have hfound := hw.definition_of_lookup hid hused
      simp only [hw.keyed.mem_values_erase hused, hfound]
      refine and_iff_left ?_
      rintro rfl
      exact hne htriple

/-- The links table of a registered group holds, at such a place, the entity
of the live Links. -/
theorem Linked.entity?_eq (h : Linked sha256 S s) (hrouted : Routed sha256 s.system)
    {key : String} {ref : Ref} {g : ActorGroup} (hreg : s.system.host.actors.lookup key = some ref)
    (hg : s.system.host.groups.get? ref = some g) {c l : String}
    (hquiet : ∀ call, s.running = some call → call.definition.triple ≠ (key, c, l)) :
    g.links.entity? c l =
      if S.table s.done (key, c, l) = ∅ then none
      else some (S.definition (key, c, l)).entity := by
  obtain ⟨table, hheader, hagrees⟩ := hrouted.registered key ref hreg
  rw [header?_isSome hg, Option.some.injEq, Prod.mk.injEq] at hheader
  obtain ⟨-, rfl⟩ := hheader
  have hpending : s.system.pending ≠ some (key, c, l) := by
    intro hpend
    cases hrunning : s.running with
    | none => simp [System.pending, (h.idle hrunning).1] at hpend
    | some call =>
      obtain ⟨-, linkdefCall, hcall, -, hdef⟩ := h.inCall call hrunning
      simp only [System.pending, hcall, hdef] at hpend
      split at hpend
      · cases hpend
      · exact hquiet call hrunning (Option.some.inj hpend)
  have hplace := hagrees c l hpending
  apply Option.ext
  intro e
  rw [hplace e]
  constructor
  · rintro ⟨ld, hmem, htriple, rfl⟩
    obtain ⟨hne, rfl⟩ := (h.mem_of_triple hquiet).mp ⟨hmem, htriple⟩
    rw [if_neg hne]
  · intro he
    split at he
    · cases he
    · rename_i hne
      cases he
      obtain ⟨hmem, htriple⟩ := (h.mem_of_triple hquiet).mpr ⟨hne, rfl⟩
      exact ⟨_, hmem, htriple, rfl⟩

end Invariant

/-! ## The calls of an instance -/

/-- Every handler was made with the prefix of its host. -/
def OnPrefix (latticePrefix : String) (host : Host) : Prop :=
  host.latticePrefix = latticePrefix ∧
    ∀ ref name a, host.actorAt ref name = some a → a.handler.latticePrefix = latticePrefix

theorem onPrefix_of_reachable {sha256 : String → String} {latticePrefix : String} {s : System}
    (h : (hostMachine sha256 latticePrefix).Reachable s) : OnPrefix latticePrefix s.host := by
  refine h.invariant (I := fun s => OnPrefix latticePrefix s.host) ⟨rfl, ?_⟩ fun s step s' hI hs =>
    hostInvariant_step ?_ (fun _ _ h => h) ?_ (fun _ _ h => h) hI hs
  · intro ref name a ha
    cases ha
  · rintro host name failAt call ⟨hlattice, hhandlers⟩
    obtain ⟨_, _, _, _, _, _, -, heq⟩ := actorSection_onlyActors host name failAt call
    refine ⟨by rw [heq]; exact hlattice, fun ref m a ha => ?_⟩
    rcases actorSection_actorAt ha with hold | ⟨job, group, -, hfilled⟩
    · exact hhandlers ref m a hold
    · rcases fillGroup_images job.claims_eq group name job.actorRef job.replica failAt hfilled with
        ⟨old, hold, hgrown⟩ | ⟨-, -, rfl⟩
      · rw [hgrown.handler]
        exact hhandlers ref m old hold
      · exact hlattice
  · rintro host call ⟨hlattice, hhandlers⟩
    refine ⟨hlattice, fun ref m a ha => ?_⟩
    rw [onGroupLinks_actorAt] at ha
    exact hhandlers ref m a ha

/-- A link target resolves to what the table holds at its place. -/
theorem resolveTarget_eq {target : Option TargetEntity} {l : String}
    (hl : targetLink target = some l) (links : LinkTable) (package : String)
    (aliases : HashMap String WasmCloudEntity) :
    resolveTarget target (links.lookup package) aliases =
      match links.entity? package l with
      | some entity => .ok entity
      | none => .error "link not found" := by
  unfold targetLink at hl
  split at hl
  · cases hl
    rfl
  · cases hl
    rfl
  · cases hl

section Call

variable {handler : Handler} {links : LinkTable} {aliases : HashMap String WasmCloudEntity}
  {target : Option TargetEntity} {chunkThreshold : Nat} {operation package rest l : String}
  {request : Bytes} {t : List (Prog.Event callInterface)} {r : Except String (Except String Bytes)}

/-- A call through a link that the table does not have fails before it asks
for anything. -/
theorem call_unlinked (hop : splitOnce operation '/' = some (package, rest))
    (hl : targetLink target = some l) (hnone : links.entity? package l = none)
    (h : (handler.callOperationWithPayload chunkThreshold links aliases target operation
      request).Exec t r) : t = [] ∧ r = .error "link not found" := by
  have hres := resolveTarget_eq hl links package aliases
  simp only [hnone] at hres
  have hfail : handler.callOperationWithPayload chunkThreshold links aliases target operation
      request = .fail "link not found" := by
    simp only [Handler.callOperationWithPayload, Handler.exchange, hop]
    show (Prog.lift (resolveTarget target (links.lookup package) aliases) >>= _) >>= _ = _
    rw [hres]
    rfl
  rw [hfail] at h
  cases h
  exact ⟨rfl, rfl⟩

/-- A call through a link of the table begins with an invocation of the
link's entity. -/
theorem call_linked (hop : splitOnce operation '/' = some (package, rest))
    (hl : targetLink target = some l) {entity : WasmCloudEntity}
    (hsome : links.entity? package l = some entity)
    (h : (handler.callOperationWithPayload chunkThreshold links aliases target operation
      request).Exec t r) :
    ∃ answer t', t = ⟨.newInvocation handler.origin entity operation request, answer⟩ :: t' := by
  have hres := resolveTarget_eq hl links package aliases
  simp only [hsome] at hres
  have hask : ∃ next, handler.callOperationWithPayload chunkThreshold links aliases target
      operation request = .ask (.newInvocation handler.origin entity operation request) next := by
    simp only [Handler.callOperationWithPayload, Handler.exchange, hop]
    show ∃ next, (Prog.lift (resolveTarget target (links.lookup package) aliases) >>= _) >>= _ = _
    rw [hres]
    exact ⟨_, rfl⟩
  obtain ⟨next, hask⟩ := hask
  rw [hask] at h
  cases h with
  | @ask _ _ answer t' _ _ => exact ⟨answer, t', rfl⟩

end Call

/-- **Linked calls.** Let a host run any sequence of successful Link runs,
interleaved with the sections of actor calls, and let `i` be an instance of a
registered group. What a call of `i` through a link does is decided by the
live Links of the place, whenever no run is in its call of the host for that
place: with none, it fails with `link not found` and asks for nothing; with
some, it begins with an invocation of the provider that these Links are
resolved to, and every request it publishes goes to that provider's subject
under the lattice prefix. -/
theorem linked_calls (sha256 : String → String) (hsha : Function.Injective sha256) (S : LinkSet)
    (hapart : S.EncodingsApart) (latticePrefix : String) (steps : List LinkHostStep)
    (s : LinkHost) (hrun : (linkHostMachine sha256 S.spec latticePrefix).RunWhen S.Starts steps s)
    (key : String) (ref : Ref) (name : String) (i : ActorInstance)
    (hreg : s.system.host.actors.lookup key = some ref)
    (hi : i ∈ s.system.host.instancesAt ref name)
    (chunkThreshold : Nat) (target : Option TargetEntity) (operation package rest l : String)
    (hop : splitOnce operation '/' = some (package, rest)) (hl : targetLink target = some l)
    (hquiet : ∀ call, s.running = some call → call.definition.triple ≠ (key, package, l))
    (request : Bytes) (t : List (Prog.Event callInterface))
    (r : Except String (Except String Bytes))
    (h : (i.handler.callOperationWithPayload chunkThreshold (s.system.host.linksOf i.handler)
      s.system.host.aliases target operation request).Exec t r) :
    (S.table s.done (key, package, l) = ∅ → t = [] ∧ r = .error "link not found") ∧
      (S.table s.done (key, package, l) ≠ ∅ →
        (∃ answer t', t = ⟨.newInvocation i.handler.origin
          (S.definition (key, package, l)).entity operation request, answer⟩ :: t') ∧
        ∀ topic invocation extraTime answer,
          (⟨.sendRequest topic invocation extraTime, answer⟩ : Prog.Event callInterface) ∈ t →
            invocation.target = (S.definition (key, package, l)).entity ∧
            topic = "wasmbus.rpc." ++ latticePrefix ++ "." ++
              (S.definition (key, package, l)).providerId ++ "." ++ l) := by
  have hlinked := linked_of_run hsha hapart hrun
  have hreach := system_reachable hrun.reachable
  cases hat : s.system.host.actorAt ref name with
  | none =>
    rw [instancesAt_of_none hat] at hi
    cases hi
  | some a =>
    rw [instancesAt_of_some hat] at hi
    obtain ⟨⟨host₀, claims, hbuilt⟩, hshared⟩ := handlersBuilt_of_reachable hreach ref name a hat
    have hlattice := (onPrefix_of_reachable hreach).2 ref name a hat
    rw [hshared i hi] at h ⊢
    obtain ⟨g, hg, -⟩ := group_of_actorAt hat
    have hplace := hlinked.entity?_eq (routed_of_reachable hreach) hreg hg hquiet
    have htable : s.system.host.linksOf a.handler = g.links := by
      have hlinks : a.handler.links = ref := by rw [hbuilt]; rfl
      rw [Host.linksOf, hlinks, hg]
    rw [htable] at h
    constructor
    · intro hempty
      rw [if_pos hempty] at hplace
      exact call_unlinked hop hl hplace h
    · intro hne
      rw [if_neg hne] at hplace
      refine ⟨call_linked hop hl hplace h, fun topic invocation extraTime answer hsent => ?_⟩
      have hkeyed : ∀ c l e, g.links.entity? c l = some e → e.contractId = c :=
        fun c l e he => (tablesKeyed_of_reachable hreach ref _ (header?_isSome hg) c l e he).1
      have hconfined := callOperationWithPayload_confined (by rw [hbuilt]; rfl) hkeyed h
      obtain ⟨-, package', rest', entity, hop', hres, htarget, htopic, -, -⟩ :=
        hconfined.sentRight _ hsent
      rw [hop, Option.some.injEq, Prod.mk.injEq] at hop'
      obtain ⟨rfl, rfl⟩ := hop'
      rw [resolveTarget_eq hl, hplace, Except.ok.injEq] at hres
      subst hres
      refine ⟨htarget, ?_⟩
      have hname : (S.definition (key, package, l)).linkName = l :=
        congrArg (fun k : Triple => k.2.2) (S.definition_triple (key, package, l))
      rw [htopic, hlattice]
      unfold callTopic targetLink at *
      split at hl
      · simp [LinkDefinition.entity, hname]
      · simp [LinkDefinition.entity, hname]
      · cases hl

/-! ## A linked call -/

/-- The two sample Links are added; between the first section of the second
run and its routing, the group of their actor is made, and it is filled
while the run is over. -/
def linkedSteps : List LinkHostStep :=
  [.begin (.add "keyvalue-echo" ⟨fun _ => none, fun _ => none⟩ .sent true), .route, .finish,
    .actor (.reconcileActor "kvcounter" "image" (.ok imageKeyvalue) 1),
    .actor (.actorSection "kvcounter" none),
    .begin (.add "httpserver-echo" ⟨fun _ => none, fun _ => none⟩ .sent true),
    .actor (.actorSection "kvcounter" none), .actor (.actorSection "kvcounter" none), .route,
    .actor (.actorSection "kvcounter" none)]

def linkedHost : LinkHost :=
  ((linkHostMachine id sampleLinks.spec "default").exec (.new "default") linkedSteps).get (by decide)

/-- Both runs are over Links of the set. -/
theorem linkedSteps_run :
    (linkHostMachine id sampleLinks.spec "default").RunWhen sampleLinks.Starts linkedSteps
      linkedHost := by
  have hexec : (linkHostMachine id sampleLinks.spec "default").exec (.new "default") linkedSteps =
      some linkedHost := (Option.some_get _).symm
  have hkv : "keyvalue-echo" ∈ sampleLinks.names := by simp [sampleLinks, keyLinks]
  have hhttp : "httpserver-echo" ∈ sampleLinks.names := by simp [sampleLinks, keyLinks]
  show (linkHostMachine id sampleLinks.spec "default").RunWhen sampleLinks.Starts
    ([] ++ linkedSteps) linkedHost
  refine Machine.RunWhen.append_exec .nil (fun l hl s => ?_) hexec
  simp only [linkedSteps, List.mem_cons, List.not_mem_nil, or_false] at hl
  obtain rfl | rfl | rfl | rfl | rfl | rfl | rfl | rfl | rfl | rfl := hl
  · exact ⟨hkv, rfl, rfl, rfl⟩
  all_goals first | exact trivial | exact ⟨hhttp, rfl, rfl, rfl⟩

/-- A call of the actor through the first Link. -/
def linkedCall : CallProg (Except String Bytes) :=
  keyvalueInstance.handler.callOperationWithPayload 1024
    (linkedHost.system.host.linksOf keyvalueInstance.handler) linkedHost.system.host.aliases
    (some (.link (some "test"))) "wasmcloud:keyvalue/KeyValue.Get" [1]

/-- While the second run is still in its call, it goes out to the Link's
provider. -/
theorem linkedCall_sent :
    linkedHost.running.map (fun call => call.definition.triple) =
        some ("M", "wasmcloud:httpserver", "test") ∧
      ∃ t r topic invocation extraTime answer, linkedCall.Exec t r ∧
        (⟨.sendRequest topic invocation extraTime, answer⟩ : Prog.Event callInterface) ∈ t ∧
        topic = "wasmbus.rpc.default.V.test" := by
  have hrunning : linkedHost.running.map (fun call => call.definition.triple) =
      some ("M", "wasmcloud:httpserver", "test") := by decide
  have hquiet : ∀ call, linkedHost.running = some call →
      call.definition.triple ≠ ("M", "wasmcloud:keyvalue", "test") := by
    intro call hcall heq
    rw [hcall, Option.map_some, heq] at hrunning
    exact absurd hrunning (by decide)
  have hfollow := Prog.exec_follow (F := callInterface) keyvalueAnswers linkedCall
  have hcalls := linked_calls id Function.injective_id sampleLinks sampleLinks_apart "default"
    linkedSteps linkedHost linkedSteps_run "M" 0 "kvcounter" keyvalueInstance (by decide)
    (by decide) 1024 (some (.link (some "test"))) "wasmcloud:keyvalue/KeyValue.Get"
    "wasmcloud:keyvalue" "KeyValue.Get" "test" (by decide) rfl hquiet [1] _ _ hfollow
  have hlive : sampleLinks.table linkedHost.done ("M", "wasmcloud:keyvalue", "test") ≠ ∅ := by
    decide
  have hsent : (linkedCall.follow keyvalueAnswers).1.any
      (fun e => CallOp.publishes e.1) = true := by decide
  obtain ⟨⟨op, answer⟩, hin, hpublishes⟩ := List.any_eq_true.mp hsent
  cases op with
  | sendRequest topic invocation extraTime =>
    obtain ⟨-, htopic⟩ := (hcalls.2 hlive).2 topic invocation extraTime answer hin
    exact ⟨hrunning, _, _, topic, invocation, extraTime, answer, hfollow, hin, htopic⟩
  | _ => cases hpublishes

end KasmCloud
