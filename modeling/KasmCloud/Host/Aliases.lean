/-
KasmCloud.Host.Aliases — call aliases (`crates/host/src/lib.rs`,
`handler.rs`).

An image can declare a call alias, and an actor can address another by it:
`resolve_target` looks it up in `Host.aliases`, of which `start_actor` hands
every handler a pointer. Nothing enters an alias there.

* `serve_aliases` — no call of a host changes the table, so it stays empty;
* `aliasesResolve_iff` — a reachable state resolves the declared aliases
  exactly when no alias is declared by a single running actor;
* `aliasesResolve_always_iff` — and all states of a run do exactly when no
  running actor ever declares one.
-/
import KasmCloud.Host.Api
import KasmCloud.Host.Handler
import KasmCloud.Host.ImageChange

namespace KasmCloud

open Lib

/-! ## Declared aliases -/

/-- `call_alias` in the claims of an actor. -/
def Jwt.Claims.callAlias (claims : Jwt.Claims Jwt.Actor) : Option String :=
  claims.metadata.bind Jwt.Actor.callAlias

/-- The aliases table of a handler: `start_actor` clones the pointer of the
host. -/
def Host.aliasesOf (host : Host) (_handler : Handler) : HashMap String WasmCloudEntity :=
  host.aliases

/-- An instance is recorded and its call loop runs. -/
def Host.Running (host : Host) (i : ActorInstance) : Prop :=
  ∃ ref name, i ∈ host.instancesAt ref name ∧ i.id ∈ host.loops

/-- The actor with this key has a running instance and declares the alias. -/
def Host.Declares (host : Host) (key callAlias : String) : Prop :=
  ∃ i, host.Running i ∧ i.handler.claims.subject = key ∧
    i.handler.claims.callAlias = some callAlias

/-- It is the only one to declare it. -/
def Host.DeclaresAlone (host : Host) (key callAlias : String) : Prop :=
  host.Declares key callAlias ∧ ∀ other, host.Declares other callAlias → other = key

/-- In every running handler an alias that one actor declares resolves to that
actor, and one that nobody declares does not resolve. -/
structure AliasesResolve (host : Host) : Prop where
  declared : ∀ i, host.Running i → ∀ links key callAlias, host.DeclaresAlone key callAlias →
    ∃ entity, resolveTarget (some (.actor (.alias callAlias))) links (host.aliasesOf i.handler) =
        .ok entity ∧
      entity.publicKey = key
  unknown : ∀ i, host.Running i → ∀ links callAlias, (∀ key, ¬ host.Declares key callAlias) →
    ∃ e, resolveTarget (some (.actor (.alias callAlias))) links (host.aliasesOf i.handler) = .error e

/-- No running actor declares an alias. -/
def NoAliases (host : Host) : Prop := ∀ key callAlias, ¬ host.Declares key callAlias

/-! ## Nothing writes the table -/

theorem OnlyActors.aliases {host host' : Host} (h : OnlyActors host host') :
    host'.aliases = host.aliases := by
  obtain ⟨_, _, _, _, _, _, -, rfl⟩ := h
  rfl

theorem OnlyProviders.aliases {host host' : Host} (h : OnlyProviders host host') :
    host'.aliases = host.aliases := by
  obtain ⟨_, _, _, _, -, rfl⟩ := h
  rfl

theorem OnlyLinks.aliases {host host' : Host} (h : OnlyLinks host host') :
    host'.aliases = host.aliases := by
  obtain ⟨_, _, _, rfl⟩ := h
  rfl

section Sha256

variable {sha256 : String → String} {latticePrefix : String}

/-- No call of a host changes the table. -/
theorem serve_aliases (host : Host) (call : HostCall) :
    (host.serve sha256 call).aliases = host.aliases := by
  cases call with
  | reconcileActor name actorRef fetched replica failAt =>
    exact (reconcileActor_onlyActors host name actorRef fetched replica failAt).aliases
  | removeActor name => exact (removeActor_onlyActors host name).aliases
  | startProvider linkName providerRef fetched failure =>
    exact (startProvider_onlyProviders host linkName providerRef fetched failure).aliases
  | stopProvider linkName key shutdown =>
    exact (stopProvider_onlyProviders host linkName key shutdown).aliases
  | addLinkdef ld outcome => exact (addLinkdef_onlyLinks sha256 host ld outcome).aliases
  | deleteLinkdef ld outcome => exact (deleteLinkdef_onlyLinks sha256 host ld outcome).aliases
  | processExit pid => rfl

/-- The table stays as it was made. -/
theorem aliases_of_reachable {host : Host}
    (h : (apiMachine sha256 latticePrefix).Reachable host) : host.aliases = ∅ := by
  refine h.invariant (I := fun host => host.aliases = ∅) rfl ?_
  intro host call host' hempty hs
  cases hs
  exact (serve_aliases host call).trans hempty

/-- No alias resolves. -/
theorem resolveTarget_alias {host : Host} (h : (apiMachine sha256 latticePrefix).Reachable host)
    (handler : Handler) (links : Option (HashMap String WasmCloudEntity)) (callAlias : String) :
    resolveTarget (some (.actor (.alias callAlias))) links (host.aliasesOf handler) =
      .error "unknown actor call alias" := by
  unfold Host.aliasesOf
  rw [aliases_of_reachable h]
  rfl

/-- So a state in which some alias is declared by one running actor is wrong,
and any other is right. -/
theorem aliasesResolve_iff {host : Host} (h : (apiMachine sha256 latticePrefix).Reachable host) :
    AliasesResolve host ↔ ∀ key callAlias, ¬ host.DeclaresAlone key callAlias := by
  constructor
  · intro hresolve key callAlias halone
    obtain ⟨i, hrunning, -, -⟩ := halone.1
    obtain ⟨entity, hentity, -⟩ := hresolve.declared i hrunning none key callAlias halone
    rw [resolveTarget_alias h] at hentity
    cases hentity
  · intro hnone
    exact ⟨fun i _ links key callAlias halone => absurd halone (hnone key callAlias),
      fun i _ links callAlias _ => ⟨_, resolveTarget_alias h i.handler links callAlias⟩⟩

end Sha256

/-! ## What one call does to the actors -/

/-- The image a call has fetched. -/
def HostCall.image? : HostCall → Option WasmActor
  | .reconcileActor _ _ (.ok image) _ _ => some image
  | _ => none

/-- Every actor after a reconcile was there before with its handler, or is the
one started with the fetched image. -/
theorem reconcileActor_images {host : Host} {name actorRef : String}
    {fetched : Except String WasmActor} {replica : Nat} {failAt : Option Nat} {ref : Ref}
    {m : String} {a : Actor}
    (ha : (host.reconcileActor name actorRef fetched replica failAt).1.actorAt ref m = some a) :
    (∃ old, host.actorAt ref m = some old ∧ old.Grown a) ∨
      ∃ image, fetched = .ok image ∧ image.claims = some a.handler.claims ∧ a.pool = image ∧
        ∀ i ∈ a.instances, i.handler = a.handler ∧ i.pool = a.pool := by
  rcases reconcileActor_cases host name actorRef fetched replica failAt with
    ⟨-, e, hrun⟩ | ⟨image, claims, rfl, hclaims, -, hrun⟩
  · rw [hrun] at ha
    exact .inl ⟨a, ha, .refl a⟩
  · rw [hrun] at ha
    rcases fillGroup_images hclaims _ name actorRef replica failAt ha with
      ⟨old, hold, hgrown⟩ | ⟨-, -, rfl⟩
    · rw [lookupGroup_actorAt, actorAt_congr (registerActorKey_frame _ _ _).2.2] at hold
      exact .inl ⟨old, hold, hgrown⟩
    · exact .inr ⟨image, rfl, hclaims, rfl, fun i hi => mem_freshInstances hi⟩

theorem removeActor_actorAt {host : Host} {name : String} {ref : Ref} {m : String} {a : Actor}
    (ha : (host.removeActor name).actorAt ref m = some a) : host.actorAt ref m = some a := by
  unfold Host.removeActor at ha
  split at ha
  · exact ha
  · exact removeFromGroup_actorAt _ _ _ ha

section Sha256

variable {sha256 : String → String} {latticePrefix : String} {host : Host}

/-- A call that is no reconcile starts no actor and changes none. -/
theorem serve_actorAt {call : HostCall}
    (hcall : ∀ name actorRef fetched replica failAt,
      call ≠ .reconcileActor name actorRef fetched replica failAt)
    {ref : Ref} {m : String} {a : Actor} (ha : (host.serve sha256 call).actorAt ref m = some a) :
    host.actorAt ref m = some a := by
  cases call with
  | reconcileActor name actorRef fetched replica failAt => exact absurd rfl (hcall _ _ _ _ _)
  | removeActor name => exact removeActor_actorAt ha
  | startProvider linkName providerRef fetched failure =>
    rwa [Host.serve, (startProvider_sameActors host linkName providerRef fetched failure).actorAt] at ha
  | stopProvider linkName key shutdown =>
    rwa [Host.serve, (stopProvider_sameActors host linkName key shutdown).actorAt] at ha
  | addLinkdef ld outcome =>
    rwa [Host.serve, (addLinkdef_sameActors sha256 host ld outcome).actorAt] at ha
  | deleteLinkdef ld outcome =>
    rwa [Host.serve, (deleteLinkdef_sameActors sha256 host ld outcome).actorAt] at ha
  | processExit pid => exact ha

theorem serve_images {call : HostCall} {ref : Ref} {m : String} {a : Actor}
    (ha : (host.serve sha256 call).actorAt ref m = some a) :
    (∃ old, host.actorAt ref m = some old ∧ old.Grown a) ∨
      ∃ image, call.image? = some image ∧ image.claims = some a.handler.claims ∧ a.pool = image ∧
        ∀ i ∈ a.instances, i.handler = a.handler ∧ i.pool = a.pool := by
  cases call with
  | reconcileActor name actorRef fetched replica failAt =>
    rcases reconcileActor_images ha with hold | ⟨image, rfl, hstarted⟩
    · exact .inl hold
    · exact .inr ⟨image, rfl, hstarted⟩
  | _ => exact .inl ⟨a, serve_actorAt (by simp) ha, .refl a⟩

/-- A call changes one actor at most. -/
theorem serve_others (hok : ActorsOk host) (call : HostCall) :
    ∃ group name, ∀ ref m a, ¬ (ref = group ∧ m = name) →
      (host.serve sha256 call).actorAt ref m = some a → host.actorAt ref m = some a := by
  cases call with
  | reconcileActor name actorRef fetched replica failAt =>
    obtain ⟨host', -, ⟨_, _, -, -, -, hrun, -, group, _, _, _, hresized, -⟩ |
      ⟨-, ⟨e, hrun⟩, hstrayed⟩⟩ := reconcileActor_spec hok name actorRef fetched replica failAt
    · refine ⟨group, name, fun ref m a hother ha => ?_⟩
      rwa [Host.serve, hrun, hresized.others ref m hother] at ha
    · refine ⟨0, name, fun ref m a _ ha => ?_⟩
      rwa [Host.serve, hrun, hstrayed.actorAt ref m] at ha
  | _ => exact ⟨0, "", fun ref m a _ ha => serve_actorAt (by simp) ha⟩

theorem ActorsOk.serve (h : ActorsOk host) (call : HostCall) :
    ActorsOk (host.serve sha256 call) := by
  cases call with
  | reconcileActor name actorRef fetched replica failAt =>
    obtain ⟨host', hok, ⟨_, _, -, -, -, hrun, -⟩ | ⟨-, ⟨e, hrun⟩, -⟩⟩ :=
      reconcileActor_spec h name actorRef fetched replica failAt
    · rw [Host.serve, hrun]
      exact hok
    · rw [Host.serve, hrun]
      exact hok
  | removeActor name => exact h.remove name
  | startProvider linkName providerRef fetched failure =>
    exact h.same (startProvider_sameActors host linkName providerRef fetched failure)
  | stopProvider linkName key shutdown =>
    exact h.same (stopProvider_sameActors host linkName key shutdown)
  | addLinkdef ld outcome => exact h.same (addLinkdef_sameActors sha256 host ld outcome)
  | deleteLinkdef ld outcome => exact h.same (deleteLinkdef_sameActors sha256 host ld outcome)
  | processExit pid => exact h.same (sameActors_of_eq rfl rfl rfl rfl le_rfl)

theorem InstancesUniform.serve (h : InstancesUniform host) (call : HostCall) :
    InstancesUniform (host.serve sha256 call) := by
  intro ref m a ha
  rcases serve_images ha with ⟨old, hold, hgrown⟩ | ⟨image, -, hclaims, rfl, hinstances⟩
  · obtain ⟨hpool, hinstances⟩ := h ref m old hold
    exact hgrown.uniform hpool hinstances
  · exact ⟨hclaims, hinstances⟩

/-- What the actor tables keep under the calls. -/
theorem actors_of_reachable (h : (apiMachine sha256 latticePrefix).Reachable host) :
    ActorsOk host ∧ InstancesUniform host := by
  refine h.invariant (I := fun host => ActorsOk host ∧ InstancesUniform host)
    ⟨actorsOk_new latticePrefix, ?_⟩ ?_
  · intro ref m a ha
    cases ha
  · rintro host call host' ⟨hok, huniform⟩ hs
    cases hs
    exact ⟨hok.serve call, huniform.serve call⟩

/-! ## Runs -/

theorem mem_instancesAt {ref : Ref} {m : String} {i : ActorInstance} :
    i ∈ host.instancesAt ref m ↔ ∃ a, host.actorAt ref m = some a ∧ i ∈ a.instances := by
  unfold Host.instancesAt
  cases host.actorAt ref m <;> simp

theorem noAliases_new (latticePrefix : String) : NoAliases (.new latticePrefix) := by
  rintro key callAlias ⟨i, ⟨ref, m, hi, -⟩, -⟩
  cases hi

/-- Without an alias before a call, whoever declares one after it is the actor
that the call has changed. -/
theorem declares_changed (hok : ActorsOk host) (hnone : NoAliases host) {call : HostCall}
    {group : Ref} {name : String}
    (hothers : ∀ ref m a, ¬ (ref = group ∧ m = name) →
      (host.serve sha256 call).actorAt ref m = some a → host.actorAt ref m = some a)
    {key callAlias : String} (h : (host.serve sha256 call).Declares key callAlias) :
    ∃ a i, (host.serve sha256 call).actorAt group name = some a ∧ i ∈ a.instances ∧
      i.handler.claims.subject = key := by
  obtain ⟨i, ⟨ref, m, hi, -⟩, hkey, halias⟩ := h
  obtain ⟨a, ha, hia⟩ := mem_instancesAt.mp hi
  by_cases hplace : ref = group ∧ m = name
  · obtain ⟨rfl, rfl⟩ := hplace
    exact ⟨a, i, ha, hia, hkey⟩
  · -- a recorded instance was running before
    have hbefore := mem_instancesAt.mpr ⟨a, hothers ref m a hplace ha, hia⟩
    have hloop : i.id ∈ host.loops := hok.alive ref m i.id (List.mem_map_of_mem hbefore)
    exact absurd ⟨i, ⟨ref, m, hbefore, hloop⟩, hkey, halias⟩ (hnone key callAlias)

/-- So the first alias in a run is declared by one actor alone. -/
theorem noAliases_step (hok : ActorsOk host) (huniform : InstancesUniform host)
    (hnone : NoAliases host) (call : HostCall)
    (halone : ∀ key callAlias, ¬ (host.serve sha256 call).DeclaresAlone key callAlias) :
    NoAliases (host.serve sha256 call) := by
  intro key callAlias hdeclares
  obtain ⟨group, name, hothers⟩ := @serve_others sha256 host hok call
  obtain ⟨a, i, ha, hi, hkey⟩ := declares_changed hok hnone hothers hdeclares
  refine halone key callAlias ⟨hdeclares, fun other hother => ?_⟩
  obtain ⟨a', i', ha', hi', hother⟩ := declares_changed hok hnone hothers hother
  cases ha.symm.trans ha'
  have hafter : InstancesUniform (host.serve sha256 call) := huniform.serve call
  have hsame := (hafter group name a ha).2
  rw [← hkey, ← hother, (hsame i hi).1, (hsame i' hi').1]

/-- All states of a run resolve the aliases declared in them exactly when none
is ever declared. -/
theorem aliasesResolve_always_iff {tr : List HostCall} :
    (apiMachine sha256 latticePrefix).RunWhen (fun host _ => AliasesResolve host) tr host ∧
        AliasesResolve host ↔
      (apiMachine sha256 latticePrefix).RunWhen (fun host _ => NoAliases host) tr host ∧
        NoAliases host := by
  have hright {s : Host} (hs : (apiMachine sha256 latticePrefix).Reachable s) (hnone : NoAliases s) :
      AliasesResolve s :=
    (aliasesResolve_iff hs).mpr fun key callAlias halone => hnone key callAlias halone.1
  constructor
  · rintro ⟨hrun, hend⟩
    induction hrun with
    | nil => exact ⟨.nil, noAliases_new latticePrefix⟩
    | snoc hrun hresolve hs ih =>
      obtain ⟨hbefore, hnone⟩ := ih hresolve
      have hreach := (hrun.snoc hresolve hs).reachable
      refine ⟨hbefore.snoc hnone hs, ?_⟩
      obtain ⟨hok, huniform⟩ := actors_of_reachable hrun.reachable
      cases hs
      exact noAliases_step hok huniform hnone _ ((aliasesResolve_iff hreach).mp hend)
  · rintro ⟨hrun, hend⟩
    refine ⟨?_, hright hrun.reachable hend⟩
    clear hend
    induction hrun with
    | nil => exact .nil
    | snoc hrun hnone hs ih => exact ih.snoc (hright hrun.reachable hnone) hs

/-- A call fetches no image that declares an alias. -/
def HostCall.FetchesNoAlias (call : HostCall) : Prop :=
  ∀ image claims, call.image? = some image → image.claims = some claims → claims.callAlias = none

/-- Handlers get their claims from the images, so in runs without an alias in
any image all states are right. -/
theorem aliasesResolve_of_images {tr : List HostCall}
    (h : (apiMachine sha256 latticePrefix).RunWhen (fun _ call => call.FetchesNoAlias) tr host) :
    AliasesResolve host := by
  have hplain : ∀ ref m a, host.actorAt ref m = some a → a.handler.claims.callAlias = none := by
    refine h.invariant (I := fun host => ∀ ref m a, host.actorAt ref m = some a →
      a.handler.claims.callAlias = none) ?_ ?_
    · intro ref m a ha
      cases ha
    · intro host call host' hplain hfetches hs ref m a ha
      cases hs
      rcases serve_images ha with ⟨old, hold, hgrown⟩ | ⟨image, himage, hclaims, -⟩
      · rw [hgrown.handler]
        exact hplain ref m old hold
      · exact hfetches image a.handler.claims himage hclaims
  obtain ⟨-, huniform⟩ := actors_of_reachable h.reachable
  refine (aliasesResolve_iff h.reachable).mpr fun key callAlias halone => ?_
  obtain ⟨i, ⟨ref, m, hi, -⟩, -, halias⟩ := halone.1
  obtain ⟨a, ha, hia⟩ := mem_instancesAt.mp hi
  rw [((huniform ref m a ha).2 i hia).1, hplain ref m a ha] at halias
  cases halias

end Sha256

/-! ## An actor with an alias -/

/-- The claims of an image that declares "greeter". -/
def greeterClaims : Jwt.Claims Jwt.Actor :=
  ⟨"A", "MGREETER", 0, none, none, some ⟨none, none, false, none, none, some "greeter"⟩⟩

def greeterCall : HostCall :=
  .reconcileActor "greeter" "greeter:v1" (.ok ⟨"greeter", some greeterClaims⟩) 1 none

def greeterHost : Host := (Host.new "default").serve id greeterCall

theorem greeterHost_claims {i : ActorInstance} (h : greeterHost.Running i) :
    i.handler.claims = greeterClaims := by
  obtain ⟨ref, m, hi, -⟩ := h
  obtain ⟨a, ha, hia⟩ := mem_instancesAt.mp hi
  rcases serve_images ha with ⟨old, hold, -⟩ | ⟨image, himage, hclaims, -, hinstances⟩
  · cases hold
  · cases himage
    rw [(hinstances i hia).1]
    exact (Option.some.inj hclaims).symm

/-- The call succeeds, and the actor runs, alone with its alias; it cannot be
called by it. -/
theorem greeter_not_resolved :
    ∃ host, (apiMachine id "default").Run [greeterCall] host ∧
      ((Host.new "default").reconcileActor "greeter" "greeter:v1"
        (.ok ⟨"greeter", some greeterClaims⟩) 1 none).2 = .ok greeterClaims ∧
      host.DeclaresAlone "MGREETER" "greeter" ∧
      (∀ handler links, resolveTarget (some (.actor (.alias "greeter"))) links
        (host.aliasesOf handler) = .error "unknown actor call alias") ∧
      ¬ AliasesResolve host := by
  have hrun : (apiMachine id "default").Run [greeterCall] greeterHost := Machine.run_of_exec rfl
  have halone : greeterHost.DeclaresAlone "MGREETER" "greeter" := by
    refine ⟨⟨_, ⟨0, "greeter", List.mem_singleton.mpr rfl, by decide⟩, rfl, rfl⟩, ?_⟩
    rintro other ⟨i, hrunning, hother, -⟩
    rw [← hother, greeterHost_claims hrunning]
    rfl
  refine ⟨greeterHost, hrun, rfl, halone, fun handler links => rfl, fun h => ?_⟩
  exact (aliasesResolve_iff ⟨_, hrun⟩).mp h _ _ halone

end KasmCloud
