/-
KasmCloud.Host.Frames — what each call of a host leaves alone.

Each kind of call writes its own fields of the host (`OnlyActors`,
`OnlyProviders`, `OnlyLinks`). So the link and provider calls keep the tables of
the actors and their call loops (`SameActors`), and the actor and link calls
keep the providers and their processes (`SameProviders`).
-/
import KasmCloud.Host.ActorRuns
import KasmCloud.Host.ProvidersTheorems

namespace KasmCloud

open Lib

/-! ## What the calls write -/

/-- From `host` to `host'` nothing changes but the tables of the actors and
their call loops. -/
def OnlyActors (host host' : Host) : Prop :=
  ∃ actorKeys actors groups targetTables loops nextId, host.nextId ≤ nextId ∧
    host' = { host with actorKeys, actors, groups, targetTables, loops, nextId }

/-- Nothing changes but the providers and their processes. -/
def OnlyProviders (host host' : Host) : Prop :=
  ∃ providers processes processEffects nextId, host.nextId ≤ nextId ∧
    host' = { host with providers, processes, processEffects, nextId }

/-- Nothing changes but the two tables of definitions and what is
published. -/
def OnlyLinks (host host' : Host) : Prop :=
  ∃ links groups published, host' = { host with links, groups, published }

theorem OnlyActors.refl (host : Host) : OnlyActors host host :=
  ⟨_, _, _, _, _, _, le_rfl, rfl⟩

theorem OnlyActors.trans {host host₁ host₂ : Host} (h : OnlyActors host host₁)
    (h' : OnlyActors host₁ host₂) : OnlyActors host host₂ := by
  obtain ⟨_, _, _, _, _, _, hle, rfl⟩ := h
  obtain ⟨_, _, _, _, _, _, hle', rfl⟩ := h'
  exact ⟨_, _, _, _, _, _, hle.trans hle', rfl⟩

theorem OnlyProviders.refl (host : Host) : OnlyProviders host host :=
  ⟨_, _, _, _, le_rfl, rfl⟩

theorem OnlyProviders.trans {host host₁ host₂ : Host} (h : OnlyProviders host host₁)
    (h' : OnlyProviders host₁ host₂) : OnlyProviders host host₂ := by
  obtain ⟨_, _, _, _, hle, rfl⟩ := h
  obtain ⟨_, _, _, _, hle', rfl⟩ := h'
  exact ⟨_, _, _, _, hle.trans hle', rfl⟩

theorem OnlyLinks.refl (host : Host) : OnlyLinks host host :=
  ⟨_, _, _, rfl⟩

/-! ### Actor calls -/

theorem fillGroup_onlyActors (host : Host) {actor : WasmActor} {claims : Jwt.Claims Jwt.Actor}
    (hclaims : actor.claims = some claims) (group : Ref) (name actorRef : String) (replica : Nat)
    (failAt : Option Nat) :
    OnlyActors host (host.fillGroup group name actor actorRef replica failAt).1 := by
  cases h : host.groups.get? group with
  | none =>
    simp only [Host.fillGroup, h]
    exact .refl host
  | some g =>
    rcases fillGroup_cases h hclaims name actorRef replica failAt with
      ⟨hr, -⟩ | ⟨-, -, hr⟩ | ⟨a, -, -, hr⟩ | ⟨a, -, -, hr⟩ | ⟨k, -, host₀, e, rfl | rfl, hr⟩ <;>
      rw [hr]
    · exact .refl host
    · exact ⟨_, _, _, _, _, _, Nat.le_add_right _ _, rfl⟩
    · exact ⟨_, _, _, _, _, _, Nat.le_add_right _ _, rfl⟩
    · exact ⟨_, _, _, _, _, _, le_rfl, rfl⟩
    · exact ⟨_, _, _, _, _, _, Nat.le_add_right _ _, rfl⟩
    · exact ⟨_, _, _, _, _, _, Nat.le_add_right _ _, rfl⟩

theorem reconcileActor_onlyActors (host : Host) (name actorRef : String)
    (fetched : Except String WasmActor) (replica : Nat) (failAt : Option Nat) :
    OnlyActors host (host.reconcileActor name actorRef fetched replica failAt).1 := by
  rcases reconcileActor_cases host name actorRef fetched replica failAt with
    ⟨-, e, hrun⟩ | ⟨image, claims, rfl, hclaims, -, hrun⟩
  · rw [hrun]
    exact .refl host
  · rw [hrun]
    have hregistered : OnlyActors host (host.registerActorKey name claims.subject) := by
      unfold Host.registerActorKey
      split <;> exact ⟨_, _, _, _, _, _, le_rfl, rfl⟩
    have hlooked : OnlyActors host
        ((host.registerActorKey name claims.subject).lookupGroup claims.subject).2 := by
      refine hregistered.trans ?_
      unfold Host.lookupGroup
      split <;> exact ⟨_, _, _, _, _, _, le_rfl, rfl⟩
    exact hlooked.trans (fillGroup_onlyActors _ hclaims _ name actorRef replica failAt)

theorem removeActor_onlyActors (host : Host) (name : String) :
    OnlyActors host (host.removeActor name) := by
  unfold Host.removeActor
  split
  · exact .refl host
  · rename_i key _
    have hremoved : OnlyActors host (host.removeFromGroup key name) := by
      unfold Host.removeFromGroup
      split
      · exact .refl host
      · split
        · exact .refl host
        · dsimp only
          split <;> split <;> exact ⟨_, _, _, _, _, _, le_rfl, rfl⟩
    exact hremoved.trans ⟨_, _, _, _, _, _, le_rfl, rfl⟩

/-! ### Provider calls -/

theorem runProvider_onlyProviders (host : Host) (path : String) (data : HostData)
    (failure : Option StartFailure) :
    OnlyProviders host (host.runProvider path data failure).1 := by
  cases failure with
  | none => exact ⟨_, _, _, _, Nat.le_succ _, rfl⟩
  | some f =>
    cases hspawned : f.spawned with
    | false =>
      simp only [Host.runProvider, hspawned]
      exact .refl host
    | true =>
      simp only [Host.runProvider, hspawned, if_true]
      cases f.written <;> exact ⟨_, _, _, _, Nat.le_succ _, rfl⟩

theorem launchProvider_onlyProviders (host : Host) (provider : Provider) (linkName : String)
    (image : ProviderImage) (failure : Option StartFailure) :
    OnlyProviders host (host.launchProvider provider linkName image failure).1 := by
  have htaken : OnlyProviders host host.takeId.2 := ⟨_, _, _, _, Nat.le_succ _, rfl⟩
  have hrun := runProvider_onlyProviders host.takeId.2 image.path
    ⟨linkName, host.takeId.1, image.claims.subject,
      host.takeId.2.providerLinks image.claims.subject linkName⟩ failure
  unfold Host.launchProvider
  dsimp only
  split
  · rename_i host' child hresult
    rw [hresult] at hrun
    exact (htaken.trans hrun).trans ⟨_, _, _, _, le_rfl, rfl⟩
  · rename_i host' e hresult
    rw [hresult] at hrun
    exact htaken.trans hrun

theorem startProvider_onlyProviders (host : Host) (linkName providerRef : String)
    (fetched : Except String ProviderImage) (failure : Option StartFailure) :
    OnlyProviders host (host.startProvider linkName providerRef fetched failure).1 := by
  cases fetched with
  | error e => exact .refl host
  | ok image =>
    have hentered : OnlyProviders host (host.enterProvider image.claims providerRef).2 := by
      unfold Host.enterProvider
      split <;> exact ⟨_, _, _, _, le_rfl, rfl⟩
    simp only [Host.startProvider]
    split
    · exact hentered
    · exact hentered.trans (launchProvider_onlyProviders _ _ _ _ _)

theorem stopProvider_onlyProviders (host : Host) (linkName key : String)
    (shutdown : ShutdownOutcome) :
    OnlyProviders host (host.stopProvider linkName key shutdown) := by
  unfold Host.stopProvider
  cases host.providers.lookup key with
  | none => exact .refl host
  | some provider =>
    dsimp only
    cases provider.instances.lookup linkName with
    | none => exact ⟨_, _, _, _, le_rfl, rfl⟩
    | some found => cases shutdown <;> exact ⟨_, _, _, _, le_rfl, rfl⟩

/-! ### Link calls -/

section Sha256

variable (sha256 : String → String)

theorem addLinkdef_onlyLinks (host : Host) (ld : LinkDefinition) (outcome : PublishOutcome) :
    OnlyLinks host (host.addLinkdef sha256 ld outcome).1 := by
  unfold Host.addLinkdef Host.addLinkdefInsert
  cases host.links.lookup (ld.hash sha256) with
  | some found => exact .refl host
  | none => cases outcome <;> exact ⟨_, _, _, rfl⟩

theorem deleteLinkdef_onlyLinks (host : Host) (ld : LinkDefinition) (outcome : PublishOutcome) :
    OnlyLinks host (host.deleteLinkdef sha256 ld outcome).1 := by
  unfold Host.deleteLinkdef Host.deleteLinkdefRemove
  cases host.links.lookup (ld.hash sha256) with
  | some found => cases outcome <;> exact ⟨_, _, _, rfl⟩
  | none => exact .refl host

end Sha256

/-! ## The link and provider calls leave the actors alone -/

theorem onGroupLinks_sameActors (host : Host) (actorId : String) (f : LinkTable → LinkTable) :
    SameActors host (host.onGroupLinks actorId f) where
  actors := rfl
  actorKeys := rfl
  cells ref g hg := by
    cases hreg : host.actors.lookup actorId with
    | none => exact ⟨g, by simp only [Host.onGroupLinks, hreg, hg]⟩
    | some found =>
      by_cases heq : ref = found
      · subst heq
        exact ⟨{ g with links := f g.links }, by simp [Host.onGroupLinks, hreg, Heap.get?_modify, hg]⟩
      · exact ⟨g, by simp [Host.onGroupLinks, hreg, Heap.get?_modify, heq, hg]⟩
  actorAt := onGroupLinks_actorAt host actorId f
  loops := rfl
  nextId := le_rfl

theorem publishLinkdef_sameActors (host : Host) (m : LinkdefMessage) (outcome : PublishOutcome) :
    SameActors host (host.publishLinkdef m outcome).1 := by
  cases outcome <;> exact sameActors_of_eq rfl rfl rfl rfl le_rfl

section Sha256

variable (sha256 : String → String)

theorem addLinkdef_sameActors (host : Host) (ld : LinkDefinition) (outcome : PublishOutcome) :
    SameActors host (host.addLinkdef sha256 ld outcome).1 := by
  unfold Host.addLinkdef Host.addLinkdefInsert
  cases host.links.lookup (ld.hash sha256) with
  | some found => exact .refl host
  | none =>
    have hstored : SameActors host { host with links := host.links.insert (ld.hash sha256) ld } :=
      sameActors_of_eq rfl rfl rfl rfl le_rfl
    exact (hstored.trans (onGroupLinks_sameActors _ _ _)).trans (publishLinkdef_sameActors _ _ _)

theorem deleteLinkdef_sameActors (host : Host) (ld : LinkDefinition) (outcome : PublishOutcome) :
    SameActors host (host.deleteLinkdef sha256 ld outcome).1 := by
  unfold Host.deleteLinkdef Host.deleteLinkdefRemove
  cases host.links.lookup (ld.hash sha256) with
  | none => exact .refl host
  | some found =>
    have herased : SameActors host { host with links := host.links.erase (ld.hash sha256) } :=
      sameActors_of_eq rfl rfl rfl rfl le_rfl
    exact (herased.trans (onGroupLinks_sameActors _ _ _)).trans (publishLinkdef_sameActors _ _ _)

end Sha256

theorem OnlyProviders.sameActors {host host' : Host} (h : OnlyProviders host host') :
    SameActors host host' := by
  obtain ⟨_, _, _, _, hle, rfl⟩ := h
  exact sameActors_of_eq rfl rfl rfl rfl hle

theorem startProvider_sameActors (host : Host) (linkName providerRef : String)
    (fetched : Except String ProviderImage) (failure : Option StartFailure) :
    SameActors host (host.startProvider linkName providerRef fetched failure).1 :=
  (startProvider_onlyProviders host linkName providerRef fetched failure).sameActors

theorem stopProvider_sameActors (host : Host) (linkName key : String)
    (shutdown : ShutdownOutcome) :
    SameActors host (host.stopProvider linkName key shutdown) :=
  (stopProvider_onlyProviders host linkName key shutdown).sameActors

/-! ## The actor and link calls leave the providers alone -/

/-- The table of the providers and the processes are as before. -/
structure SameProviders (host host' : Host) : Prop where
  providers : host'.providers = host.providers
  processes : host'.processes = host.processes
  nextId : host.nextId ≤ host'.nextId

theorem SameProviders.unchanged {host host' : Host} (h : SameProviders host host') :
    Unchanged host host' :=
  ⟨fun key linkName => instance?_congr h.providers key linkName, h.processes, h.nextId⟩

theorem OnlyActors.sameProviders {host host' : Host} (h : OnlyActors host host') :
    SameProviders host host' := by
  obtain ⟨_, _, _, _, _, _, hle, rfl⟩ := h
  exact ⟨rfl, rfl, hle⟩

theorem OnlyLinks.sameProviders {host host' : Host} (h : OnlyLinks host host') :
    SameProviders host host' := by
  obtain ⟨_, _, _, rfl⟩ := h
  exact ⟨rfl, rfl, le_rfl⟩

theorem reconcileActor_sameProviders (host : Host) (name actorRef : String)
    (fetched : Except String WasmActor) (replica : Nat) (failAt : Option Nat) :
    SameProviders host (host.reconcileActor name actorRef fetched replica failAt).1 :=
  (reconcileActor_onlyActors host name actorRef fetched replica failAt).sameProviders

theorem removeActor_sameProviders (host : Host) (name : String) :
    SameProviders host (host.removeActor name) :=
  (removeActor_onlyActors host name).sameProviders

section Sha256

variable (sha256 : String → String)

theorem addLinkdef_sameProviders (host : Host) (ld : LinkDefinition) (outcome : PublishOutcome) :
    SameProviders host (host.addLinkdef sha256 ld outcome).1 :=
  (addLinkdef_onlyLinks sha256 host ld outcome).sameProviders

theorem deleteLinkdef_sameProviders (host : Host) (ld : LinkDefinition) (outcome : PublishOutcome) :
    SameProviders host (host.deleteLinkdef sha256 ld outcome).1 :=
  (deleteLinkdef_onlyLinks sha256 host ld outcome).sameProviders

end Sha256

end KasmCloud
