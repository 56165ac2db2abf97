/-
KasmCloud.Controller.WorldTheorems — what the steps of a world do to the
provider instances.

The first lemmas say what each step writes. The Actor and Link controllers
leave the instances alone (`step_other`), and `ProvidersOk` holds of every
reachable world.
-/
import KasmCloud.Controller.World
import KasmCloud.Controller.LinksTheorems
import KasmCloud.Host.Frames

namespace KasmCloud

open Lib V1alpha1

/-! ## The other controllers leave the providers alone -/

section Sha256

variable (sha256 : String → String)

theorem addLink_unchanged (ctx : Ctx) (cluster : Cluster) (link : Link) (publish : PublishOutcome) :
    Unchanged ctx.host (addLink sha256 ctx cluster link publish).ctx.host := by
  rcases addLink_host sha256 ctx cluster link publish with h | ⟨ld, h⟩
  · rw [h]
    exact .refl ctx.host
  · rw [h]
    exact (addLinkdef_sameProviders sha256 ctx.host ld publish).unchanged

theorem deleteLink_unchanged (ctx : Ctx) (link : Link) (publish : PublishOutcome) :
    Unchanged ctx.host (deleteLink sha256 ctx link publish).2.host := by
  rcases deleteLink_host sha256 ctx link publish with h | ⟨ld, h⟩
  · rw [h]
    exact .refl ctx.host
  · rw [h]
    exact (deleteLinkdef_sameProviders sha256 ctx.host ld publish).unchanged

/-! ## Steps -/

/-- The steps that look at the Provider objects or their processes. -/
def WorldStep.onProviders : WorldStep → Bool
  | .applyProvider .. | .reconcileProvider .. | .deleteProvider .. | .processExit _ => true
  | _ => false

variable {sha256} {w w' : World}

/-- An admitted Actor has a count of replicas; its object is all that the
step writes. -/
theorem step_applyActor {name : String} {spec : ActorSpec}
    (h : w.step sha256 (.applyActor name spec) = some w') :
    0 ≤ spec.replicas.toInt ∧
      ∃ actor : V1alpha1.Actor, actor.spec = spec ∧
        w' = { w with actors := w.actors.insert name actor } := by
  simp only [World.step, World.applyActor] at h
  split at h
  · cases h
  · rename_i hreplicas
    have hnonneg : 0 ≤ spec.replicas.toInt := by omega
    split at h
    · cases h
      exact ⟨hnonneg, _, rfl, rfl⟩
    · split at h
      · cases h
        exact ⟨hnonneg, _, rfl, rfl⟩
      · cases h

/-- An admitted Link is a valid one. -/
theorem step_applyLink {name : String} {spec : LinkSpec}
    (h : w.step sha256 (.applyLink name spec) = some w') :
    ∃ link : Link, link.validate = [] ∧ w' = { w with links := w.links.insert name link } := by
  simp only [World.step, World.applyLink] at h
  split at h <;> split at h
  · rename_i hvalid
    cases h
    exact ⟨_, hvalid, rfl⟩
  · cases h
  · rename_i old _ hvalid
    cases h
    refine ⟨_, ?_, rfl⟩
    unfold Link.validateUpdate at hvalid
    split at hvalid
    · cases hvalid
    · exact hvalid
  · cases h

/-- A Provider is created without a status; an update leaves its host and
its link as they are. -/
theorem step_applyProvider {name : String} {spec : ProviderSpec}
    (h : w.step sha256 (.applyProvider name spec) = some w') :
    ∃ provider, w' = { w with providers := w.providers.insert name provider } ∧
      (w.providers.lookup name = none ∧ provider = ⟨name, spec, none⟩ ∨
        ∃ old, w.providers.lookup name = some old ∧ spec.host = old.spec.host ∧
          spec.link = old.spec.link ∧ provider = { old with spec }) := by
  simp only [World.step, World.applyProvider] at h
  split at h
  · rename_i hnew
    cases h
    exact ⟨_, rfl, .inl ⟨hnew, rfl⟩⟩
  · rename_i old hold
    split at h
    · rename_i hadmitted
      cases h
      rw [V1alpha1.Provider.validateUpdate, List.append_eq_nil_iff, immutable_eq_nil,
        immutable_eq_nil] at hadmitted
      exact ⟨_, rfl, .inr ⟨old, hold, hadmitted.1, hadmitted.2, rfl⟩⟩
    · cases h

theorem step_other {l : WorldStep} (hother : l.onProviders = false)
    (h : w.step sha256 l = some w') : Unchanged w.host w'.host ∧ w'.providers = w.providers := by
  cases l with
  | applyActor name spec =>
    obtain ⟨-, actor, -, rfl⟩ := step_applyActor h
    exact ⟨.refl _, rfl⟩
  | applyLink name spec =>
    obtain ⟨link, -, rfl⟩ := step_applyLink h
    exact ⟨.refl _, rfl⟩
  | reconcileActor name fetched failAt patched =>
    obtain ⟨actor, -, rfl⟩ := Option.map_eq_some_iff.mp h
    refine ⟨?_, rfl⟩
    show Unchanged w.host (reconcileActor w.host actor fetched failAt).host
    rw [reconcileActor_host]
    exact (reconcileActor_sameProviders w.host actor.name actor.spec.image fetched
      (asUsize actor.spec.replicas) failAt).unchanged
  | deleteActor name =>
    obtain ⟨actor, -, rfl⟩ := Option.map_eq_some_iff.mp h
    exact ⟨(removeActor_sameProviders w.host actor.name).unchanged, rfl⟩
  | addLink name cluster publish patched =>
    obtain ⟨link, -, rfl⟩ := Option.map_eq_some_iff.mp h
    exact ⟨addLink_unchanged sha256 w.ctx cluster link publish, rfl⟩
  | deleteLink name publish =>
    obtain ⟨link, -, rfl⟩ := Option.map_eq_some_iff.mp h
    exact ⟨deleteLink_unchanged sha256 w.ctx link publish, rfl⟩
  | applyProvider name spec => cases hother
  | reconcileProvider name fetched failure patched => cases hother
  | deleteProvider name shutdown => cases hother
  | processExit pid => cases hother

/-- What a run of `reconcile_provider` can do: nothing, or launch the missing
instance; a start that returned `Ok` asks for its status. -/
theorem reconcileProvider_cases {host : Host} (hused : ∀ pid ∈ host.processes, pid < host.nextId)
    (g : V1alpha1.Provider) (fetched : Except String ProviderImage)
    (failure : Option StartFailure) :
    (∃ e, fetched = .error e ∧ (reconcileProvider host g fetched failure).patch = none ∧
        Unchanged host (reconcileProvider host g fetched failure).host) ∨
      ∃ image, fetched = .ok image ∧
        (host.instance? image.claims.subject g.spec.link = none ∧ failure ≠ none ∧
            (reconcileProvider host g fetched failure).patch = none ∧
            Unchanged host (reconcileProvider host g fetched failure).host ∨
          (reconcileProvider host g fetched failure).patch =
              (if g.status = some (providerStatus image.claims) then none
                else some (providerStatus image.claims)) ∧
            ((∃ i, host.instance? image.claims.subject g.spec.link = some i) ∧
                Unchanged host (reconcileProvider host g fetched failure).host ∨
              host.instance? image.claims.subject g.spec.link = none ∧ failure = none ∧
                ∃ i, i.child = host.nextId + 1 ∧
                  Launched host (reconcileProvider host g fetched failure).host
                    image.claims.subject g.spec.link i)) := by
  have hstart := startProvider_cases host g.spec.link g.spec.image hused fetched failure
  unfold reconcileProvider
  generalize host.startProvider g.spec.link g.spec.image fetched failure = start at hstart ⊢
  obtain ⟨host', result⟩ := start
  dsimp only at hstart ⊢
  rcases hstart with ⟨e, rfl, rfl, hsame⟩ | ⟨image, rfl, ⟨i, hat, rfl, hsame⟩ |
    ⟨hat, ⟨f, rfl, rfl, hsame⟩ | ⟨rfl, rfl, i, hchild, hnew⟩⟩⟩
  · exact .inl ⟨e, rfl, rfl, hsame⟩
  · refine .inr ⟨image, rfl, .inr ?_⟩
    dsimp only
    split
    · exact ⟨rfl, .inl ⟨⟨i, hat⟩, hsame⟩⟩
    · exact ⟨rfl, .inl ⟨⟨i, hat⟩, hsame⟩⟩
  · exact .inr ⟨image, rfl, .inl ⟨hat, by simp, rfl, hsame⟩⟩
  · refine .inr ⟨image, rfl, .inr ?_⟩
    dsimp only
    split
    · exact ⟨rfl, .inr ⟨hat, rfl, i, hchild, hnew⟩⟩
    · exact ⟨rfl, .inr ⟨hat, rfl, i, hchild, hnew⟩⟩

/-- Asking for a status that is stored already changes nothing. -/
theorem patchStatus_unless {α : Type} [DecidableEq α] (old : Option α) (status : α)
    (patched : Bool) :
    patchStatus old (if old = some status then none else some status) patched =
      if patched then some status else old := by
  by_cases h : old = some status
  · subst h
    cases patched <;> simp [patchStatus]
  · simp [patchStatus, h]

theorem step_reconcileProvider {name : String} {fetched : Except String ProviderImage}
    {failure : Option StartFailure} {patched : Bool}
    (h : w.step sha256 (.reconcileProvider name fetched failure patched) = some w') :
    ∃ g, w.providers.lookup name = some g ∧
      w'.host = (reconcileProvider w.host g fetched failure).host ∧
      w'.providers = w.providers.insert name
        { g with
          status := patchStatus g.status (reconcileProvider w.host g fetched failure).patch
            patched } := by
  obtain ⟨g, hg, rfl⟩ := Option.map_eq_some_iff.mp h
  exact ⟨g, hg, rfl, rfl⟩

/-- A run of `delete_provider` stops the instance that the stored status
names, and the object is gone. -/
theorem step_deleteProvider {name : String} {shutdown : ShutdownOutcome}
    (h : w.step sha256 (.deleteProvider name shutdown) = some w') :
    ∃ g, w.providers.lookup name = some g ∧ w'.providers = w.providers.erase name ∧
      ((∀ status, g.status = some status → status.publicKey = "") ∧ w'.host = w.host ∨
        ∃ status, g.status = some status ∧ status.publicKey ≠ "" ∧
          Halted w.host w'.host status.publicKey g.spec.link) := by
  obtain ⟨g, hg, rfl⟩ := Option.map_eq_some_iff.mp h
  refine ⟨g, hg, rfl, ?_⟩
  cases hstatus : g.status with
  | none =>
    have hhost : (deleteProvider w.host g shutdown).2 = w.host := by
      simp [deleteProvider, hstatus]
    exact .inl ⟨(fun _ h => nomatch h), hhost⟩
  | some status =>
    by_cases hempty : status.publicKey = ""
    · have hhost : (deleteProvider w.host g shutdown).2 = w.host := by
        simp [deleteProvider, hstatus, hempty]
      refine .inl ⟨fun s hs => ?_, hhost⟩
      cases hs
      exact hempty
    · have hhost : (deleteProvider w.host g shutdown).2 =
          w.host.stopProvider g.spec.link status.publicKey shutdown := by
        simp [deleteProvider, hstatus, hempty]
      refine .inr ⟨status, rfl, hempty, ?_⟩
      show Halted w.host (deleteProvider w.host g shutdown).2 _ _
      rw [hhost]
      exact stopProvider_halted _ _ _ _

/-! ## Reachable worlds -/

theorem providersOk_step {l : WorldStep} (hok : ProvidersOk w.host)
    (h : w.step sha256 l = some w') : ProvidersOk w'.host := by
  cases hl : l.onProviders with
  | false => exact hok.unchanged (step_other hl h).1
  | true =>
    cases l with
    | applyProvider name spec =>
      obtain ⟨provider, rfl, -⟩ := step_applyProvider h
      exact hok
    | reconcileProvider name fetched failure patched =>
      obtain ⟨g, -, hhost, -⟩ := step_reconcileProvider h
      rw [hhost]
      rcases reconcileProvider_cases hok.used g fetched failure with
        ⟨-, -, -, hsame⟩ | ⟨image, -, ⟨-, -, -, hsame⟩ | ⟨-, ⟨-, hsame⟩ | ⟨-, -, i, -, hnew⟩⟩⟩
      · exact hok.unchanged hsame
      · exact hok.unchanged hsame
      · exact hok.unchanged hsame
      · exact hok.launched hnew
    | deleteProvider name shutdown =>
      obtain ⟨g, -, -, ⟨-, hhost⟩ | ⟨status, -, -, hgone⟩⟩ := step_deleteProvider h
      · rw [hhost]
        exact hok
      · exact hok.halted hgone
    | processExit pid =>
      cases h
      exact ⟨fun p hp => hok.used p (Finset.mem_of_mem_erase hp), hok.recorded, hok.distinct⟩
    | applyActor | applyLink | reconcileActor | deleteActor | addLink | deleteLink => cases hl

theorem providersOk_of_reachable {latticePrefix : String}
    (h : (worldMachine sha256 latticePrefix).Reachable w) : ProvidersOk w.host := by
  exact h.invariant (I := fun w => ProvidersOk w.host) (providersOk_new latticePrefix)
    fun w l w' => providersOk_step

end Sha256

end KasmCloud
