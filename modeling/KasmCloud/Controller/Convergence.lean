/-
KasmCloud.Controller.Convergence — what a reconcile that returns
`await_change` has reached.

The runs come one after the other. `World.Converged` compares the world after
a run with the object as the run read it. `World.Converges` is about the world
before the run and what its surroundings answer, and `await_converged_iff`
says that a run that returns `await_change` has converged exactly then: the
three reconcilers return it after most failures too.
-/
import KasmCloud.Controller.WorldActors
import KasmCloud.Controller.Resolution

namespace KasmCloud

open Lib V1alpha1

/-! ## The runs -/

/-- A fetch of an image: the image in the registry, or an error. -/
def fetched {α : Type} (image : α) (fetchFails : Bool) : Except String α :=
  if fetchFails then .error "failed to fetch" else .ok image

/-- A run of one of the three reconcilers, with the image its spec names and
everything that can fail on the way. -/
inductive ReconcileRun where
  | actor (name : String) (image : WasmActor) (fetchFails : Bool) (failAt : Option Nat)
      (patched : Bool)
  | link (name : String) (cluster : Cluster) (publish : PublishOutcome) (patched : Bool)
  | provider (name : String) (image : ProviderImage) (fetchFails : Bool)
      (failure : Option StartFailure) (patched : Bool)

def ReconcileRun.step : ReconcileRun → WorldStep
  | .actor name image fetchFails failAt patched =>
    .reconcileActor name (fetched image fetchFails) failAt patched
  | .link name cluster publish patched => .addLink name cluster publish patched
  | .provider name image fetchFails failure patched =>
    .reconcileProvider name (fetched image fetchFails) failure patched

/-- A run for an object that is consistent with the objects it names. -/
def World.Consistent (w : World) : ReconcileRun → Prop
  | .link name cluster .. => ∀ link, w.links.lookup name = some link →
    cluster.ConsistentWith link.spec
  | _ => True

/-! ## Desired states -/

def World.actorStatus? (w : World) (name : String) : Option ActorStatus :=
  (w.actors.lookup name).bind (·.status)

def World.linkStatus? (w : World) (name : String) : Option LinkStatus :=
  (w.links.lookup name).bind (·.status)

def World.providerStatus? (w : World) (name : String) : Option ProviderStatus :=
  (w.providers.lookup name).bind (·.status)

/-- The call loops that run for an actor. -/
def World.loopsOf (w : World) (name : String) : Finset Ulid :=
  w.startedBy name ∩ w.host.loops

/-- The ids of the instances recorded for an actor. -/
def World.recordedIds (w : World) (name : String) : Finset Ulid :=
  ((w.host.recordedUnder name).map ActorInstance.id).toFinset

/-- Exactly `n` instances run for an actor: that many are recorded, and the
loops that run for it are theirs. -/
def World.Runs (w : World) (name : String) (n : Int) : Prop :=
  ((w.host.recordedUnder name).length : Int) = n ∧ w.loopsOf name = w.recordedIds name

section Sha256

variable (sha256 : String → String)

/-- A definition is installed for a Link, and its announcement is the last
one of its triple. -/
structure Ctx.InstalledFor (ctx : Ctx) (name : String) (ld : LinkDefinition) : Prop where
  counted : ∃ found names, ctx.links.lookup ld.id = some (found, names) ∧ name ∈ names
  stored : ctx.host.links.lookup (ld.hash sha256) = some ld
  published : announced ctx.host.published ld.triple = some ld

/-- What a run returns. -/
def World.action? (w : World) : ReconcileRun → Option Action
  | .actor name image fetchFails failAt _ =>
    (w.actors.lookup name).map fun actor =>
      (reconcileActor w.host actor (fetched image fetchFails) failAt).action
  | .link name cluster publish _ =>
    (w.links.lookup name).map fun link => (addLink sha256 w.ctx cluster link publish).action
  | .provider name image fetchFails failure _ =>
    (w.providers.lookup name).map fun g =>
      (reconcileProvider w.host g (fetched image fetchFails) failure).action

/-- The desired state of the object that the run read in `w` holds in `w'`,
and the status stored there is the one computed for it. -/
def World.Converged (w w' : World) : ReconcileRun → Prop
  | .actor name image .. => ∃ actor claims, w.actors.lookup name = some actor ∧
    image.claims = some claims ∧ w'.Runs actor.name actor.spec.replicas.toInt ∧
      w'.actorStatus? name = some (actorStatus claims actor.spec.replicas)
  | .link name cluster .. => ∃ link ld, w.links.lookup name = some link ∧
    linkDefinition cluster link = .ok ld ∧ w'.ctx.InstalledFor sha256 link.name ld ∧
      w'.linkStatus? name = some ld.status
  | .provider name image .. => ∃ g i, w.providers.lookup name = some g ∧
    w'.host.instance? image.claims.subject g.spec.link = some i ∧ i.child ∈ w'.host.processes ∧
      w'.providerStatus? name = some (providerStatus image.claims)

/-! ## When a run converges -/

/-- No call loop of the actor runs that is not a recorded instance's, and either
enough is started and the status gets stored, or both were so before. -/
def World.ActorConverges (w : World) (actor : V1alpha1.Actor) (image : WasmActor)
    (fetchFails : Bool) (failAt : Option Nat) (patched : Bool) : Prop :=
  ∃ claims, image.claims = some claims ∧
    let starts := fetchFails = false ∧
      w.host.ActorStarts actor.name claims (asUsize actor.spec.replicas) failAt
    w.loopsOf actor.name ⊆ w.recordedIds actor.name ∧
      (starts ∨
        ((w.host.recordedUnder actor.name).length : Int) = actor.spec.replicas.toInt) ∧
      (actor.status = some (actorStatus claims actor.spec.replicas) ∨ starts ∧ patched = true)

/-- The early exit is only right where everything was done before. Otherwise
the definition is new in both tables and gets published, or it was stored
and announced before; and the status gets stored, or was. -/
def World.LinkConverges (w : World) (link : Link) (cluster : Cluster) (publish : PublishOutcome)
    (patched : Bool) : Prop :=
  if link.spec.linkName = "" ∧ link.spec.provider.key ≠ "" then
    ∃ ld, linkDefinition cluster link = .ok ld ∧ w.ctx.InstalledFor sha256 link.name ld ∧
      link.status = some ld.status
  else
    ∀ ld, linkDefinition cluster link = .ok ld →
      (w.ctx.links.lookup ld.id = none ∧ w.host.links.lookup (ld.hash sha256) = none ∧
          publish = .sent ∨
        w.host.links.lookup (ld.hash sha256) = some ld ∧
          announced w.host.published ld.triple = some ld) ∧
      (link.status = some ld.status ∨ patched = true)

/-- An instance that is recorded has its process, or a start goes through;
and the status gets stored, or was. -/
def World.ProviderConverges (w : World) (g : V1alpha1.Provider) (image : ProviderImage)
    (fetchFails : Bool) (failure : Option StartFailure) (patched : Bool) : Prop :=
  let found := w.host.instance? image.claims.subject g.spec.link
  ((∃ i, found = some i ∧ i.child ∈ w.host.processes) ∨
      fetchFails = false ∧ found = none ∧ failure = none) ∧
    (g.status = some (providerStatus image.claims) ∨
      fetchFails = false ∧ (found ≠ none ∨ failure = none) ∧ patched = true)

def World.Converges (w : World) : ReconcileRun → Prop
  | .actor name image fetchFails failAt patched => ∀ actor, w.actors.lookup name = some actor →
    w.ActorConverges actor image fetchFails failAt patched
  | .link name cluster publish patched => ∀ link, w.links.lookup name = some link →
    w.LinkConverges sha256 link cluster publish patched
  | .provider name image fetchFails failure patched => ∀ g, w.providers.lookup name = some g →
    w.ProviderConverges g image fetchFails failure patched

variable {sha256} {w w' : World}

/-! ## Actors -/

theorem fetched_eq_ok {α : Type} {image image' : α} {fetchFails : Bool} :
    fetched image fetchFails = .ok image' ↔ fetchFails = false ∧ image = image' := by
  cases fetchFails <;> simp [fetched]

theorem mem_recordedIds {name : String} {id : Nat} :
    id ∈ w.recordedIds name ↔ id ∈ (w.host.recordedUnder name).map ActorInstance.id := by
  rw [World.recordedIds, List.mem_toFinset]

/-- The loops of the recorded instances run. -/
theorem ActorsTracked.recordedIds_subset (h : ActorsTracked w) (name : String) :
    w.recordedIds name ⊆ w.loopsOf name := by
  intro id hid
  obtain ⟨ref, hat⟩ := mem_idsAt_of_recorded (mem_recordedIds.mp hid)
  exact Finset.mem_inter.mpr ⟨h.started ref name id hat, h.ok.alive ref name id hat⟩

/-- A run that got its instances leaves a stray loop exactly if there was one
before. -/
theorem loopsOf_filled (h : ActorsTracked w) (h' : ActorsTracked w') {name : String} {replica : Nat}
    (hstarted : w'.startedBy name = w.startedBy name ∪ (w'.host.loops \ w.host.loops))
    (hfilled : Filled w.host w'.host name replica) :
    w'.loopsOf name = w'.recordedIds name ↔ w.loopsOf name ⊆ w.recordedIds name := by
  obtain ⟨group, dropped, kept, fresh, hres, hbefore, hafter⟩ := hfilled.resized
  have hrecorded (id : Nat) : id ∈ w.recordedIds name ↔
      id ∈ dropped.map ActorInstance.id ∨ id ∈ kept.map ActorInstance.id := by
    rw [mem_recordedIds, hbefore, List.map_append, List.mem_append]
  have hrecorded' (id : Nat) : id ∈ w'.recordedIds name ↔
      id ∈ kept.map ActorInstance.id ∨ id ∈ fresh.map ActorInstance.id := by
    rw [mem_recordedIds, hafter, List.map_append, List.mem_append]
  have hloops' (id : Nat) : id ∈ w'.host.loops ↔
      id ∈ w.host.loops ∧ id ∉ dropped.map ActorInstance.id ∨ id ∈ fresh.map ActorInstance.id := by
    rw [hres.loops, Finset.mem_union, Finset.mem_sdiff, List.mem_toFinset, List.mem_toFinset]
  constructor
  · intro heq id hid
    obtain ⟨hby, hin⟩ := Finset.mem_inter.mp hid
    rw [hrecorded]
    by_cases hdropped : id ∈ dropped.map ActorInstance.id
    · exact .inl hdropped
    · have hid' : id ∈ w'.loopsOf name := Finset.mem_inter.mpr
        ⟨hstarted ▸ Finset.mem_union_left _ hby, (hloops' id).mpr (.inl ⟨hin, hdropped⟩)⟩
      rw [heq, hrecorded'] at hid'
      rcases hid' with hkept | hfresh
      · exact .inr hkept
      · -- a new id is not the id of a loop that ran before
        exact absurd (h.ok.used id hin) (Nat.not_lt.mpr (hres.mem_fresh hfresh).1)
  · intro hsub
    refine Finset.Subset.antisymm (fun id hid => ?_) (h'.recordedIds_subset name)
    obtain ⟨hby, hin⟩ := Finset.mem_inter.mp hid
    rw [hrecorded']
    rcases (hloops' id).mp hin with ⟨hold, hdropped⟩ | hfresh
    · rw [hstarted, Finset.mem_union, Finset.mem_sdiff] at hby
      have hby' : id ∈ w.startedBy name := hby.resolve_right fun hnew => hnew.2 hold
      have hid' := (hrecorded id).mp (hsub (Finset.mem_inter.mpr ⟨hby', hold⟩))
      exact .inl (hid'.resolve_left hdropped)
    · exact .inr hfresh

/-- A failed run that wanted no more than was recorded changes nothing. -/
theorem runs_strayed (h : ActorsTracked w) {name : String} {replica : Nat}
    (hstarted : w'.startedBy name = w.startedBy name ∪ (w'.host.loops \ w.host.loops))
    (hstrayed : Strayed w.host w'.host name replica) :
    w'.Runs name replica ↔
      w.loopsOf name ⊆ w.recordedIds name ∧ (w.host.recordedUnder name).length = replica := by
  have hids : w'.recordedIds name = w.recordedIds name := by
    rw [World.recordedIds, World.recordedIds, hstrayed.recorded]
  have hsame (henough : (w.host.recordedUnder name).length = replica) :
      w'.loopsOf name = w.loopsOf name := by
    have hloops := hstrayed.enough henough.ge
    rw [World.loopsOf, World.loopsOf, hstarted, hloops, Finset.sdiff_self, Finset.union_empty]
  rw [World.Runs, hstrayed.recorded, hids, Int.ofNat_inj]
  constructor
  · rintro ⟨hlen, heq⟩
    rw [hsame hlen] at heq
    exact ⟨heq.subset, hlen⟩
  · rintro ⟨hsub, hlen⟩
    rw [hsame hlen]
    exact ⟨hlen, hsub.antisymm (h.recordedIds_subset name)⟩

theorem stored_iff {α : Type} [DecidableEq α] (old : Option α) (status : α) (patched : Bool) :
    patchStatus old (if old = some status then none else some status) patched = some status ↔
      old = some status ∨ patched = true := by
  rw [patchStatus_unless]
  cases patched <;> simp

theorem actor_converged_iff (h : ActorsTracked w) (hok : ObjectsAdmitted w) {name : String}
    {image : WasmActor} {fetchFails : Bool} {failAt : Option Nat} {patched : Bool}
    (hs : w.step sha256 (ReconcileRun.actor name image fetchFails failAt patched).step = some w') :
    (w.action? sha256 (.actor name image fetchFails failAt patched) = some .awaitChange →
        w.Converged sha256 w' (.actor name image fetchFails failAt patched)) ↔
      w.Converges sha256 (.actor name image fetchFails failAt patched) := by
  have h' := actorsTracked_step h hs
  obtain ⟨actor, hactor, hhost, hactors, hstartedFor⟩ := worldStep_reconcileActor hs
  have hstarted : w'.startedBy actor.name =
      w.startedBy actor.name ∪ (w'.host.loops \ w.host.loops) := by
    rw [World.startedBy, hstartedFor, AList.lookup_insert]
    rfl
  have hwanted := asUsize_of_nonneg (hok.replicas name actor hactor)
  have hawait : w.action? sha256 (.actor name image fetchFails failAt patched) =
      some .awaitChange := by
    simp only [World.action?, hactor, Option.map_some, reconcileActor_action]
  have hstored : w'.actorStatus? name = patchStatus actor.status
      (reconcileActor w.host actor (fetched image fetchFails) failAt).patch patched := by
    rw [World.actorStatus?, hactors, AList.lookup_insert]
    rfl
  have hconverged : w.Converged sha256 w' (.actor name image fetchFails failAt patched) ↔
      ∃ claims, image.claims = some claims ∧ w'.Runs actor.name actor.spec.replicas.toInt ∧
        w'.actorStatus? name = some (actorStatus claims actor.spec.replicas) := by
    constructor
    · rintro ⟨a, claims, ha, hrest⟩
      cases hactor.symm.trans ha
      exact ⟨claims, hrest⟩
    · rintro ⟨claims, hrest⟩
      exact ⟨actor, claims, hactor, hrest⟩
  have hconverges : w.Converges sha256 (.actor name image fetchFails failAt patched) ↔
      w.ActorConverges actor image fetchFails failAt patched := by
    constructor
    · intro hall
      exact hall actor hactor
    · intro hone a ha
      cases hactor.symm.trans ha
      exact hone
  rw [hconverged, hconverges, World.ActorConverges, hstored, ← hwanted]
  simp only [hawait, forall_const]
  obtain ⟨host', -, hcase⟩ := reconcileActor_spec h.ok actor.name actor.spec.image
    (fetched image fetchFails) (asUsize actor.spec.replicas) failAt
  rcases hcase with ⟨image', claims', hfetched, hclaims', hstarts, hrun, hfilled⟩ |
    ⟨hfails, ⟨e, hrun⟩, hstrayed⟩
  · obtain ⟨hfetch, rfl⟩ := fetched_eq_ok.mp hfetched
    rw [reconcileActor_of_ok hrun] at hhost ⊢
    dsimp only at hhost ⊢
    rw [← hhost] at hfilled
    have hlen : ((w'.host.recordedUnder actor.name).length : Int) =
        (asUsize actor.spec.replicas : Int) := by rw [hfilled.length]
    have hruns : w'.Runs actor.name (asUsize actor.spec.replicas) ↔
        w.loopsOf actor.name ⊆ w.recordedIds actor.name := by
      rw [World.Runs, loopsOf_filled h h' hstarted hfilled]
      exact and_iff_right hlen
    refine exists_congr fun claims => and_congr_right fun hclaims => ?_
    cases hclaims.symm.trans hclaims'
    rw [hruns, stored_iff]
    simp only [hfetch, hstarts, true_and, true_or, and_true]
  · rw [reconcileActor_of_error hrun] at hhost ⊢
    dsimp only at hhost ⊢
    rw [← hhost] at hstrayed
    refine exists_congr fun claims => and_congr_right fun hclaims => ?_
    have hnot : ¬ (fetchFails = false ∧
        w.host.ActorStarts actor.name claims (asUsize actor.spec.replicas) failAt) := by
      rintro ⟨hfetch, hstarts⟩
      exact hfails image claims (fetched_eq_ok.mpr ⟨hfetch, rfl⟩) hclaims hstarts
    rw [runs_strayed h hstarted hstrayed]
    simp only [hnot, false_or, false_and, or_false, patchStatus, and_assoc, Int.ofNat_inj]

/-! ## Providers -/

theorem provider_converged_iff (hok : ProvidersOk w.host) {name : String} {image : ProviderImage}
    {fetchFails : Bool} {failure : Option StartFailure} {patched : Bool}
    (hs : w.step sha256 (ReconcileRun.provider name image fetchFails failure patched).step =
      some w') :
    (w.action? sha256 (.provider name image fetchFails failure patched) = some .awaitChange →
        w.Converged sha256 w' (.provider name image fetchFails failure patched)) ↔
      w.Converges sha256 (.provider name image fetchFails failure patched) := by
  obtain ⟨g, hg, hhost, hproviders⟩ := step_reconcileProvider hs
  have hawait : w.action? sha256 (.provider name image fetchFails failure patched) =
      some .awaitChange := by
    simp only [World.action?, hg, Option.map_some, reconcileProvider_action]
  have hstored : w'.providerStatus? name = patchStatus g.status
      (reconcileProvider w.host g (fetched image fetchFails) failure).patch patched := by
    rw [World.providerStatus?, hproviders, AList.lookup_insert]
    rfl
  have hconverged : w.Converged sha256 w' (.provider name image fetchFails failure patched) ↔
      (∃ i, w'.host.instance? image.claims.subject g.spec.link = some i ∧
        i.child ∈ w'.host.processes) ∧
        w'.providerStatus? name = some (providerStatus image.claims) := by
    constructor
    · rintro ⟨g', i, hg', hat, halive, hstatus⟩
      cases hg.symm.trans hg'
      exact ⟨⟨i, hat, halive⟩, hstatus⟩
    · rintro ⟨⟨i, hat, halive⟩, hstatus⟩
      exact ⟨g, i, hg, hat, halive, hstatus⟩
  have hconverges : w.Converges sha256 (.provider name image fetchFails failure patched) ↔
      w.ProviderConverges g image fetchFails failure patched := by
    constructor
    · intro hall
      exact hall g hg
    · intro hone g' hg'
      cases hg.symm.trans hg'
      exact hone
  rw [hconverged, hconverges, World.ProviderConverges, hstored]
  simp only [hawait, forall_const]
  rcases reconcileProvider_cases hok.used g (fetched image fetchFails) failure with
    ⟨e, hfetched, hpatch, hsame⟩ | ⟨image', hfetched, hcase⟩
  · -- the fetch failed
    have hfetch : fetchFails = true := by
      cases fetchFails with
      | true => rfl
      | false => cases hfetched
    rw [← hhost] at hsame
    rw [hpatch, hsame.instances, hsame.processes]
    simp [hfetch, patchStatus]
  · obtain ⟨hfetch, rfl⟩ := fetched_eq_ok.mp hfetched
    rcases hcase with ⟨hnone, hfailure, hpatch, hsame⟩ |
      ⟨hpatch, ⟨⟨i, hat⟩, hsame⟩ | ⟨hnone, hfailure, i, -, hnew⟩⟩
    · -- nothing was there, and the start failed
      rw [← hhost] at hsame
      rw [hpatch, hsame.instances, hsame.processes]
      simp [hnone, hfailure, patchStatus]
    · -- an instance was recorded, and was left as it is
      rw [← hhost] at hsame
      rw [hpatch, stored_iff, hsame.instances, hsame.processes]
      simp [hat, hfetch]
    · rw [← hhost] at hnew
      rw [hpatch, stored_iff, hnew.instances, hnew.processes]
      simp [hnone, hfetch, hfailure]

/-! ## Links -/

/-- When a definition is installed after the section that installs it. -/
theorem installed_installLink_iff (ctx : Ctx) (name : String) (ld : LinkDefinition)
    (publish : PublishOutcome) :
    (ctx.installLink sha256 name ld publish).1.InstalledFor sha256 name ld ↔
      ctx.links.lookup ld.id = none ∧ ctx.host.links.lookup (ld.hash sha256) = none ∧
          publish = .sent ∨
        ctx.host.links.lookup (ld.hash sha256) = some ld ∧
          announced ctx.host.published ld.triple = some ld := by
  cases hentry : ctx.links.lookup ld.id with
  | some entry =>
    obtain ⟨found, names⟩ := entry
    rw [installLink_occupied sha256 hentry]
    constructor
    · intro h
      exact .inr ⟨h.stored, h.published⟩
    · rintro (⟨hnone, -⟩ | ⟨hstored, hpublished⟩)
      · cases hnone
      · exact ⟨⟨found, insert name names, AList.lookup_insert _, Finset.mem_insert_self _ _⟩,
          hstored, hpublished⟩
  | none =>
    cases hhash : ctx.host.links.lookup (ld.hash sha256) with
    | some found =>
      rw [installLink_skip sha256 hentry hhash]
      constructor
      · intro h
        exact .inr ⟨hhash.symm.trans h.stored, h.published⟩
      · rintro (⟨-, hnone, -⟩ | ⟨hstored, hpublished⟩)
        · cases hnone
        · exact ⟨⟨ld, {name}, AList.lookup_insert _, Finset.mem_singleton_self _⟩,
            hhash.trans hstored, hpublished⟩
    | none =>
      obtain ⟨hhost, hlinks, -⟩ := installLink_fresh sha256 hentry hhash name publish
      obtain ⟨hstored, hpublished, -⟩ := addLinkdef_of_none sha256 ctx.host ld publish hhash
      constructor
      · intro h
        obtain ⟨found, names, hcounted, -⟩ := h.counted
        by_cases hsent : publish = .sent
        · exact .inl ⟨rfl, rfl, hsent⟩
        · -- the entry is made only when the message goes out
          rw [hlinks, if_neg hsent, hentry] at hcounted
          cases hcounted
      · rintro (⟨-, -, hsent⟩ | ⟨hsome, -⟩)
        · refine ⟨⟨ld, {name}, ?_, Finset.mem_singleton_self _⟩, ?_, ?_⟩
          · rw [hlinks, if_pos hsent]
            exact AList.lookup_insert _
          · rw [hhost, hstored]
            exact AList.lookup_insert _
          · rw [hhost, hpublished, if_pos hsent, announced_snoc]
            exact Function.update_self _ _ _
        · cases hsome

theorem link_converged_iff (hok : ObjectsAdmitted w) {name : String} {cluster : Cluster}
    {publish : PublishOutcome} {patched : Bool}
    (hconsistent : w.Consistent (.link name cluster publish patched))
    (hs : w.step sha256 (ReconcileRun.link name cluster publish patched).step = some w') :
    (w.action? sha256 (.link name cluster publish patched) = some .awaitChange →
        w.Converged sha256 w' (.link name cluster publish patched)) ↔
      w.Converges sha256 (.link name cluster publish patched) := by
  obtain ⟨link, hlink, hw⟩ := Option.map_eq_some_iff.mp hs
  have hne := linkDefinition_ne_await (hok.valid name link hlink) (hconsistent link hlink)
  have haction : w.action? sha256 (.link name cluster publish patched) =
      some (addLink sha256 w.ctx cluster link publish).action := by
    simp only [World.action?, hlink, Option.map_some]
  have hctx : w'.ctx = (addLink sha256 w.ctx cluster link publish).ctx := by
    rw [← hw]
  have hstored : w'.linkStatus? name =
      patchStatus link.status (addLink sha256 w.ctx cluster link publish).patch patched := by
    rw [← hw, World.linkStatus?, AList.lookup_insert]
    rfl
  have hconverged : w.Converged sha256 w' (.link name cluster publish patched) ↔
      ∃ ld, linkDefinition cluster link = .ok ld ∧ w'.ctx.InstalledFor sha256 link.name ld ∧
        w'.linkStatus? name = some ld.status := by
    constructor
    · rintro ⟨link', ld, hlink', hrest⟩
      cases hlink.symm.trans hlink'
      exact ⟨ld, hrest⟩
    · rintro ⟨ld, hrest⟩
      exact ⟨link, ld, hlink, hrest⟩
  have hconverges : w.Converges sha256 (.link name cluster publish patched) ↔
      w.LinkConverges sha256 link cluster publish patched := by
    constructor
    · intro hall
      exact hall link hlink
    · intro hone link' hlink'
      cases hlink.symm.trans hlink'
      exact hone
  rw [haction, hconverged, hconverges, World.LinkConverges, hstored, hctx]
  by_cases hexit : link.spec.linkName = "" ∧ link.spec.provider.key ≠ ""
  · have hresolve : resolveLink cluster link = .error .awaitChange := by
      rw [resolveLink_eq, if_pos hexit]
    rw [if_pos hexit]
    simp only [addLink, hresolve, forall_const, patchStatus]
  · have hresolve : resolveLink cluster link = linkDefinition cluster link := by
      rw [resolveLink_eq, if_neg hexit]
    rw [if_neg hexit]
    cases hdef : linkDefinition cluster link with
    | error action =>
      rw [hdef] at hresolve hne
      have hother : action ≠ .awaitChange := fun h => hne (by rw [h])
      simp [addLink, hresolve, hother]
    | ok ld =>
      obtain ⟨hawait, hafter, hpatch⟩ := addLink_resolved sha256 w.ctx (hresolve.trans hdef) publish
      rw [hawait, hafter, hpatch]
      simp only [forall_const, Except.ok.injEq, forall_eq', exists_eq_left']
      rw [installed_installLink_iff]
      refine and_congr_right fun hinstalled => ?_
      have hflag : (w.ctx.installLink sha256 link.name ld publish).2 = true := by
        rw [installLink_ok_iff]
        intro _ hfree
        rcases hinstalled with ⟨-, -, hsent⟩ | ⟨hused, -⟩
        · exact hsent
        · rw [hfree] at hused
          cases hused
      rw [if_pos hflag, stored_iff]

/-! ## All three -/

/-- A reconcile that returns `await_change` has converged exactly when
nothing failed on the way that it swallows, and nothing an earlier run left
behind is in its way. -/
theorem await_converged_iff (sha256 : String → String) (latticePrefix : String) {w w' : World}
    (hw : (worldMachine sha256 latticePrefix).Reachable w) (r : ReconcileRun)
    (hconsistent : w.Consistent r) (hs : w.step sha256 r.step = some w') :
    (w.action? sha256 r = some .awaitChange → w.Converged sha256 w' r) ↔
      w.Converges sha256 r := by
  have hok := objectsAdmitted_of_reachable hw
  cases r with
  | actor name image fetchFails failAt patched =>
    exact actor_converged_iff (actorsTracked_of_reachable hw) hok hs
  | link name cluster publish patched => exact link_converged_iff hok hconsistent hs
  | provider name image fetchFails failure patched =>
    exact provider_converged_iff (providersOk_of_reachable hw) hs

end Sha256

/-! ## A fresh Actor -/

def echoClaims : Jwt.Claims Jwt.Actor := ⟨"A", "M", 0, none, none, none⟩

def imageEcho : WasmActor where
  module := "echo"
  claims := some echoClaims

/-- An Actor of two replicas is applied. -/
def appliedEcho : List WorldStep := [.applyActor "echo" ⟨"host", "image", 2⟩]

/-- Its first reconcile. -/
def reconcileEcho (fetchFails : Bool) : ReconcileRun := .actor "echo" imageEcho fetchFails none true

/-- The image cannot be fetched: no instance runs, no status is stored, and
no requeue is asked for. -/
theorem failedFetch_not_converged :
    ∃ w w', (worldMachine id "default").Reachable w ∧ w.Consistent (reconcileEcho true) ∧
      w.step id (reconcileEcho true).step = some w' ∧
      w.action? id (reconcileEcho true) = some .awaitChange ∧
      w'.host.recordedUnder "echo" = [] ∧ ¬ w.Converged id w' (reconcileEcho true) := by
  refine ⟨_, _, ⟨appliedEcho, Machine.run_of_exec rfl⟩, trivial, rfl, rfl, rfl, ?_⟩
  rintro ⟨actor, claims, -, -, -, hstatus⟩
  cases hstatus

/-- The same reconcile with the image at hand. -/
theorem fetchedEcho_converged :
    ∃ w w', (worldMachine id "default").Reachable w ∧
      w.step id (reconcileEcho false).step = some w' ∧
      w.Converged id w' (reconcileEcho false) := by
  refine ⟨_, _, ⟨appliedEcho, Machine.run_of_exec rfl⟩, rfl, ?_⟩
  refine (await_converged_iff id "default" ⟨appliedEcho, Machine.run_of_exec rfl⟩
    (reconcileEcho false) trivial rfl).mpr ?_ rfl
  intro actor hactor
  cases hactor
  have hstarts : Host.ActorStarts (.new "default") "echo" echoClaims (asUsize 2) none :=
    ⟨(fun _ hkey => nomatch hkey), (fun _ hfail => nomatch hfail)⟩
  refine ⟨echoClaims, rfl, Finset.Subset.refl _, .inl ⟨rfl, hstarts⟩, .inr ⟨⟨rfl, hstarts⟩, rfl⟩⟩

end KasmCloud
