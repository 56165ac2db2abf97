/-
KasmCloud.Controller.Fixpoint — reconciling an object a second time.

A run of `reconcile_actor`, `reconcile_provider` or `add_link` that succeeds
publishes a status as a merge patch, and the patched object comes back to the
controller as a change. `reconcile_settles` says that the run on it changes no
table, starts, stops and publishes nothing, and writes no patch: the
controllers do not trigger themselves for ever.

The objects are read from the documents the API server stores, before and
after the patch (`Apis/Documents.lean`). The hash map of a provider's
architecture targets may be iterated in another order by the second run.
-/
import KasmCloud.Apis.Documents
import KasmCloud.Controller.WorldActors
import Mathlib.Data.String.Basic

namespace KasmCloud

open Lib V1alpha1

/-! ## The host -/

section Host

variable {host host' : Host}

/-- A group that has what is wanted is left alone. -/
theorem fillGroup_filled {group : Ref} {g : ActorGroup} (h : host.groups.get? group = some g)
    {name : String} {replica : Nat} (hlen : (host.instancesAt group name).length = replica)
    (actor : WasmActor) (actorRef : String) (failAt : Option Nat) :
    host.fillGroup group name actor actorRef replica failAt = (host, .ok ()) := by
  cases hlook : g.actors.lookup name with
  | none =>
    have hnone := hlook
    rw [← actorAt_of_group h] at hnone
    rw [instancesAt_of_none hnone] at hlen
    have hzero : replica = 0 := hlen.symm
    simp only [Host.fillGroup, h, hlook, hzero, if_true]
  | some a =>
    have hsome := hlook
    rw [← actorAt_of_group h] at hsome
    rw [instancesAt_of_some hsome] at hlen
    simp [Host.fillGroup, h, hlook, hlen]

/-- `Host::reconcile_actor` run again after it returned `Ok`. -/
theorem ActorsOk.reconcileActor_again (h : ActorsOk host) {name actorRef : String}
    {fetched : Except String WasmActor} {replica : Nat} {failAt : Option Nat}
    {claims : Jwt.Claims Jwt.Actor}
    (hrun : host.reconcileActor name actorRef fetched replica failAt = (host', .ok claims))
    (failAt' : Option Nat) :
    host'.reconcileActor name actorRef fetched replica failAt' = (host', .ok claims) := by
  obtain ⟨found, hok', hcase⟩ := reconcileActor_spec h name actorRef fetched replica failAt
  rcases hcase with ⟨image, claims', rfl, hclaims, hstarts, hdone, hfilled⟩ | ⟨-, ⟨e, hfailed⟩, -⟩
  · cases hrun.symm.trans hdone
    -- the sections before the last have left the key and the group registered
    obtain ⟨-, hlookkey, hlookreg, -⟩ := h.enter hstarts.1
    obtain ⟨hkeys, hactors, -, -⟩ := @fillGroup_frame
      ((host.registerActorKey name claims.subject).lookupGroup claims.subject).2 image claims
      hclaims ((host.registerActorKey name claims.subject).lookupGroup claims.subject).1 name
      actorRef replica failAt
    have hfill := reconcileActor_fill hclaims hstarts.1 actorRef replica failAt
    rw [hrun] at hfill
    rw [← hfill] at hkeys hactors
    have hkey := hkeys ▸ hlookkey
    have hreg := hactors ▸ hlookreg
    have hadmitted : ∀ k, host'.actorKeys.lookup name = some k → k = claims.subject :=
      fun k hk => Option.some.inj (hk.symm.trans hkey)
    obtain ⟨g, hg⟩ := hok'.cells _ _ hreg
    have hlen := hfilled.length
    rw [recordedUnder_of_registered hkey hreg] at hlen
    have hregister : host'.registerActorKey name claims.subject = host' := by
      simp only [Host.registerActorKey, hkey]
    rw [reconcileActor_admitted hclaims hadmitted, hregister, lookupGroup_found hreg,
      fillGroup_filled hg hlen]
    rfl
  · cases hrun.symm.trans hfailed

/-- The entry made or found is the one in the table. -/
theorem enterProvider_lookup (host : Host) (claims : Jwt.Claims Jwt.CapabilityProvider)
    (providerRef : String) :
    (host.enterProvider claims providerRef).2.providers.lookup claims.subject =
      some (host.enterProvider claims providerRef).1 := by
  unfold Host.enterProvider
  cases hentry : host.providers.lookup claims.subject with
  | some provider => exact hentry
  | none => exact AList.lookup_insert _

/-- After `Ok`, `start_provider` has an instance of the link in the table. -/
theorem startProvider_instance {linkName providerRef : String} {image : ProviderImage}
    {failure : Option StartFailure} {claims : Jwt.Claims Jwt.CapabilityProvider}
    (hrun : host.startProvider linkName providerRef (.ok image) failure = (host', .ok claims)) :
    claims = image.claims ∧ ∃ provider i,
      host'.providers.lookup image.claims.subject = some provider ∧
        provider.instances.lookup linkName = some i := by
  have hentry := enterProvider_lookup host image.claims providerRef
  unfold Host.startProvider at hrun
  dsimp only at hrun
  generalize host.enterProvider image.claims providerRef = entered at hrun hentry
  cases hi : entered.1.instances.lookup linkName with
  | some i =>
    rw [hi] at hrun
    cases hrun
    exact ⟨rfl, entered.1, i, hentry, hi⟩
  | none =>
    rw [hi] at hrun
    simp only [Host.launchProvider] at hrun
    rcases hchild : entered.2.takeId.2.runProvider image.path
      ⟨linkName, entered.2.takeId.1, image.claims.subject,
        entered.2.takeId.2.providerLinks image.claims.subject linkName⟩ failure with ⟨ran, e | pid⟩
    · rw [hchild] at hrun
      cases hrun
    · rw [hchild] at hrun
      cases hrun
      exact ⟨rfl, _, _, AList.lookup_insert _, AList.lookup_insert _⟩

/-- `Host::start_provider` run again after it returned `Ok`. -/
theorem startProvider_again {linkName providerRef : String} {image : ProviderImage}
    {failure : Option StartFailure} {claims : Jwt.Claims Jwt.CapabilityProvider}
    (hrun : host.startProvider linkName providerRef (.ok image) failure = (host', .ok claims))
    {image' : ProviderImage} (hkey : image'.claims.subject = image.claims.subject)
    (failure' : Option StartFailure) :
    host'.startProvider linkName providerRef (.ok image') failure' = (host', .ok image'.claims) := by
  obtain ⟨-, provider, i, hentry, hi⟩ := startProvider_instance hrun
  rw [← hkey] at hentry
  have henter : host'.enterProvider image'.claims providerRef = (provider, host') := by
    simp only [Host.enterProvider, hentry]
  simp only [Host.startProvider, henter, hi]

end Host

/-! ## Links -/

/-- The same answers lead to the same definition again, now through the
status, or as before when the status is not complete. -/
theorem resolveLink_settled {cluster : Cluster} {name : String} {spec : LinkSpec}
    {status : Option LinkStatus} {ld : LinkDefinition}
    (h : resolveLink cluster ⟨name, spec, status⟩ = .ok ld) :
    resolveLink cluster ⟨name, spec, some ld.status⟩ = .ok ld := by
  by_cases hlink : ld.linkName = ""
  · -- neither status is complete, so both runs begin with the spec alone
    have hnow : initialDefinition spec (some ld.status) = initialDefinition spec none := by
      simp [initialDefinition, LinkStatus.complete, LinkDefinition.status, hlink]
    have hbefore : initialDefinition spec status = initialDefinition spec none := by
      cases status with
      | none => rfl
      | some old =>
        cases hcomplete : old.complete with
        | false => simp [initialDefinition, hcomplete]
        | true =>
          rw [resolveLink_of_status cluster rfl hcomplete] at h
          split at h
          · cases h
          · cases h
            simp only [LinkStatus.complete, Bool.and_eq_true, bne_iff_ne] at hcomplete
            exact absurd hlink hcomplete.2
    unfold resolveLink at h ⊢
    dsimp only at h ⊢
    rw [hnow, ← hbefore]
    exact h
  · exact resolveLink_again cluster h hlink

section Sha256

variable (sha256 : String → String) {ctx ctx' : Ctx}

/-- A definition recorded for a name is found, and recording it again changes
no entry. -/
theorem installLink_recorded {name : String} {ld : LinkDefinition} {publish : PublishOutcome}
    (h : ctx.installLink sha256 name ld publish = (ctx', true)) (publish' : PublishOutcome) :
    ∃ ctx'', ctx'.installLink sha256 name ld publish' = (ctx'', true) ∧ ctx''.host = ctx'.host ∧
      ∀ id, ctx''.links.lookup id = ctx'.links.lookup id := by
  have hentry : ∃ found names, ctx'.links.lookup ld.id = some (found, names) ∧ name ∈ names := by
    unfold Ctx.installLink at h
    split at h
    · split at h
      · cases h
        exact ⟨ld, {name}, AList.lookup_insert _, Finset.mem_singleton_self name⟩
      · cases h
    · rename_i found names _
      cases h
      exact ⟨found, insert name names, AList.lookup_insert _, Finset.mem_insert_self name names⟩
  obtain ⟨found, names, hentry, hname⟩ := hentry
  rw [installLink_occupied sha256 hentry]
  refine ⟨_, rfl, rfl, fun id => ?_⟩
  rw [HashMap.lookup_insert_if, Finset.insert_eq_of_mem hname]
  split
  · rename_i heq
    rw [heq, hentry]
  · rfl

end Sha256

/-! ## Runs on stored objects -/

/-- The stored document after a run that asked for `patch`. -/
def storedAfter {τ : Type} (status : Serde τ) (doc : Json) : Option τ → Json
  | none => doc
  | some s => .mergePatch doc (statusPatch (status.write s))

/-- The same image fetched again: its architecture targets are the keys of a
new hash map. -/
def ProviderImage.SameAs (image image' : ProviderImage) : Prop :=
  image'.path = image.path ∧ ∃ order : List String → List String, (∀ l, (order l).Perm l) ∧
    image'.claims = { image.claims with
      metadata := image.claims.metadata.map fun md =>
        { md with targetHashes := order md.targetHashes } }

section Settles

variable (metav1 : MetaV1)

/-- `reconcile_actor`, run on any stored Actor until it is `Ok`, does nothing
when it is run again on the object it leaves. -/
def ActorSettles (host : Host) : Prop :=
  ∀ doc actor fetched failAt claims, readActor metav1 doc = some actor →
    (host.reconcileActor actor.name actor.spec.image fetched (asUsize actor.spec.replicas)
      failAt).2 = .ok claims →
    (Claims.ofJwt claims).Representable →
    let first := reconcileActor host actor fetched failAt
    ∃ actor', readActor metav1 (storedAfter (actorStatusSerde metav1) doc first.patch) =
        some actor' ∧
      ∀ failAt', let second := reconcileActor first.host actor' fetched failAt'
        second.host = first.host ∧ second.patch = none

/-- The same for `reconcile_provider`. -/
def ProviderSettles (host : Host) : Prop :=
  ∀ doc provider image failure claims, readProvider metav1 doc = some provider →
    (host.startProvider provider.spec.link provider.spec.image (.ok image) failure).2 =
      .ok claims →
    (Claims.ofJwt claims).Representable →
    let first := reconcileProvider host provider (.ok image) failure
    ∃ provider', readProvider metav1 (storedAfter (providerStatusSerde metav1) doc first.patch) =
        some provider' ∧
      ∀ image' failure', image.SameAs image' →
        let second := reconcileProvider first.host provider' (.ok image') failure'
        second.host = first.host ∧ second.patch = none

/-- The same for `add_link`, once the definition is recorded. -/
def LinkSettles (sha256 : String → String) (ctx : Ctx) : Prop :=
  ∀ doc link cluster publish ld, readLink metav1 doc = some link →
    resolveLink cluster link = .ok ld → (ctx.installLink sha256 link.name ld publish).2 = true →
    let first := addLink sha256 ctx cluster link publish
    ∃ link', readLink metav1 (storedAfter (linkStatusSerde metav1) doc first.patch) = some link' ∧
      ∀ publish', let second := addLink sha256 first.ctx cluster link' publish'
        second.ctx.host = first.ctx.host ∧
          (∀ id, second.ctx.links.lookup id = first.ctx.links.lookup id) ∧ second.patch = none

end Settles

section Proofs

variable {metav1 : MetaV1} {host : Host}

theorem actor_settles (hmeta : metav1.Documented) (hok : ActorsOk host) :
    ActorSettles metav1 host := by
  intro doc actor fetched failAt claims hread hrun htimes
  rcases hcall : host.reconcileActor actor.name actor.spec.image fetched
    (asUsize actor.spec.replicas) failAt with ⟨host', e | claims'⟩
  · rw [hcall] at hrun
    cases hrun
  · rw [hcall] at hrun
    cases hrun
    have hagain := fun failAt' => hok.reconcileActor_again hcall failAt'
    have hrestores : (actorStatusSerde metav1).Restores (actorStatus claims actor.spec.replicas) := by
      have hparts : (actorStatus claims actor.spec.replicas).claims = .ofJwt claims ∧
          (actorStatus claims actor.spec.replicas).conditions = [] := by
        unfold actorStatus
        cases claims.metadata <;> exact ⟨rfl, rfl⟩
      exact actorStatus_restores hmeta (hparts.1 ▸ htimes) hparts.2
    -- whether or not a patch was needed, the object has the status now
    have hstored : readActor metav1 (storedAfter (actorStatusSerde metav1) doc
        (reconcileActor host actor fetched failAt).patch) =
          some { actor with status := some (actorStatus claims actor.spec.replicas) } := by
      rw [reconcileActor_of_ok hcall]
      dsimp only
      split
      · rename_i hsame
        rw [← hsame]
        exact hread
      · exact readActor_merged hread hrestores
    refine ⟨_, hstored, fun failAt' => ?_⟩
    have hfirst : (reconcileActor host actor fetched failAt).host = host' := by
      rw [reconcileActor_of_ok hcall]
    have hsecond := @reconcileActor_of_ok host' host'
      { actor with status := some (actorStatus claims actor.spec.replicas) } fetched failAt' claims
      (hok.reconcileActor_again hcall failAt')
    dsimp only
    rw [hfirst, hsecond, if_pos rfl]
    exact ⟨rfl, rfl⟩

/-- The architecture targets are sorted, so their order in the image does not
show. -/
theorem providerStatus_sameAs {image image' : ProviderImage} (h : image.SameAs image') :
    providerStatus image'.claims = providerStatus image.claims := by
  obtain ⟨-, order, hperm, hclaims⟩ := h
  rw [hclaims]
  unfold providerStatus
  cases image.claims.metadata with
  | none => rfl
  | some md =>
    have hsorted : (order md.targetHashes).insertionSort (· ≤ ·) =
        md.targetHashes.insertionSort (· ≤ ·) := by
      refine List.Perm.eq_of_sortedLE (List.sortedLE_insertionSort) (List.sortedLE_insertionSort) ?_
      exact (List.perm_insertionSort _ _).trans
        ((hperm md.targetHashes).trans (List.perm_insertionSort _ _).symm)
    simp only [Option.map_some, hsorted]
    rfl

theorem provider_settles (hmeta : metav1.Documented) : ProviderSettles metav1 host := by
  intro doc provider image failure claims hread hrun htimes
  rcases hcall : host.startProvider provider.spec.link provider.spec.image (.ok image) failure with
    ⟨host', e | claims'⟩
  · rw [hcall] at hrun
    cases hrun
  · rw [hcall] at hrun
    cases hrun
    have hclaims := (startProvider_instance hcall).1
    have hrestores : (providerStatusSerde metav1).Restores (providerStatus claims) := by
      have hparts : (providerStatus claims).claims = .ofJwt claims ∧
          (providerStatus claims).conditions = [] := by
        unfold providerStatus
        cases claims.metadata <;> exact ⟨rfl, rfl⟩
      exact providerStatus_restores hmeta (hparts.1 ▸ htimes) hparts.2
    have hstored : readProvider metav1 (storedAfter (providerStatusSerde metav1) doc
        (reconcileProvider host provider (.ok image) failure).patch) =
          some { provider with status := some (providerStatus claims) } := by
      rw [reconcileProvider_of_ok hcall]
      dsimp only
      split
      · rename_i hsame
        rw [← hsame]
        exact hread
      · exact readProvider_merged hread hrestores
    refine ⟨_, hstored, fun image' failure' hsame => ?_⟩
    have hfirst : (reconcileProvider host provider (.ok image) failure).host = host' := by
      rw [reconcileProvider_of_ok hcall]
    have hkey : image'.claims.subject = image.claims.subject := by
      obtain ⟨-, order, -, hfetched⟩ := hsame
      rw [hfetched]
    have hsecond := @reconcileProvider_of_ok host' host'
      { provider with status := some (providerStatus claims) } (.ok image') failure' image'.claims
      (startProvider_again hcall hkey failure')
    dsimp only
    rw [hfirst, hsecond, providerStatus_sameAs hsame, ← hclaims, if_pos rfl]
    exact ⟨rfl, rfl⟩

theorem addLink_of_installed (sha256 : String → String) {ctx ctx' : Ctx} {cluster : Cluster}
    {link : Link} {publish : PublishOutcome} {ld : LinkDefinition}
    (hld : resolveLink cluster link = .ok ld)
    (h : ctx.installLink sha256 link.name ld publish = (ctx', true)) :
    addLink sha256 ctx cluster link publish =
      ⟨.awaitChange, ctx', if link.status = some ld.status then none else some ld.status⟩ := by
  simp only [addLink, hld, h]
  split <;> rfl

theorem link_settles (sha256 : String → String) (ctx : Ctx) : LinkSettles metav1 sha256 ctx := by
  intro doc link cluster publish ld hread hld hinstalled
  rcases hcall : ctx.installLink sha256 link.name ld publish with ⟨ctx', went⟩
  rw [hcall] at hinstalled
  cases hinstalled
  have hrestores : (linkStatusSerde metav1).Restores ld.status := linkStatus_restores rfl
  have hstored : readLink metav1 (storedAfter (linkStatusSerde metav1) doc
      (addLink sha256 ctx cluster link publish).patch) =
        some { link with status := some ld.status } := by
    rw [addLink_of_installed sha256 hld hcall]
    dsimp only
    split
    · rename_i hsame
      rw [← hsame]
      exact hread
    · exact readLink_merged hread hrestores
  refine ⟨_, hstored, fun publish' => ?_⟩
  have hfirst : (addLink sha256 ctx cluster link publish).ctx = ctx' := by
    rw [addLink_of_installed sha256 hld hcall]
  obtain ⟨ctx'', hagain, hhost, hlinks⟩ := installLink_recorded sha256 hcall publish'
  have hsecond := @addLink_of_installed sha256 ctx' ctx'' cluster
    { link with status := some ld.status } publish' ld (resolveLink_settled hld) hagain
  dsimp only
  rw [hfirst, hsecond, if_pos rfl]
  exact ⟨hhost, hlinks, rfl⟩

/-- In every reachable state, a run that succeeded on a stored object of any
of the three kinds, and whose status was merged into it, is a run that has
nothing left to do. -/
theorem reconcile_settles (sha256 : String → String) (latticePrefix : String)
    (hmeta : metav1.Documented) {w : World}
    (hw : (worldMachine sha256 latticePrefix).Reachable w) :
    ActorSettles metav1 w.host ∧ ProviderSettles metav1 w.host ∧
      LinkSettles metav1 sha256 w.ctx :=
  ⟨actor_settles hmeta (actorsTracked_of_reachable hw).ok, provider_settles hmeta,
    link_settles sha256 w.ctx⟩

end Proofs

/-! ## A stored Actor -/

/-- The epoch as chrono writes it; any other time as a sign and as many marks
as seconds. -/
def epochTimes : MetaV1 where
  formatTime t :=
    if t = 0 then "1970-01-01T00:00:00Z"
    else String.ofList ((if t < 0 then '-' else '+') :: List.replicate t.natAbs 's')
  parseTime s :=
    if s = "1970-01-01T00:00:00Z" then some 0
    else
      match s.toList with
      | '-' :: marks => some (-marks.length)
      | '+' :: marks => some marks.length
      | _ => none
  condition := ⟨fun _ => .null, fun _ => none⟩

theorem epochTimes_documented : epochTimes.Documented := by
  intro t _
  by_cases hzero : t = 0
  · simp [epochTimes, hzero]
  · have hother (sign : Char) (marks : List Char) (hsign : sign ≠ '1') :
        String.ofList (sign :: marks) ≠ "1970-01-01T00:00:00Z" := by
      intro heq
      have hlist := congrArg String.toList heq
      rw [String.toList_ofList] at hlist
      exact hsign (List.cons.inj hlist).1
    have habs (n : Int) : (n < 0 → -(n.natAbs : Int) = n) ∧
        (¬ n < 0 → (n.natAbs : Int) = n) := by omega
    by_cases hneg : t < 0
    · simp only [epochTimes, hzero, hneg, if_true, if_false, hother '-' _ (by decide),
        String.toList_ofList, List.length_replicate, Option.some.injEq]
      exact (habs t).1 hneg
    · simp only [epochTimes, hzero, hneg, if_false, hother '+' _ (by decide),
        String.toList_ofList, List.length_replicate, Option.some.injEq]
      exact (habs t).2 hneg

/-- Two replicas of an image whose claims say it was issued at the epoch. -/
def storedEcho : Json := .obj
  [("metadata", .obj [("name", .str "echo")]),
    ("spec", .obj [("host", .str "host"), ("image", .str "echo:v1"), ("replicas", .num 2)])]

def imageOfEpoch : WasmActor where
  module := "echo"
  claims := some ⟨"ISSUER", "MECHO", 0, none, none, none⟩

theorem storedEcho_settles :
    let actor : V1alpha1.Actor := ⟨"echo", ⟨"host", "echo:v1", 2⟩, none⟩
    let first := reconcileActor (.new "default") actor (.ok imageOfEpoch) none
    ∃ actor', readActor epochTimes
        (storedAfter (actorStatusSerde epochTimes) storedEcho first.patch) = some actor' ∧
      (reconcileActor first.host actor' (.ok imageOfEpoch) none).patch = none := by
  obtain ⟨hactors, -, -⟩ := reconcile_settles id "default" epochTimes_documented
    ⟨[], Machine.RunWhen.nil⟩
  have htimes {claims : Jwt.Claims Jwt.Actor} (h : imageOfEpoch.claims = some claims) :
      (Claims.ofJwt claims).Representable := by
    cases h
    exact ⟨by unfold InRfc3339; decide, (fun _ ht => nomatch ht), (fun _ ht => nomatch ht)⟩
  obtain ⟨actor', hread, hagain⟩ := hactors storedEcho _ (.ok imageOfEpoch) none _ rfl rfl (htimes rfl)
  exact ⟨actor', hread, (hagain none).2⟩

end KasmCloud
