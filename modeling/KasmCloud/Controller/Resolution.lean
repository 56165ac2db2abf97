/-
KasmCloud.Controller.Resolution — the definition `add_link` makes of a Link
that admission has accepted.

`linkDefinition` is resolution without the exit at its start, and
`referenceDefinition` is what an accepted spec says by itself, given the
objects it names. The two agree wherever the objects agree with the spec
(`linkDefinition_of_agrees`), but `add_link` has an exit before it, so an
accepted Link is resolved exactly when it does not take that one
(`admitted_resolves_iff`).
-/
import KasmCloud.Controller.LinksTheorems

namespace KasmCloud

open Lib V1alpha1

/-- The definition a Link stands for: resolution, without the exit at its
start. -/
def linkDefinition (cluster : Cluster) (link : Link) : Except Action LinkDefinition := do
  let ld ← resolveActor cluster link.spec (initialDefinition link.spec link.status)
  resolveProvider cluster link.spec ld

theorem resolveLink_eq (cluster : Cluster) (link : Link) :
    resolveLink cluster link =
      if link.spec.linkName = "" ∧ link.spec.provider.key ≠ "" then .error .awaitChange
      else linkDefinition cluster link := rfl

/-- The provider a Link names has the link name of the spec, if the spec has
one. -/
def Cluster.ConsistentWith (cluster : Cluster) (spec : LinkSpec) : Prop :=
  ∀ provider, cluster.provider spec.provider.name = some provider →
    spec.linkName = "" ∨ spec.linkName = provider.spec.link

/-- A definition whose provider is looked up has the link name of the spec. -/
theorem initialDefinition_open {spec : LinkSpec} {status : Option LinkStatus}
    (hopen : (initialDefinition spec status).providerId = "" ∨
      (initialDefinition spec status).linkName = "") :
    (initialDefinition spec status).linkName = spec.linkName := by
  unfold initialDefinition at hopen ⊢
  split
  · rename_i stored
    dsimp only at hopen
    by_cases hcomplete : stored.complete = true
    · rw [if_pos hcomplete] at hopen
      simp only [LinkStatus.complete, Bool.and_eq_true, bne_iff_ne, ne_eq] at hcomplete
      exact absurd hopen (not_or.mpr ⟨hcomplete.1.1, hcomplete.2⟩)
    · rw [if_neg hcomplete]
  · rfl

/-- For an admitted Link that is consistent with the provider it names,
resolution ends in a definition or asks to be tried again. -/
theorem linkDefinition_ne_await {cluster : Cluster} {link : Link} (hvalid : link.validate = [])
    (hconsistent : cluster.ConsistentWith link.spec) :
    linkDefinition cluster link ≠ .error .awaitChange := by
  obtain ⟨hactor, hprovider, -⟩ := Link.validate_eq_nil hvalid
  intro h
  unfold linkDefinition at h
  cases hresolve : resolveActor cluster link.spec (initialDefinition link.spec link.status) with
  | error action =>
    rw [hresolve] at h
    cases h
    unfold resolveActor at hresolve
    split at hresolve
    · split at hresolve
      · cases hresolve
      · rename_i hkey
        rw [if_pos (hactor.resolve_left hkey)] at hresolve
        repeat' split at hresolve
        all_goals cases hresolve
    · cases hresolve
  | ok ld =>
    rw [hresolve] at h
    obtain ⟨hld, -⟩ := resolveActor_ok hresolve
    have hprovided : resolveProvider cluster link.spec ld = .error .awaitChange := h
    unfold resolveProvider at hprovided
    split at hprovided
    · rename_i hopen
      have hname : ld.linkName = link.spec.linkName := by
        rw [hld] at hopen ⊢
        exact initialDefinition_open hopen
      split at hprovided
      · split at hprovided
        · rename_i provider hfound
          split at hprovided
          · -- the link names differ
            rename_i hdiffer
            rw [hname] at hdiffer
            rcases hconsistent provider hfound with hnone | hsame
            · exact hdiffer.1 hnone
            · exact hdiffer.2 hsame
          · repeat' split at hprovided
            all_goals cases hprovided
        · cases hprovided
      · rename_i hunnamed
        rw [if_pos (hprovider.resolve_right hunnamed)] at hprovided
        cases hprovided
    · cases hprovided

/-- `add_link` where the definition is complete. -/
theorem addLink_resolved (sha256 : String → String) (ctx : Ctx) {cluster : Cluster} {link : Link}
    {ld : LinkDefinition} (h : resolveLink cluster link = .ok ld) (publish : PublishOutcome) :
    (addLink sha256 ctx cluster link publish).action = .awaitChange ∧
      (addLink sha256 ctx cluster link publish).ctx =
        (ctx.installLink sha256 link.name ld publish).1 ∧
      (addLink sha256 ctx cluster link publish).patch =
        if (ctx.installLink sha256 link.name ld publish).2 = true then
          if link.status = some ld.status then none else some ld.status
        else none := by
  simp only [addLink, h]
  rcases ctx.installLink sha256 link.name ld publish with ⟨ctx', _ | _⟩
  · simp
  · dsimp only
    split <;> simp

/-- `add_link` where an exit is taken before the definition is complete. -/
theorem addLink_unresolved (sha256 : String → String) (ctx : Ctx) {cluster : Cluster} {link : Link}
    {action : Action} (h : resolveLink cluster link = .error action) (publish : PublishOutcome) :
    addLink sha256 ctx cluster link publish = ⟨action, ctx, none⟩ := by
  simp only [addLink, h]

/-! ## The reference definition -/

/-- The public key published for an actor; empty if there is none. -/
def Cluster.actorKey (cluster : Cluster) (name : String) : String :=
  ((cluster.actor name).bind (·.status)).elim "" (·.publicKey)

/-- The public key published for a provider; empty if there is none. -/
def Cluster.providerKey (cluster : Cluster) (name : String) : String :=
  ((cluster.provider name).bind (·.status)).elim "" (·.publicKey)

def Cluster.providerLink (cluster : Cluster) (name : String) : String :=
  (cluster.provider name).elim "" (·.spec.link)

/-- A named provider has published its key, and what the spec gives next to
the name is what the provider has. -/
structure Cluster.ProviderAgrees (cluster : Cluster) (spec : LinkSpec) : Prop where
  published : spec.provider.name ≠ "" → cluster.providerKey spec.provider.name ≠ ""
  sameKey : spec.provider.name ≠ "" → spec.provider.key ≠ "" →
    spec.provider.key = cluster.providerKey spec.provider.name
  sameLink : spec.provider.name ≠ "" → spec.linkName ≠ "" →
    spec.linkName = cluster.providerLink spec.provider.name

/-- The objects that a spec names are there and agree with it. -/
structure Cluster.Agrees (cluster : Cluster) (spec : LinkSpec) : Prop where
  actor : spec.actor.name ≠ "" → cluster.actorKey spec.actor.name ≠ ""
  provider : cluster.ProviderAgrees spec

/-- What a spec stands for. -/
def referenceDefinition (cluster : Cluster) (spec : LinkSpec) : LinkDefinition where
  actorId := if spec.actor.key ≠ "" then spec.actor.key else cluster.actorKey spec.actor.name
  providerId :=
    if spec.provider.name ≠ "" then cluster.providerKey spec.provider.name else spec.provider.key
  linkName :=
    if spec.provider.name ≠ "" then cluster.providerLink spec.provider.name else spec.linkName
  contractId := spec.contractId
  values := spec.values

/-- No part of the id is missing. -/
def LinkDefinition.Complete (ld : LinkDefinition) : Prop :=
  ld.actorId ≠ "" ∧ ld.providerId ≠ "" ∧ ld.linkName ≠ ""

theorem Cluster.actor_of_key {cluster : Cluster} {name : String}
    (h : cluster.actorKey name ≠ "") :
    ∃ actor status, cluster.actor name = some actor ∧ actor.status = some status ∧
      status.publicKey = cluster.actorKey name := by
  unfold Cluster.actorKey at h ⊢
  cases hactor : cluster.actor name with
  | none => simp [hactor] at h
  | some actor =>
    cases hstatus : actor.status with
    | none => simp [hactor, hstatus] at h
    | some status => exact ⟨actor, status, rfl, hstatus, by simp [hstatus]⟩

theorem Cluster.provider_of_key {cluster : Cluster} {name : String}
    (h : cluster.providerKey name ≠ "") :
    ∃ provider status, cluster.provider name = some provider ∧
      provider.status = some status ∧ status.publicKey = cluster.providerKey name ∧
      provider.spec.link = cluster.providerLink name := by
  unfold Cluster.providerKey at h ⊢
  cases hprovider : cluster.provider name with
  | none => simp [hprovider] at h
  | some provider =>
    cases hstatus : provider.status with
    | none => simp [hprovider, hstatus] at h
    | some status =>
      exact ⟨provider, status, rfl, hstatus, by simp [hstatus],
        by simp [Cluster.providerLink, hprovider]⟩

/-- The actor of an accepted spec. -/
theorem resolveActor_of_agrees {cluster : Cluster} {spec : LinkSpec}
    (hactor : spec.actor.key ≠ "" ∨ spec.actor.name ≠ "")
    (hpublished : spec.actor.name ≠ "" → cluster.actorKey spec.actor.name ≠ "") :
    resolveActor cluster spec (initialDefinition spec none) =
      .ok { initialDefinition spec none with
        actorId := (referenceDefinition cluster spec).actorId } := by
  have hunknown : (initialDefinition spec none).actorId = "" := rfl
  unfold resolveActor
  rw [if_pos hunknown]
  by_cases hkey : spec.actor.key = ""
  · have hname := hactor.resolve_left (not_not_intro hkey)
    obtain ⟨actor, status, hfound, hstatus, hsame⟩ := Cluster.actor_of_key (hpublished hname)
    rw [if_neg (not_not_intro hkey), if_pos hname, hfound]
    dsimp only
    rw [hstatus]
    dsimp only
    rw [if_neg (by rw [hsame]; exact hpublished hname), hsame]
    simp only [referenceDefinition, if_neg (not_not_intro hkey)]
  · rw [if_pos hkey]
    simp only [referenceDefinition, if_pos hkey]

/-- The provider of an accepted spec, when the actor is known. -/
theorem resolveProvider_of_agrees {cluster : Cluster} {spec : LinkSpec}
    (hprovider : spec.provider.key ≠ "" ∨ spec.provider.name ≠ "")
    (hagrees : cluster.ProviderAgrees spec) (actorId : String) :
    resolveProvider cluster spec { initialDefinition spec none with actorId } =
      .ok { referenceDefinition cluster spec with actorId } := by
  unfold resolveProvider
  rw [if_pos (.inl rfl)]
  by_cases hname : spec.provider.name = ""
  · have hkey := hprovider.resolve_right (not_not_intro hname)
    rw [if_neg (not_not_intro hname), if_pos hkey]
    simp only [referenceDefinition, if_neg (not_not_intro hname)]
    rfl
  · have hpublished := hagrees.published hname
    obtain ⟨provider, status, hfound, hstatus, hsame, hlink⟩ :=
      Cluster.provider_of_key hpublished
    have hsameLink : ¬ ((initialDefinition spec none).linkName ≠ "" ∧
        (initialDefinition spec none).linkName ≠ provider.spec.link) := by
      rintro ⟨hset, hdiffer⟩
      exact hdiffer ((hagrees.sameLink hname hset).trans hlink.symm)
    have hsameKey : ¬ (spec.provider.key ≠ "" ∧ status.publicKey ≠ spec.provider.key) := by
      rintro ⟨hset, hdiffer⟩
      exact hdiffer (hsame.trans (hagrees.sameKey hname hset).symm)
    rw [if_pos hname, hfound]
    dsimp only
    rw [if_neg hsameLink, hstatus]
    dsimp only
    rw [if_neg (by rw [hsame]; exact hpublished), if_neg hsameKey]
    simp only [referenceDefinition, if_pos hname, hsame, hlink]
    rfl

/-- Without the exit at its start, resolution gives an accepted spec its
reference definition. -/
theorem linkDefinition_of_agrees {cluster : Cluster} {name : String} {spec : LinkSpec}
    (hvalid : Link.validate ⟨name, spec, none⟩ = []) (hagrees : cluster.Agrees spec) :
    linkDefinition cluster ⟨name, spec, none⟩ = .ok (referenceDefinition cluster spec) := by
  obtain ⟨hactor, hprovider, -⟩ := Link.validate_eq_nil hvalid
  unfold linkDefinition
  rw [resolveActor_of_agrees hactor hagrees.actor]
  exact resolveProvider_of_agrees hprovider hagrees.provider _

/-- A provider that does not agree with the spec is not resolved. -/
theorem linkDefinition_of_disagrees {cluster : Cluster} {name : String} {spec : LinkSpec}
    (hdisagrees : ¬ cluster.ProviderAgrees spec) :
    ∃ action, linkDefinition cluster ⟨name, spec, none⟩ = .error action := by
  cases hdefinition : linkDefinition cluster ⟨name, spec, none⟩ with
  | error action => exact ⟨action, rfl⟩
  | ok ld =>
    refine absurd ?_ hdisagrees
    unfold linkDefinition at hdefinition
    cases hresolve : resolveActor cluster spec (initialDefinition spec none) with
    | error action => rw [hresolve] at hdefinition; cases hdefinition
    | ok ld' =>
      rw [hresolve] at hdefinition
      obtain ⟨hld, -⟩ := resolveActor_ok hresolve
      have hprovided : resolveProvider cluster spec ld' = .ok ld := hdefinition
      have hopen : ld'.providerId = "" ∨ ld'.linkName = "" := by rw [hld]; exact .inl rfl
      have hname : ld'.linkName = spec.linkName := by rw [hld]; rfl
      unfold resolveProvider at hprovided
      rw [if_pos hopen, hname] at hprovided
      -- every test on the way to a definition is one of the three fields
      split at hprovided
      · split at hprovided
        · rename_i provider hfound
          split at hprovided
          · cases hprovided
          · rename_i hlink
            split at hprovided
            · rename_i status hstatus
              have hproviderKey : cluster.providerKey spec.provider.name = status.publicKey := by
                simp [Cluster.providerKey, hfound, hstatus]
              have hproviderLink : cluster.providerLink spec.provider.name = provider.spec.link := by
                simp [Cluster.providerLink, hfound]
              split at hprovided
              · cases hprovided
              · rename_i hpublished
                split at hprovided
                · cases hprovided
                · rename_i hkey
                  refine ⟨fun _ => ?_, fun _ hset => ?_, fun _ hset => ?_⟩
                  · rw [hproviderKey]
                    exact hpublished
                  · rw [hproviderKey]
                    exact (not_not.mp fun hdiffer => hkey ⟨hset, hdiffer⟩).symm
                  · rw [hproviderLink]
                    exact not_not.mp fun hdiffer => hlink ⟨hset, hdiffer⟩
            · cases hprovided
        · cases hprovided
      · rename_i hunnamed
        exact ⟨fun h => absurd h hunnamed, fun h => absurd h hunnamed, fun h => absurd h hunnamed⟩

/-- The reference definition of an accepted spec is complete. -/
theorem referenceDefinition_complete {cluster : Cluster} (hadm : cluster.Admitted) {name : String}
    {spec : LinkSpec} (hvalid : Link.validate ⟨name, spec, none⟩ = [])
    (hagrees : cluster.Agrees spec) : (referenceDefinition cluster spec).Complete := by
  obtain ⟨hactor, hprovider, hlink⟩ := Link.validate_eq_nil hvalid
  refine ⟨?_, ?_, ?_⟩
  · by_cases hkey : spec.actor.key = ""
    · simp only [referenceDefinition, if_neg (not_not_intro hkey)]
      exact hagrees.actor (hactor.resolve_left (not_not_intro hkey))
    · simp only [referenceDefinition, if_pos hkey]
      exact hkey
  · by_cases hname : spec.provider.name = ""
    · simp only [referenceDefinition, if_neg (not_not_intro hname)]
      exact hprovider.resolve_right (not_not_intro hname)
    · simp only [referenceDefinition, if_pos hname]
      exact hagrees.provider.published hname
  · by_cases hname : spec.provider.name = ""
    · simp only [referenceDefinition, if_neg (not_not_intro hname)]
      exact hlink.resolve_left (not_not_intro hname)
    · simp only [referenceDefinition, if_pos hname]
      obtain ⟨provider, status, hfound, -, -, hsame⟩ :=
        Cluster.provider_of_key (hagrees.provider.published hname)
      rw [← hsame]
      exact hadm _ provider hfound

/-! ## Accepted Links -/

section Sha256

variable (sha256 : String → String)

/-- `add_link` reaches the install step with the reference definition. -/
def InstallsReference (cluster : Cluster) (link : Link) : Prop :=
  resolveLink cluster link = .ok (referenceDefinition cluster link.spec) ∧
    ∀ ctx publish, (addLink sha256 ctx cluster link publish).ctx =
      (ctx.installLink sha256 link.name (referenceDefinition cluster link.spec) publish).1

/-- `add_link` leaves every table as it is. -/
def InstallsNothing (cluster : Cluster) (link : Link) : Prop :=
  ∀ ctx publish, (addLink sha256 ctx cluster link publish).ctx = ctx

/-- A Link that admission accepts is resolved to its reference definition,
unless it gives a provider's key and name and leaves the link name to the
provider: the exit at the start of `add_link` takes it for a Link that has
no provider's name. -/
theorem admitted_resolves_iff {cluster : Cluster} (hadm : cluster.Admitted) {name : String}
    {spec : LinkSpec} (hvalid : Link.validate ⟨name, spec, none⟩ = []) :
    ((cluster.Agrees spec →
        InstallsReference sha256 cluster ⟨name, spec, none⟩ ∧
          (referenceDefinition cluster spec).Complete) ∧
      (¬ cluster.ProviderAgrees spec → InstallsNothing sha256 cluster ⟨name, spec, none⟩)) ↔
      (cluster.Agrees spec → spec.linkName = "" → spec.provider.key = "") := by
  constructor
  · rintro ⟨hreference, -⟩ hagrees hlink
    by_contra hkey
    obtain ⟨⟨hresolve, -⟩, -⟩ := hreference hagrees
    rw [resolveLink_eq, if_pos ⟨hlink, hkey⟩] at hresolve
    cases hresolve
  · intro hcond
    refine ⟨fun hagrees => ?_, fun hdisagrees ctx publish => ?_⟩
    · have hresolve : resolveLink cluster ⟨name, spec, none⟩ =
          .ok (referenceDefinition cluster spec) := by
        rw [resolveLink_eq, if_neg fun hexit => hexit.2 (hcond hagrees hexit.1)]
        exact linkDefinition_of_agrees hvalid hagrees
      refine ⟨⟨hresolve, fun ctx publish => ?_⟩, referenceDefinition_complete hadm hvalid hagrees⟩
      exact (addLink_resolved sha256 ctx hresolve publish).2.1
    · obtain ⟨action, hdefinition⟩ := @linkDefinition_of_disagrees cluster name spec hdisagrees
      by_cases hexit : spec.linkName = "" ∧ spec.provider.key ≠ ""
      · rw [addLink_unresolved sha256 ctx (by rw [resolveLink_eq, if_pos hexit])]
      · rw [addLink_unresolved sha256 ctx (by rw [resolveLink_eq, if_neg hexit]; exact hdefinition)]

end Sha256

/-! ## A Link with a provider's key and name -/

/-- The cluster has one provider, "kv", with key "V" and link "default". -/
def clusterKv : Cluster where
  actor _ := none
  provider name :=
    if name = "kv" then
      some ⟨"kv", ⟨"host", "image", "default"⟩,
        some ⟨"V", "wasmcloud:keyvalue", none, ⟨"A", "V", 0, none, none⟩, [], "vendor", none, none,
          [], ""⟩⟩
    else none

/-- A Link of actor "M" that names the provider and gives its key. -/
def specKv (linkName : String) : LinkSpec :=
  ⟨linkName, ⟨"V", "kv"⟩, ⟨"M", ""⟩, "wasmcloud:keyvalue", ∅⟩

theorem clusterKv_admitted : clusterKv.Admitted := by
  intro name provider h
  unfold clusterKv at h
  dsimp only at h
  split at h
  · cases h
    decide
  · cases h

theorem clusterKv_agrees {linkName : String} (h : linkName ≠ "" → linkName = "default") :
    clusterKv.Agrees (specKv linkName) := by
  have hkey : clusterKv.providerKey "kv" = "V" := rfl
  have hpublished : clusterKv.providerKey "kv" ≠ "" := by rw [hkey]; decide
  exact ⟨(fun hactor => absurd rfl hactor), ⟨(fun _ => hpublished), (fun _ _ => hkey.symm),
    (fun _ => h)⟩⟩

/-- Without a link name the Link is accepted, the provider agrees with it,
and still nothing is installed. -/
theorem unnamedLink_not_resolved :
    clusterKv.Admitted ∧ Link.validate ⟨"l", specKv "", none⟩ = [] ∧ clusterKv.Agrees (specKv "") ∧
      InstallsNothing id clusterKv ⟨"l", specKv "", none⟩ ∧
      ¬ InstallsReference id clusterKv ⟨"l", specKv "", none⟩ :=
  ⟨clusterKv_admitted, rfl, clusterKv_agrees (fun h => absurd rfl h), (fun _ _ => rfl),
    (fun h => nomatch h.1)⟩

/-- With the provider's link name it is resolved. -/
theorem namedLink_resolved :
    clusterKv.Agrees (specKv "default") ∧
      InstallsReference id clusterKv ⟨"l", specKv "default", none⟩ := by
  have hagrees := @clusterKv_agrees "default" (fun _ => rfl)
  have hresolves := (@admitted_resolves_iff id clusterKv clusterKv_admitted "l"
    (specKv "default") rfl).mpr (fun _ h => absurd h (by decide))
  exact ⟨hagrees, (hresolves.1 hagrees).1⟩

end KasmCloud
