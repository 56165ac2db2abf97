/-
KasmCloud.Controller.LinksTheorems — what one `add_link` or `delete_link`
run does to the tables, and when a definition is resolved again the same.

The lemmas follow the branches of `installLink` and `releaseLink`: entry
vacant or occupied, hash free or in use, last name or not. Later modules
cite them and do not unfold the two functions.
-/
import KasmCloud.Controller.Links

namespace KasmCloud

open Lib V1alpha1

/-! ## Resolution -/

@[simp] theorem status_complete (ld : LinkDefinition) :
    ld.status.complete = true ↔ ld.providerId ≠ "" ∧ ld.actorId ≠ "" ∧ ld.linkName ≠ "" := by
  simp [LinkStatus.complete, LinkDefinition.status, and_assoc]

/-- Resolution of the actor fills in the actor's key and nothing else. -/
theorem resolveActor_ok {cluster : Cluster} {spec : LinkSpec} {ld ld' : LinkDefinition}
    (h : resolveActor cluster spec ld = .ok ld') :
    ld' = { ld with actorId := ld'.actorId } ∧ ld'.actorId ≠ "" := by
  unfold resolveActor at h
  repeat' split at h
  all_goals first
    | (cases h; done)
    | (cases h; simp_all)

/-- Resolution of the provider fills in its key and link name and nothing
else. -/
theorem resolveProvider_ok {cluster : Cluster} {spec : LinkSpec} {ld ld' : LinkDefinition}
    (h : resolveProvider cluster spec ld = .ok ld') :
    ld' = { ld with providerId := ld'.providerId, linkName := ld'.linkName } ∧
      ld'.providerId ≠ "" := by
  unfold resolveProvider at h
  repeat' split at h
  all_goals first
    | (cases h; done)
    | (cases h; simp_all)

theorem initialDefinition_spec (spec : LinkSpec) (status : Option LinkStatus) :
    (initialDefinition spec status).contractId = spec.contractId ∧
      (initialDefinition spec status).values = spec.values := by
  unfold initialDefinition
  split
  · split <;> simp
  · simp

/-- A resolved definition has the contract and the values of the spec, and
names an actor and a provider. -/
theorem resolveLink_ok {cluster : Cluster} {link : Link} {ld : LinkDefinition}
    (h : resolveLink cluster link = .ok ld) :
    ld.contractId = link.spec.contractId ∧ ld.values = link.spec.values ∧
      ld.actorId ≠ "" ∧ ld.providerId ≠ "" := by
  unfold resolveLink at h
  split at h
  · cases h
  · cases hactor : resolveActor cluster link.spec (initialDefinition link.spec link.status) with
    | error action => rw [hactor] at h; cases h
    | ok ld₁ =>
      rw [hactor] at h
      obtain ⟨h1, hkey⟩ := resolveActor_ok hactor
      obtain ⟨h2, hprov⟩ := resolveProvider_ok h
      obtain ⟨hc, hv⟩ := initialDefinition_spec link.spec link.status
      refine ⟨?_, ?_, ?_, hprov⟩
      · rw [h2, h1]; exact hc
      · rw [h2, h1]; exact hv
      · rw [h2]; exact hkey

/-- With a complete status no lookup is made: the definition has the keys of
the status. -/
theorem resolveLink_of_status (cluster : Cluster) {link : Link} {status : LinkStatus}
    (hstatus : link.status = some status) (hcomplete : status.complete = true) :
    resolveLink cluster link =
      if link.spec.linkName = "" ∧ link.spec.provider.key ≠ "" then .error .awaitChange
      else .ok
        { actorId := status.actorKey, providerId := status.providerKey,
          linkName := status.linkName, contractId := link.spec.contractId,
          values := link.spec.values } := by
  have hparts := hcomplete
  simp only [LinkStatus.complete, Bool.and_eq_true, bne_iff_ne, ne_eq] at hparts
  obtain ⟨⟨hp, ha⟩, hl⟩ := hparts
  have hinit : initialDefinition link.spec (some status) =
      { actorId := status.actorKey, providerId := status.providerKey,
        linkName := status.linkName, contractId := link.spec.contractId,
        values := link.spec.values } := by
    simp [initialDefinition, hcomplete]
  unfold resolveLink
  split
  · rfl
  · rw [hstatus, hinit]
    simp [resolveActor, resolveProvider, ha, hp, hl, bind, Except.bind]

/-- A definition resolved once is resolved again from the status it led to,
whatever the lookups would answer by then. -/
theorem resolveLink_again {cluster : Cluster} (cluster' : Cluster) {name : String}
    {spec : LinkSpec} {status : Option LinkStatus} {ld : LinkDefinition}
    (h : resolveLink cluster ⟨name, spec, status⟩ = .ok ld) (hlink : ld.linkName ≠ "") :
    resolveLink cluster' ⟨name, spec, some ld.status⟩ = .ok ld := by
  obtain ⟨hc, hv, ha, hp⟩ := resolveLink_ok h
  have hcomplete : ld.status.complete = true := by simp [ha, hp, hlink]
  rw [resolveLink_of_status cluster' rfl hcomplete]
  have hexit : ¬ (spec.linkName = "" ∧ spec.provider.key ≠ "") := by
    intro hexit
    simp [resolveLink, hexit] at h
  rw [if_neg hexit]
  obtain ⟨a, p, l, c, v⟩ := ld
  simp only at hc hv
  simp [LinkDefinition.status, hc, hv]

/-- The id under which a status is released: the one its keys spell. -/
def statusId (spec : LinkSpec) (status : LinkStatus) : String :=
  linkId spec.contractId status.actorKey status.linkName

/-- Once a complete status is stored, the id does not change any more. -/
theorem resolveLink_id_of_status {cluster : Cluster} {link : Link} {status : LinkStatus}
    {ld : LinkDefinition} (hstatus : link.status = some status)
    (hcomplete : status.complete = true) (h : resolveLink cluster link = .ok ld) :
    ld.id = statusId link.spec status := by
  rw [resolveLink_of_status cluster hstatus hcomplete] at h
  split at h
  · cases h
  · cases h
    rfl

/-- The id of a resolved definition is the id of the status it leads to. -/
theorem statusId_status {cluster : Cluster} {link : Link} {ld : LinkDefinition}
    (h : resolveLink cluster link = .ok ld) : statusId link.spec ld.status = ld.id := by
  obtain ⟨hc, -⟩ := resolveLink_ok h
  simp [statusId, LinkDefinition.id, LinkDefinition.status, hc]

/-- A provider object the API server can hold: the schema wants its link name
non-empty. -/
def Cluster.Admitted (cluster : Cluster) : Prop :=
  ∀ name provider, cluster.provider name = some provider → provider.spec.link ≠ ""

/-- With admitted provider objects a resolved definition has a link name. -/
theorem resolveLink_linkName {cluster : Cluster} (hadm : cluster.Admitted) {link : Link}
    {ld : LinkDefinition} (h : resolveLink cluster link = .ok ld) : ld.linkName ≠ "" := by
  unfold resolveLink at h
  split at h
  · cases h
  · rename_i hexit
    cases hactor : resolveActor cluster link.spec (initialDefinition link.spec link.status) with
    | error action => rw [hactor] at h; cases h
    | ok ld₁ =>
      rw [hactor] at h
      simp only [bind, Except.bind, resolveProvider] at h
      split at h
      · rename_i hopen
        split at h
        · -- by name: the link name is the provider's
          repeat' split at h
          all_goals first
            | (cases h; done)
            | (cases h; exact hadm _ _ (by assumption))
        · -- by key: the spec's own link name
          split at h
          · rename_i hkey
            cases h
            have hspec : link.spec.linkName ≠ "" := fun he => hexit ⟨he, hkey⟩
            have hld : ld₁.linkName = (initialDefinition link.spec link.status).linkName := by
              rw [(resolveActor_ok hactor).1]
            simp only [hld, initialDefinition]
            split
            · split
              · rename_i hcomplete
                simp only [LinkStatus.complete, Bool.and_eq_true, bne_iff_ne, ne_eq] at hcomplete
                exact hcomplete.2
              · exact hspec
            · exact hspec
          · cases h
      · rename_i hclosed
        cases h
        exact fun he => hclosed (.inr he)

/-! ## Installing a definition -/

section Sha256

variable (sha256 : String → String) {ctx : Ctx} {ld : LinkDefinition}

/-- An occupied entry is joined: the host is not asked. -/
theorem installLink_occupied {found : LinkDefinition} {names : Finset String}
    (h : ctx.links.lookup ld.id = some (found, names)) (name : String)
    (publish : PublishOutcome) :
    ctx.installLink sha256 name ld publish =
      ({ ctx with links := ctx.links.insert ld.id (found, insert name names) }, true) := by
  simp [Ctx.installLink, h]

/-- A vacant entry with the hash in use: the entry is made, the host stays. -/
theorem installLink_skip (h : ctx.links.lookup ld.id = none) {found : LinkDefinition}
    (hused : ctx.host.links.lookup (ld.hash sha256) = some found) (name : String)
    (publish : PublishOutcome) :
    ctx.installLink sha256 name ld publish =
      ({ ctx with links := ctx.links.insert ld.id (ld, {name}) }, true) := by
  simp [Ctx.installLink, h, addLinkdef_of_some sha256 _ _ _ hused]

/-- A vacant entry with the hash free: the host stores the definition in any
case; the entry is made when the message goes out. -/
theorem installLink_fresh (h : ctx.links.lookup ld.id = none)
    (hfree : ctx.host.links.lookup (ld.hash sha256) = none) (name : String)
    (publish : PublishOutcome) :
    (ctx.installLink sha256 name ld publish).1.host = (ctx.host.addLinkdef sha256 ld publish).1 ∧
      (ctx.installLink sha256 name ld publish).1.links =
        (if publish = .sent then ctx.links.insert ld.id (ld, {name}) else ctx.links) ∧
      ((ctx.installLink sha256 name ld publish).2 = true ↔ publish = .sent) := by
  have hok := (addLinkdef_of_none sha256 ctx.host ld publish hfree).2.2
  unfold Ctx.installLink
  rw [h]
  rcases hres : ctx.host.addLinkdef sha256 ld publish with ⟨host, res⟩
  rw [hres] at hok
  cases res with
  | ok u =>
    have hsent : publish = .sent := hok.mp rfl
    simp [hsent]
  | error e =>
    have hsent : publish ≠ .sent := fun hs => by simpa using hok.mpr hs
    simp [hsent]

/-- What the section reports: it failed to publish a new definition, or it
went through. -/
theorem installLink_ok_iff (ctx : Ctx) (name : String) (ld : LinkDefinition)
    (publish : PublishOutcome) :
    (ctx.installLink sha256 name ld publish).2 = true ↔
      (ctx.links.lookup ld.id = none → ctx.host.links.lookup (ld.hash sha256) = none →
        publish = .sent) := by
  cases hentry : ctx.links.lookup ld.id with
  | some entry =>
    rw [installLink_occupied sha256 hentry]
    simp
  | none =>
    cases hhash : ctx.host.links.lookup (ld.hash sha256) with
    | some found =>
      rw [installLink_skip sha256 hentry hhash]
      simp
    | none =>
      obtain ⟨-, -, hok⟩ := installLink_fresh sha256 hentry hhash name publish
      rw [hok]
      simp

/-! ## Releasing a reference -/

variable {name id : String} {names : Finset String}

theorem releaseLink_vacant (h : ctx.links.lookup id = none) (name : String) (publish : PublishOutcome) :
    ctx.releaseLink sha256 name id publish = (.awaitChange, ctx) := by
  simp [Ctx.releaseLink, h]

/-- Another name is left: only the name goes. -/
theorem releaseLink_shared (h : ctx.links.lookup id = some (ld, names))
    (hne : names.erase name ≠ ∅) (publish : PublishOutcome) :
    ctx.releaseLink sha256 name id publish =
      (.awaitChange, { ctx with links := ctx.links.insert id (ld, names.erase name) }) := by
  simp [Ctx.releaseLink, h, hne]

/-- No name is left, and the host does not have the definition: the run fails
and the entry stays. -/
theorem releaseLink_missing (h : ctx.links.lookup id = some (ld, names))
    (heq : names.erase name = ∅) (hfree : ctx.host.links.lookup (ld.hash sha256) = none)
    (publish : PublishOutcome) :
    ctx.releaseLink sha256 name id publish =
      (.requeue 10, { ctx with links := ctx.links.insert id (ld, ∅) }) := by
  simp [Ctx.releaseLink, h, heq, deleteLinkdef_of_none sha256 _ _ _ hfree]

/-- No name is left, and the host has a definition under the hash: it goes in
any case; the entry goes when the message goes out. -/
theorem releaseLink_last (h : ctx.links.lookup id = some (ld, names))
    (heq : names.erase name = ∅) {found : LinkDefinition}
    (hused : ctx.host.links.lookup (ld.hash sha256) = some found) (publish : PublishOutcome) :
    (ctx.releaseLink sha256 name id publish).2.host =
        (ctx.host.deleteLinkdef sha256 ld publish).1 ∧
      (ctx.releaseLink sha256 name id publish).2.links =
        (if publish = .sent then ctx.links.erase id else ctx.links.insert id (ld, ∅)) ∧
      (ctx.releaseLink sha256 name id publish).1 =
        (if publish = .sent then .awaitChange else .requeue 10) := by
  have hok := (deleteLinkdef_of_some sha256 ctx.host ld publish hused).2.2
  unfold Ctx.releaseLink
  simp only [h, heq, if_true]
  rcases hres : ctx.host.deleteLinkdef sha256 ld publish with ⟨host, res⟩
  rw [hres] at hok
  cases res with
  | ok u =>
    have hsent : publish = .sent := hok.mp rfl
    simp [hsent]
  | error e =>
    have hsent : publish ≠ .sent := fun hs => by simpa using hok.mpr hs
    simp [hsent]

/-- `delete_link` releases the reference its status names. -/
theorem deleteLink_of_status {link : Link} {status : LinkStatus}
    (hstatus : link.status = some status) (hcomplete : status.complete = true)
    (publish : PublishOutcome) :
    deleteLink sha256 ctx link publish =
      ctx.releaseLink sha256 link.name (statusId link.spec status) publish := by
  simp [deleteLink, statusId, hstatus, hcomplete]

/-- `delete_link` without a complete status does nothing. -/
theorem deleteLink_of_incomplete (ctx : Ctx) {link : Link}
    (h : ∀ status, link.status = some status → status.complete = false)
    (publish : PublishOutcome) :
    deleteLink sha256 ctx link publish = (.awaitChange, ctx) := by
  unfold deleteLink
  split
  · rename_i status hstatus
    simp [h status hstatus]
  · rfl

/-! ## The host after a run -/

/-- A run of `add_link` calls `add_linkdef` once, or not at all. -/
theorem addLink_host (ctx : Ctx) (cluster : Cluster) (link : Link) (publish : PublishOutcome) :
    (addLink sha256 ctx cluster link publish).ctx.host = ctx.host ∨
      ∃ ld, (addLink sha256 ctx cluster link publish).ctx.host =
        (ctx.host.addLinkdef sha256 ld publish).1 := by
  unfold addLink
  split
  · exact .inl rfl
  · rename_i ld _
    have hinstalled : (ctx.installLink sha256 link.name ld publish).1.host = ctx.host ∨
        (ctx.installLink sha256 link.name ld publish).1.host =
          (ctx.host.addLinkdef sha256 ld publish).1 := by
      unfold Ctx.installLink
      split
      · split <;> rename_i hresult <;> exact .inr (by rw [hresult])
      · exact .inl rfl
    have hrun : (ctx.installLink sha256 link.name ld publish).1.host = ctx.host ∨
        ∃ ld', (ctx.installLink sha256 link.name ld publish).1.host =
          (ctx.host.addLinkdef sha256 ld' publish).1 := hinstalled.imp_right fun h => ⟨ld, h⟩
    split
    · rename_i ctx' hresult
      rw [hresult] at hrun
      exact hrun
    · rename_i ctx' hresult
      rw [hresult] at hrun
      split <;> exact hrun

/-- A run of `delete_link` calls `delete_linkdef` once, or not at all. -/
theorem deleteLink_host (ctx : Ctx) (link : Link) (publish : PublishOutcome) :
    (deleteLink sha256 ctx link publish).2.host = ctx.host ∨
      ∃ ld, (deleteLink sha256 ctx link publish).2.host =
        (ctx.host.deleteLinkdef sha256 ld publish).1 := by
  unfold deleteLink
  split
  · split
    · unfold Ctx.releaseLink
      split
      · exact .inl rfl
      · rename_i ld names _
        split
        · split <;> rename_i hresult <;> exact .inr ⟨ld, by rw [hresult]⟩
        · exact .inl rfl
    · exact .inl rfl
  · exact .inl rfl

/-! ## One run of the Link controller -/

variable {w : LinkWorld} {spec : String → LinkSpec} {cluster : Cluster}
  {publish : PublishOutcome} {patched : Bool}

/-- A run works on the tables as `installLink` does, if it has a definition. -/
theorem addLink_ctx (ctx : Ctx) (cluster : Cluster) (link : Link) (publish : PublishOutcome) :
    (addLink sha256 ctx cluster link publish).ctx =
      match resolveLink cluster link with
      | .error _ => ctx
      | .ok ld => (ctx.installLink sha256 link.name ld publish).1 := by
  unfold addLink
  cases resolveLink cluster link with
  | error action => rfl
  | ok ld =>
    dsimp only
    rcases ctx.installLink sha256 link.name ld publish with ⟨ctx', _ | _⟩
    · rfl
    · dsimp only
      split <;> rfl

/-- Without a definition the run changes nothing. -/
theorem run_add_unresolved {action : Action}
    (h : resolveLink cluster (w.link spec name) = .error action) :
    w.run sha256 spec (.add name cluster publish patched) = w := by
  simp [LinkWorld.run, addLink, h]

/-- With a definition the tables change as `installLink` says. -/
theorem run_add_ctx (h : resolveLink cluster (w.link spec name) = .ok ld) :
    (w.run sha256 spec (.add name cluster publish patched)).ctx =
      (w.ctx.installLink sha256 name ld publish).1 := by
  have hctx := addLink_ctx sha256 w.ctx cluster (w.link spec name) publish
  rw [h] at hctx
  exact hctx

/-- The status of another Link stays. -/
theorem run_add_stored_ne {n : String} (hn : n ≠ name) :
    (w.run sha256 spec (.add name cluster publish patched)).stored.lookup n =
      w.stored.lookup n := by
  simp only [LinkWorld.run]
  split
  · split
    · simp [hn]
    · rfl
  · rfl

/-- After an installation whose patch went through the status is stored. -/
theorem run_add_stored (h : resolveLink cluster (w.link spec name) = .ok ld)
    (hinst : (w.ctx.installLink sha256 name ld publish).2 = true) :
    (w.run sha256 spec (.add name cluster publish true)).stored.lookup name =
      some ld.status := by
  have hname : (w.link spec name).name = name := rfl
  have hstatus : (w.link spec name).status = w.stored.lookup name := rfl
  simp only [LinkWorld.run, addLink, h, hname, hstatus]
  rcases hres : w.ctx.installLink sha256 name ld publish with ⟨ctx', flag⟩
  rw [hres] at hinst
  simp only at hinst
  subst hinst
  dsimp only
  split
  · rename_i hpatch
    split at hpatch
    · cases hpatch
    · cases hpatch
      simp
  · rename_i hpatch
    split at hpatch
    · assumption
    · cases hpatch

/-- Without an installation no status is written. -/
theorem run_add_stored_of_failed (h : resolveLink cluster (w.link spec name) = .ok ld)
    (hinst : (w.ctx.installLink sha256 name ld publish).2 = false) :
    (w.run sha256 spec (.add name cluster publish patched)).stored = w.stored := by
  have hname : (w.link spec name).name = name := rfl
  simp only [LinkWorld.run, addLink, h, hname]
  rcases hres : w.ctx.installLink sha256 name ld publish with ⟨ctx', flag⟩
  rw [hres] at hinst
  simp only at hinst
  subst hinst
  rfl

/-- The status a run asks to store is complete and leads to the definition's
id. -/
theorem status_of_resolved (hadm : cluster.Admitted)
    (h : resolveLink cluster (w.link spec name) = .ok ld) :
    ld.status.complete = true ∧ statusId (spec name) ld.status = ld.id := by
  obtain ⟨hc, -, ha, hp⟩ := resolveLink_ok h
  have hid := statusId_status h
  exact ⟨by simp [ha, hp, resolveLink_linkName hadm h], hid⟩

/-- A deletion does not touch the stored statuses. -/
@[simp] theorem run_delete_stored :
    (w.run sha256 spec (.delete name publish)).stored = w.stored := rfl

/-- `delete_link` on the stored object releases the reference its stored
status names. -/
theorem deleteLink_link (spec : String → LinkSpec) {status : LinkStatus}
    (hstatus : w.stored.lookup name = some status) (hcomplete : status.complete = true)
    (publish : PublishOutcome) :
    deleteLink sha256 w.ctx (w.link spec name) publish =
      w.ctx.releaseLink sha256 name (statusId (spec name) status) publish := by
  have hlink : (w.link spec name).status = some status := hstatus
  exact deleteLink_of_status sha256 hlink hcomplete publish

theorem run_delete_ctx (spec : String → LinkSpec) {status : LinkStatus}
    (hstatus : w.stored.lookup name = some status) (hcomplete : status.complete = true)
    (publish : PublishOutcome) :
    (w.run sha256 spec (.delete name publish)).ctx =
      (w.ctx.releaseLink sha256 name (statusId (spec name) status) publish).2 :=
  congrArg Prod.snd (deleteLink_link sha256 spec hstatus hcomplete publish)

theorem run_delete_of_incomplete
    (h : ∀ status, w.stored.lookup name = some status → status.complete = false) :
    w.run sha256 spec (.delete name publish) = w := by
  have hlink : ∀ status, (w.link spec name).status = some status → status.complete = false := h
  simp [LinkWorld.run, deleteLink_of_incomplete sha256 w.ctx hlink]

end Sha256

/-! ## Keys and names -/

section Tables

variable {sha256 : String → String} {ctx : Ctx}

/-- The names after an installation: those from before, and the new one in
the entry of its definition. -/
theorem installLink_names {name : String} {ld : LinkDefinition} {publish : PublishOutcome}
    {id : String} {ld' : LinkDefinition} {names : Finset String}
    (hentry : (ctx.installLink sha256 name ld publish).1.links.lookup id = some (ld', names))
    {n : String} (hn : n ∈ names) :
    (∃ found names', ctx.links.lookup id = some (found, names') ∧ n ∈ names') ∨
      n = name ∧ id = ld.id ∧ (ctx.installLink sha256 name ld publish).2 = true := by
  cases hold : ctx.links.lookup ld.id with
  | some entry =>
    obtain ⟨found, names'⟩ := entry
    rw [installLink_occupied sha256 hold] at hentry ⊢
    rw [HashMap.lookup_insert_if] at hentry
    split at hentry
    · rename_i heq
      cases hentry
      rcases Finset.mem_insert.mp hn with rfl | hin
      · exact .inr ⟨rfl, heq, rfl⟩
      · exact .inl ⟨_, names', heq ▸ hold, hin⟩
    · exact .inl ⟨ld', names, hentry, hn⟩
  | none =>
    cases hhash : ctx.host.links.lookup (ld.hash sha256) with
    | some found =>
      rw [installLink_skip sha256 hold hhash] at hentry ⊢
      rw [HashMap.lookup_insert_if] at hentry
      split at hentry
      · rename_i heq
        cases hentry
        exact .inr ⟨Finset.mem_singleton.mp hn, heq, rfl⟩
      · exact .inl ⟨ld', names, hentry, hn⟩
    | none =>
      obtain ⟨-, h2, h3⟩ := installLink_fresh sha256 hold hhash name publish
      rw [h2] at hentry
      split at hentry
      · rename_i hsent
        rw [HashMap.lookup_insert_if] at hentry
        split at hentry
        · rename_i heq
          cases hentry
          exact .inr ⟨Finset.mem_singleton.mp hn, heq, h3.mpr hsent⟩
        · exact .inl ⟨ld', names, hentry, hn⟩
      · exact .inl ⟨ld', names, hentry, hn⟩

/-- A release adds no name to any entry. -/
theorem releaseLink_names {name id : String} {publish : PublishOutcome} {id' : String}
    {ld' : LinkDefinition} {names : Finset String}
    (hentry : (ctx.releaseLink sha256 name id publish).2.links.lookup id' = some (ld', names))
    {n : String} (hn : n ∈ names) :
    ∃ found names', ctx.links.lookup id' = some (found, names') ∧ n ∈ names' := by
  unfold Ctx.releaseLink at hentry
  split at hentry
  · exact ⟨ld', names, hentry, hn⟩
  · rename_i ld old hold
    repeat' split at hentry
    · rw [HashMap.lookup_erase_if] at hentry
      split at hentry
      · cases hentry
      · exact ⟨ld', names, hentry, hn⟩
    · rw [HashMap.lookup_insert_if] at hentry
      split at hentry
      · cases hentry
        cases hn
      · exact ⟨ld', names, hentry, hn⟩
    · rw [HashMap.lookup_insert_if] at hentry
      split at hentry
      · rename_i heq
        cases hentry
        exact ⟨_, old, heq ▸ hold, Finset.mem_of_mem_erase hn⟩
      · exact ⟨ld', names, hentry, hn⟩

end Tables

section Keyed

variable (sha256 : String → String)

theorem installLink_keyed {ctx : Ctx} (h : Keyed sha256 ctx.host.links) (name : String)
    (ld : LinkDefinition) (publish : PublishOutcome) :
    Keyed sha256 (ctx.installLink sha256 name ld publish).1.host.links := by
  cases hentry : ctx.links.lookup ld.id with
  | some entry =>
    rw [installLink_occupied sha256 hentry]
    exact h
  | none =>
    cases hhash : ctx.host.links.lookup (ld.hash sha256) with
    | some found =>
      rw [installLink_skip sha256 hentry hhash]
      exact h
    | none =>
      rw [(installLink_fresh sha256 hentry hhash name publish).1,
        (addLinkdef_of_none sha256 _ _ publish hhash).1]
      exact h.insert ld

theorem releaseLink_keyed {ctx : Ctx} (h : Keyed sha256 ctx.host.links) (name id : String)
    (publish : PublishOutcome) :
    Keyed sha256 (ctx.releaseLink sha256 name id publish).2.host.links := by
  cases hentry : ctx.links.lookup id with
  | none =>
    rw [releaseLink_vacant sha256 hentry]
    exact h
  | some entry =>
    obtain ⟨ld, names⟩ := entry
    by_cases heq : names.erase name = ∅
    · cases hhash : ctx.host.links.lookup (ld.hash sha256) with
      | none =>
        rw [releaseLink_missing sha256 hentry heq hhash]
        exact h
      | some found =>
        rw [(releaseLink_last sha256 hentry heq hhash publish).1,
          (deleteLinkdef_of_some sha256 _ _ publish hhash).1]
        exact h.erase _
    · rw [releaseLink_shared sha256 hentry heq]
      exact h

/-- `add_link` changes the tables through `installLink` or not at all. -/
theorem addLink_keyed {ctx : Ctx} (h : Keyed sha256 ctx.host.links) (cluster : Cluster)
    (link : Link) (publish : PublishOutcome) :
    Keyed sha256 (addLink sha256 ctx cluster link publish).ctx.host.links := by
  unfold addLink
  split
  · exact h
  · rename_i ld _
    have hk := installLink_keyed sha256 h link.name ld publish
    split
    · rename_i hres
      rw [hres] at hk
      exact hk
    · rename_i hres
      rw [hres] at hk
      split <;> exact hk

theorem deleteLink_keyed {ctx : Ctx} (h : Keyed sha256 ctx.host.links) (link : Link)
    (publish : PublishOutcome) :
    Keyed sha256 (deleteLink sha256 ctx link publish).2.host.links := by
  unfold deleteLink
  split
  · split
    · exact releaseLink_keyed sha256 h _ _ publish
    · exact h
  · exact h

end Keyed

end KasmCloud
