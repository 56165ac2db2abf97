/-
KasmCloud.Controller.Statuses — the status that `add_link` publishes for a
Link, and the definition that is installed for it.

`publishedStatus` is the status of a run that gets past the install step,
whether the run writes it or finds it stored (`addLink_patch`).
`statuses_installed_iff` says in which runs every status published is that of
the definition in `Host.links`: the install step joins an occupied entry, and
`add_linkdef` skips an occupied hash, without a look at what is there.
-/
import KasmCloud.Controller.World
import KasmCloud.Controller.Resolution

namespace KasmCloud

open Lib V1alpha1

section Sha256

variable (sha256 : String → String)

/-- The status that a run of `add_link` writes, or confirms as unchanged. -/
def publishedStatus (ctx : Ctx) (cluster : Cluster) (link : Link) (publish : PublishOutcome) :
    Option LinkStatus :=
  match resolveLink cluster link with
  | .error _ => none
  | .ok ld =>
    if (ctx.installLink sha256 link.name ld publish).2 = true then some ld.status else none

/-- It is written exactly when it is not the stored one. -/
theorem addLink_patch (ctx : Ctx) (cluster : Cluster) (link : Link) (publish : PublishOutcome) :
    (addLink sha256 ctx cluster link publish).patch =
      if link.status = publishedStatus sha256 ctx cluster link publish then none
      else publishedStatus sha256 ctx cluster link publish := by
  unfold publishedStatus
  cases hresolve : resolveLink cluster link with
  | error action => simp [addLink_unresolved sha256 ctx hresolve publish]
  | ok ld =>
    obtain ⟨-, -, hpatch⟩ := addLink_resolved sha256 ctx hresolve publish
    rw [hpatch]
    by_cases hflag : (ctx.installLink sha256 link.name ld publish).2 = true
    · simp only [if_pos hflag]
    · simp only [if_neg hflag, ite_self]

/-- The definition in `Host.links` for the contract of a spec and the actor
and link name of a status has the provider of the status and the values of
the spec. -/
def Host.Installs (host : Host) (spec : LinkSpec) (status : LinkStatus) : Prop :=
  ∃ ld, host.links.lookup (linkdefHash sha256 status.actorKey spec.contractId status.linkName) =
      some ld ∧
    ld.triple = (status.actorKey, spec.contractId, status.linkName) ∧
    ld.providerId = status.providerKey ∧ ld.values = spec.values

/-- What the run publishes is installed when it returns. -/
def StatusInstalled (ctx : Ctx) (cluster : Cluster) (link : Link) (publish : PublishOutcome) :
    Prop :=
  ∀ status, publishedStatus sha256 ctx cluster link publish = some status →
    (addLink sha256 ctx cluster link publish).ctx.host.Installs sha256 link.spec status

/-- The definition of the Link is new to both tables, or `Host.links` has
this very definition. -/
def NewOrSame (ctx : Ctx) (cluster : Cluster) (link : Link) : Prop :=
  ∀ ld, resolveLink cluster link = .ok ld →
    ctx.links.lookup ld.id = none ∧ ctx.host.links.lookup (ld.hash sha256) = none ∨
      ctx.host.links.lookup (ld.hash sha256) = some ld

variable {sha256}

/-- A status is installed when the definition it is made of is stored. -/
theorem installs_status_iff {host : Host} {cluster : Cluster} {link : Link} {ld : LinkDefinition}
    (h : resolveLink cluster link = .ok ld) :
    host.Installs sha256 link.spec ld.status ↔ host.links.lookup (ld.hash sha256) = some ld := by
  obtain ⟨hcontract, hvalues, -, -⟩ := resolveLink_ok h
  have hplace : linkdefHash sha256 ld.status.actorKey link.spec.contractId ld.status.linkName =
      ld.hash sha256 := by rw [← hcontract]; rfl
  unfold Host.Installs
  rw [hplace]
  constructor
  · rintro ⟨found, hfound, htriple, hprovider, hsame⟩
    obtain ⟨ha, hc, hl⟩ : found.actorId = ld.actorId ∧ found.contractId = link.spec.contractId ∧
        found.linkName = ld.linkName := by
      simpa [LinkDefinition.triple, LinkDefinition.status] using htriple
    have heq : found = ld := by
      have hp : found.providerId = ld.providerId := hprovider
      have hv : found.values = ld.values := hsame.trans hvalues.symm
      rw [← hcontract] at hc
      cases found
      cases ld
      simp_all
    rw [hfound, heq]
  · intro hstored
    refine ⟨ld, hstored, ?_, rfl, hvalues⟩
    rw [← hcontract]
    rfl

/-- One run publishes what is installed exactly when the definition is new or
is the one that is there. -/
theorem statusInstalled_iff (ctx : Ctx) (cluster : Cluster) (link : Link)
    (publish : PublishOutcome) :
    StatusInstalled sha256 ctx cluster link publish ↔ NewOrSame sha256 ctx cluster link := by
  unfold StatusInstalled NewOrSame publishedStatus
  cases hresolve : resolveLink cluster link with
  | error action => simp
  | ok ld =>
    rw [(addLink_resolved sha256 ctx hresolve publish).2.1]
    simp only [Except.ok.injEq, forall_eq', Option.ite_none_right_eq_some, Option.some.injEq,
      and_imp]
    cases hentry : ctx.links.lookup ld.id with
    | some entry =>
      -- an occupied entry is joined, and the host is left as it is
      obtain ⟨found, names⟩ := entry
      rw [installLink_occupied sha256 hentry]
      simp [installs_status_iff hresolve]
    | none =>
      cases hhash : ctx.host.links.lookup (ld.hash sha256) with
      | some found =>
        -- an occupied hash is skipped
        rw [installLink_skip sha256 hentry hhash]
        simp [installs_status_iff hresolve, hhash]
      | none =>
        obtain ⟨hhost, -, hok⟩ := installLink_fresh sha256 hentry hhash link.name publish
        obtain ⟨hstored, -⟩ := addLinkdef_of_none sha256 ctx.host ld publish hhash
        simp only [and_self, true_or, iff_true]
        intro hflag status hstatus
        subst hstatus
        rw [installs_status_iff hresolve, hhost, hstored]
        exact AList.lookup_insert _

/-! ## Runs -/

variable (sha256)

/-- A step that publishes a status publishes what is installed. -/
def PublishesInstalled (w : World) : WorldStep → Prop
  | .addLink name cluster publish _ => ∀ link, w.links.lookup name = some link →
    StatusInstalled sha256 w.ctx cluster link publish
  | _ => True

/-- A step that adds a Link finds its definition new or the same. -/
def AddsNewOrSame (w : World) : WorldStep → Prop
  | .addLink name cluster _ _ => ∀ link, w.links.lookup name = some link →
    NewOrSame sha256 w.ctx cluster link
  | _ => True

/-- The runs in which every status published for a Link is that of the
installed definition are those in which `add_link` never meets another
definition under the id or the hash of its own. -/
theorem statuses_installed_iff (latticePrefix : String) (tr : List WorldStep) (w : World) :
    (worldMachine sha256 latticePrefix).RunWhen (PublishesInstalled sha256) tr w ↔
      (worldMachine sha256 latticePrefix).RunWhen (AddsNewOrSame sha256) tr w := by
  have hstep (w : World) (l : WorldStep) :
      PublishesInstalled sha256 w l ↔ AddsNewOrSame sha256 w l := by
    cases l with
    | addLink name cluster publish patched =>
      exact forall₂_congr fun link _ => statusInstalled_iff w.ctx cluster link publish
    | _ => exact Iff.rfl
  constructor
  · intro h
    exact h.mono fun w l => (hstep w l).mp
  · intro h
    exact h.mono fun w l => (hstep w l).mpr

end Sha256

/-! ## Two Links with one triple -/

/-- A Link of actor "M" to provider `key`. -/
def specTo (key : String) : LinkSpec := ⟨"default", ⟨key, ""⟩, ⟨"M", ""⟩, "wasmcloud:keyvalue", ∅⟩

/-- No lookup finds anything. -/
def clusterNone : Cluster where
  actor _ := none
  provider _ := none

/-- Two Links of one triple are applied, and the first is added. -/
def sharedTriple : List WorldStep :=
  [.applyLink "one" (specTo "V1"), .applyLink "two" (specTo "V2"),
    .addLink "one" clusterNone .sent true]

/-- The second is added next and publishes the key of its own provider; the
host has the definition of the first. -/
theorem sharedTriple_not_installed :
    ∃ w, (worldMachine id "default").Run sharedTriple w ∧
      publishedStatus id w.ctx clusterNone ⟨"two", specTo "V2", none⟩ .sent =
        some ⟨"V2", "M", "default", []⟩ ∧
      ¬ PublishesInstalled id w (.addLink "two" clusterNone .sent true) := by
  refine ⟨_, Machine.run_of_exec rfl, rfl, fun h => ?_⟩
  obtain ⟨ld, hld, -, hprovider, -⟩ := h ⟨"two", specTo "V2", none⟩ rfl ⟨"V2", "M", "default", []⟩ rfl
  have hfirst : ld = ⟨"M", "V1", "default", "wasmcloud:keyvalue", ∅⟩ := (Option.some.inj hld).symm
  rw [hfirst] at hprovider
  exact absurd hprovider (by decide)

end KasmCloud
