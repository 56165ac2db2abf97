/-
KasmCloud.Controller.Cleanup — which Link deletions complete, and which
entries of `Ctx.links` are really installed.

Both controller functions change their tables on either side of a publish
that can fail. What keeps the tables in step is `Installed` together with
`Tracked`:

* `Ctx.Installed` — every entry of `Ctx.links` is under the id of its
  definition, and the host has that definition under its hash;
* `LinkWorld.Tracked` — a Link named in an entry has a stored status that
  leads back to this entry.

`CleanupOk` is the condition on a run's steps under which the two are kept
(`run_keeps_installed`, `run_keeps_tracked`). A deletion whose publish fails
has already taken the definition out of `Host.links`, and the attempts after
it find nothing to delete (`attempts_stuck`), so that under the invariants a
cleanup completes exactly when its first attempt does (`cleanup_iff`).
-/
import KasmCloud.Controller.RefCounting

namespace KasmCloud

open Lib V1alpha1

section Sha256

variable (sha256 : String → String) (spec : String → LinkSpec)

/-! ## The invariants -/

/-- Every entry is under the id of its definition, which the host has. -/
def Ctx.Installed (ctx : Ctx) : Prop :=
  ∀ id ld names, ctx.links.lookup id = some (ld, names) →
    ld.id = id ∧ ctx.host.links.lookup (ld.hash sha256) = some ld

/-- The stored status of every Link named in an entry leads to the entry. -/
def LinkWorld.Tracked (w : LinkWorld) : Prop :=
  ∀ id ld names, w.ctx.links.lookup id = some (ld, names) → ∀ n ∈ names,
    ∃ status, w.stored.lookup n = some status ∧ status.complete = true ∧
      statusId (spec n) status = id

/-- Steps that leave no deletion half done and no definition half installed.
An `add_link` run meets admitted providers, its status patch is stored, and
where it makes an entry the hash of its definition is free or taken by that
very definition; a `delete_link` run that drops the last name of an entry
gets its message out. -/
def CleanupOk (w : LinkWorld) : LinkRun → Prop
  | .add n cluster _ patched =>
    cluster.Admitted ∧ patched = true ∧
      ∀ ld, resolveLink cluster (w.link spec n) = .ok ld → w.ctx.links.lookup ld.id = none →
        ∀ found, w.ctx.host.links.lookup (ld.hash sha256) = some found → found = ld
  | .delete n publish =>
    ∀ status ld names, w.stored.lookup n = some status → status.complete = true →
      w.ctx.links.lookup (statusId (spec n) status) = some (ld, names) →
      names.erase n = ∅ → publish = .sent

variable {sha256 spec} {ctx : Ctx} {w : LinkWorld}

/-- A definition stored in a further place keeps the entries installed. -/
theorem Ctx.Installed.insert_host (h : ctx.Installed sha256) {ctx' : Ctx} {ld : LinkDefinition}
    (hfree : ctx.host.links.lookup (ld.hash sha256) = none)
    (hlinks : ctx'.links = ctx.links)
    (hhost : ctx'.host.links = ctx.host.links.insert (ld.hash sha256) ld) :
    ctx'.Installed sha256 := by
  intro id ld' names hentry
  rw [hlinks] at hentry
  obtain ⟨hid, hin⟩ := h id ld' names hentry
  refine ⟨hid, ?_⟩
  rw [hhost, HashMap.lookup_insert_if]
  split
  · rename_i heq
    rw [heq, hfree] at hin
    cases hin
  · exact hin

/-- An entry for a definition the host has keeps the entries installed. -/
theorem Ctx.Installed.insert_entry (h : ctx.Installed sha256) {ctx' : Ctx}
    {ld : LinkDefinition} {names : Finset String}
    (hlinks : ctx'.links = ctx.links.insert ld.id (ld, names))
    (hhost : ctx'.host = ctx.host)
    (hin : ctx.host.links.lookup (ld.hash sha256) = some ld) :
    ctx'.Installed sha256 := by
  intro id ld' names' hentry
  rw [hlinks, HashMap.lookup_insert_if] at hentry
  rw [hhost]
  split at hentry
  · rename_i heq
    cases hentry
    exact ⟨heq.symm, hin⟩
  · exact h id ld' names' hentry

/-- Two entries do not share a definition's hash, so erasing an entry and
its definition leaves the others installed. -/
theorem Ctx.Installed.erase (h : ctx.Installed sha256) {ctx' : Ctx} {id : String}
    {ld : LinkDefinition} {names : Finset String} (hentry : ctx.links.lookup id = some (ld, names))
    (hlinks : ctx'.links = ctx.links.erase id)
    (hhost : ctx'.host.links = ctx.host.links.erase (ld.hash sha256)) :
    ctx'.Installed sha256 := by
  obtain ⟨hid, hin⟩ := h id ld names hentry
  intro id' ld' names' hentry'
  rw [hlinks, HashMap.lookup_erase_if] at hentry'
  split at hentry'
  · cases hentry'
  · rename_i hne
    obtain ⟨hid', hin'⟩ := h id' ld' names' hentry'
    refine ⟨hid', ?_⟩
    rw [hhost, HashMap.lookup_erase_if, if_neg]
    · exact hin'
    · intro heq
      rw [heq, hin] at hin'
      cases hin'
      exact hne (hid'.symm.trans hid)

/-! ## What a step keeps -/

/-- Installing a definition keeps the entries installed, if no other
definition has its hash. -/
theorem installLink_keeps_installed (h : ctx.Installed sha256) (name : String)
    {ld : LinkDefinition}
    (hown : ctx.links.lookup ld.id = none →
      ∀ found, ctx.host.links.lookup (ld.hash sha256) = some found → found = ld)
    (publish : PublishOutcome) :
    (ctx.installLink sha256 name ld publish).1.Installed sha256 := by
  cases hentry : ctx.links.lookup ld.id with
  | some entry =>
    obtain ⟨found, names⟩ := entry
    rw [installLink_occupied sha256 hentry]
    obtain ⟨hid, hin⟩ := h _ _ _ hentry
    exact h.insert_entry (by rw [hid]) rfl hin
  | none =>
    cases hhash : ctx.host.links.lookup (ld.hash sha256) with
    | some found =>
      have heq : found = ld := hown hentry found hhash
      subst heq
      rw [installLink_skip sha256 hentry hhash]
      exact h.insert_entry rfl rfl hhash
    | none =>
      obtain ⟨h1, h2, -⟩ := installLink_fresh sha256 hentry hhash name publish
      have hlinks := (addLinkdef_of_none sha256 ctx.host ld publish hhash).1
      have hstored : (⟨(ctx.host.addLinkdef sha256 ld publish).1, ctx.links⟩ : Ctx).Installed
          sha256 := h.insert_host hhash rfl hlinks
      split at h2
      · refine hstored.insert_entry h2 h1 ?_
        rw [hlinks, HashMap.lookup_insert_if, if_pos rfl]
      · intro id ld' names' hentry'
        rw [h2] at hentry'
        rw [h1]
        exact hstored id ld' names' hentry'

/-- Releasing a reference keeps the entries installed, if the message of a
last one goes out. -/
theorem releaseLink_keeps_installed (h : ctx.Installed sha256) (name id : String)
    {publish : PublishOutcome}
    (hsent : ∀ ld names, ctx.links.lookup id = some (ld, names) → names.erase name = ∅ →
      publish = .sent) :
    (ctx.releaseLink sha256 name id publish).2.Installed sha256 := by
  cases hentry : ctx.links.lookup id with
  | none =>
    rw [releaseLink_vacant sha256 hentry]
    exact h
  | some entry =>
    obtain ⟨ld, names⟩ := entry
    obtain ⟨hid, hin⟩ := h _ _ _ hentry
    by_cases hlast : names.erase name = ∅
    · obtain ⟨h1, h2, -⟩ := releaseLink_last sha256 hentry hlast hin publish
      have hout := hsent ld names hentry hlast
      rw [if_pos hout] at h2
      refine h.erase hentry h2 ?_
      rw [h1, (deleteLinkdef_of_some sha256 _ _ publish hin).1]
    · rw [releaseLink_shared sha256 hentry hlast]
      exact h.insert_entry (by rw [hid]) rfl hin

/-- One allowed run keeps the entries installed. -/
theorem run_keeps_installed (h : w.ctx.Installed sha256) {r : LinkRun}
    (hok : CleanupOk sha256 spec w r) : (w.run sha256 spec r).ctx.Installed sha256 := by
  cases r with
  | add n cluster publish patched =>
    obtain ⟨-, -, hown⟩ := hok
    cases hres : resolveLink cluster (w.link spec n) with
    | error action => rwa [run_add_unresolved sha256 hres]
    | ok ld =>
      rw [run_add_ctx sha256 hres]
      exact installLink_keeps_installed h n (hown ld hres) publish
  | delete n publish =>
    by_cases hstatus : ∃ status, w.stored.lookup n = some status ∧ status.complete = true
    · obtain ⟨status, hst, hcomplete⟩ := hstatus
      rw [run_delete_ctx sha256 spec hst hcomplete]
      exact releaseLink_keeps_installed h n _
        fun ld names hentry hlast => hok status ld names hst hcomplete hentry hlast
    · rw [run_delete_of_incomplete sha256]
      · exact h
      · intro status hst
        by_contra hc
        exact hstatus ⟨status, hst, by simpa using hc⟩

/-- One allowed run keeps every named Link's status leading to its entry. -/
theorem run_keeps_tracked (h : w.Tracked spec) {r : LinkRun} (hok : CleanupOk sha256 spec w r) :
    (w.run sha256 spec r).Tracked spec := by
  cases r with
  | add n cluster publish patched =>
    obtain ⟨hadm, rfl, -⟩ := hok
    cases hres : resolveLink cluster (w.link spec n) with
    | error action => rwa [run_add_unresolved sha256 hres]
    | ok ld =>
      intro id ld' names hentry m hm
      rw [run_add_ctx sha256 hres] at hentry
      rcases installLink_names hentry hm with ⟨found, names', hold, hin⟩ | ⟨rfl, rfl, hinst⟩
      · obtain ⟨status, hst, hcomplete, hid⟩ := h id found names' hold m hin
        by_cases hmn : m = n
        · -- its own entry again: the status stored now leads there too
          subst hmn
          have hlink : (w.link spec m).status = some status := hst
          have hsame : ld.id = id :=
            (resolveLink_id_of_status hlink hcomplete hres).trans hid
          by_cases hinst : (w.ctx.installLink sha256 m ld publish).2 = true
          · obtain ⟨hcomplete', hid'⟩ := status_of_resolved hadm hres
            exact ⟨ld.status, run_add_stored sha256 hres hinst, hcomplete', hid'.trans hsame⟩
          · rw [run_add_stored_of_failed sha256 hres (by simpa using hinst)]
            exact ⟨status, hst, hcomplete, hid⟩
        · rw [run_add_stored_ne sha256 hmn]
          exact ⟨status, hst, hcomplete, hid⟩
      · obtain ⟨hcomplete, hid⟩ := status_of_resolved hadm hres
        exact ⟨ld.status, run_add_stored sha256 hres hinst, hcomplete, hid⟩
  | delete n publish =>
    intro id ld' names hentry m hm
    rw [run_delete_stored]
    by_cases hstatus : ∃ status, w.stored.lookup n = some status ∧ status.complete = true
    · obtain ⟨status, hst, hcomplete⟩ := hstatus
      rw [run_delete_ctx sha256 spec hst hcomplete] at hentry
      obtain ⟨found, names', hold, hin⟩ := releaseLink_names hentry hm
      exact h id found names' hold m hin
    · rw [run_delete_of_incomplete sha256] at hentry
      · exact h id ld' names hentry m hm
      · intro status hst
        by_contra hc
        exact hstatus ⟨status, hst, by simpa using hc⟩

theorem installed_of_run {latticePrefix : String} {tr : List LinkRun}
    (h : (linkMachine sha256 spec latticePrefix).RunWhen (CleanupOk sha256 spec) tr w) :
    w.ctx.Installed sha256 := by
  refine h.invariant (I := fun w => w.ctx.Installed sha256) ?_ ?_
  · intro id ld names hentry
    simp [linkMachine, LinkWorld.new, Ctx.new] at hentry
  · intro w r w' hI hok hstep
    cases hstep
    exact run_keeps_installed hI hok

theorem tracked_of_run {latticePrefix : String} {tr : List LinkRun}
    (h : (linkMachine sha256 spec latticePrefix).RunWhen (CleanupOk sha256 spec) tr w) :
    w.Tracked spec := by
  refine h.invariant (I := fun w => w.Tracked spec) ?_ ?_
  · intro id ld names hentry
    simp [linkMachine, LinkWorld.new, Ctx.new] at hentry
  · intro w r w' hI hok hstep
    cases hstep
    exact run_keeps_tracked hI hok

/-! ## Attempts to delete the last Link of an entry -/

variable (sha256 spec) in
/-- Runs of `delete_link` for one Link, one after the other. -/
def LinkWorld.attempts (w : LinkWorld) (name : String) (outcomes : List PublishOutcome) :
    LinkWorld :=
  outcomes.foldl (fun w publish => w.run sha256 spec (.delete name publish)) w

variable (sha256 spec) in
/-- After the failing attempts, the next one that gets its message out lets
the finalizer go, has announced the deletion of the definition, and leaves
the definition in neither table. -/
structure CleanupCompletes (w : LinkWorld) (name : String) (ld : LinkDefinition)
    (fails : List PublishOutcome) : Prop where
  action : (deleteLink sha256 (w.attempts sha256 spec name fails).ctx
    ((w.attempts sha256 spec name fails).link spec name) .sent).1 = .awaitChange
  announced : ((w.attempts sha256 spec name fails).run sha256 spec
    (.delete name .sent)).ctx.host.published = w.ctx.host.published ++ [⟨.del, ld⟩]
  unreferenced : ∀ id names, ((w.attempts sha256 spec name fails).run sha256 spec
    (.delete name .sent)).ctx.links.lookup id ≠ some (ld, names)
  uninstalled : ld ∉ ((w.attempts sha256 spec name fails).run sha256 spec
    (.delete name .sent)).ctx.host.links.values

/-- The half-deleted state: the entry is left without a name, the host
without its definition. -/
def LinkWorld.Stuck (sha256 : String → String) (w : LinkWorld) (id : String)
    (ld : LinkDefinition) : Prop :=
  w.ctx.links.lookup id = some (ld, ∅) ∧ w.ctx.host.links.lookup (ld.hash sha256) = none

variable {n id : String} {ld : LinkDefinition} {status : LinkStatus}

/-- Under the invariants the attempt to delete an entry's last Link is a
release of the entry's definition. -/
theorem releaseLink_of_last (h : w.ctx.Installed sha256)
    (hentry : w.ctx.links.lookup id = some (ld, {n})) (publish : PublishOutcome) :
    (w.ctx.releaseLink sha256 n id publish).2.host =
        (w.ctx.host.deleteLinkdef sha256 ld publish).1 ∧
      (w.ctx.releaseLink sha256 n id publish).2.links =
        (if publish = .sent then w.ctx.links.erase id else w.ctx.links.insert id (ld, ∅)) ∧
      (w.ctx.releaseLink sha256 n id publish).1 =
        (if publish = .sent then .awaitChange else .requeue 10) :=
  releaseLink_last sha256 hentry (by simp) (h _ _ _ hentry).2 publish

/-- A first attempt whose message goes out completes the cleanup. -/
theorem cleanupCompletes_nil (h : w.ctx.Installed sha256) (hkeyed : Keyed sha256 w.ctx.host.links)
    (hentry : w.ctx.links.lookup id = some (ld, {n}))
    (hst : w.stored.lookup n = some status) (hcomplete : status.complete = true)
    (hid : statusId (spec n) status = id) : CleanupCompletes sha256 spec w n ld [] := by
  obtain ⟨h1, h2, h3⟩ := releaseLink_of_last h hentry .sent
  have hin := (h _ _ _ hentry).2
  obtain ⟨h4, h5, -⟩ := deleteLinkdef_of_some sha256 w.ctx.host ld .sent hin
  have hdel := deleteLink_link sha256 spec hst hcomplete .sent
  have hrun := run_delete_ctx sha256 spec hst hcomplete .sent
  rw [hid] at hrun hdel
  constructor
  · rw [show w.attempts sha256 spec n [] = w from rfl, hdel, h3, if_pos rfl]
  · rw [show w.attempts sha256 spec n [] = w from rfl, hrun, h1, h5, if_pos rfl]
  · intro id' names hleft
    rw [show w.attempts sha256 spec n [] = w from rfl, hrun, h2, if_pos rfl,
      HashMap.lookup_erase_if] at hleft
    split at hleft
    · cases hleft
    · rename_i hne
      exact hne ((h _ _ _ hleft).1.symm.trans (h _ _ _ hentry).1)
  · intro hmem
    rw [show w.attempts sha256 spec n [] = w from rfl, hrun, h1, h4] at hmem
    have hfound := (hkeyed.erase (ld.hash sha256)).lookup_hash hmem
    simp at hfound

/-- An attempt that fails to publish leaves the half-deleted state. -/
theorem attempt_stuck (h : w.ctx.Installed sha256)
    (hentry : w.ctx.links.lookup id = some (ld, {n}))
    (hst : w.stored.lookup n = some status) (hcomplete : status.complete = true)
    (hid : statusId (spec n) status = id) {publish : PublishOutcome} (hfail : publish ≠ .sent) :
    (w.run sha256 spec (.delete n publish)).Stuck sha256 id ld := by
  obtain ⟨h1, h2, -⟩ := releaseLink_of_last h hentry publish
  have hlinks := (deleteLinkdef_of_some sha256 w.ctx.host ld publish (h _ _ _ hentry).2).1
  have hrun := run_delete_ctx sha256 spec hst hcomplete publish
  rw [hid] at hrun
  constructor
  · rw [hrun, h2, if_neg hfail]
    simp
  · rw [hrun, h1, hlinks]
    simp

/-- In the half-deleted state an attempt fails before it publishes anything
and leaves the state half-deleted. -/
theorem stuck_attempt (h : w.Stuck sha256 id ld) (hst : w.stored.lookup n = some status)
    (hcomplete : status.complete = true) (hid : statusId (spec n) status = id)
    (publish : PublishOutcome) :
    (w.run sha256 spec (.delete n publish)).Stuck sha256 id ld ∧
      (deleteLink sha256 w.ctx (w.link spec n) publish).1 = .requeue 10 := by
  have hmissing := releaseLink_missing sha256 h.1 (Finset.erase_empty n) h.2 publish
  have hrun := run_delete_ctx sha256 spec hst hcomplete publish
  have hdel := deleteLink_link sha256 spec hst hcomplete publish
  rw [hid] at hrun hdel
  rw [hmissing] at hrun hdel
  refine ⟨⟨?_, ?_⟩, ?_⟩
  · rw [hrun]
    simp
  · rw [hrun]
    exact h.2
  · rw [hdel]

/-- No number of attempts leaves the half-deleted state. -/
theorem attempts_stuck (h : w.Stuck sha256 id ld) (hst : w.stored.lookup n = some status)
    (hcomplete : status.complete = true) (hid : statusId (spec n) status = id)
    (outcomes : List PublishOutcome) :
    (w.attempts sha256 spec n outcomes).Stuck sha256 id ld ∧
      (w.attempts sha256 spec n outcomes).stored = w.stored := by
  induction outcomes generalizing w with
  | nil => exact ⟨h, rfl⟩
  | cons publish outcomes ih =>
    obtain ⟨hnext, -⟩ := stuck_attempt h hst hcomplete hid publish
    exact ih hnext hst

/-- **Cleanup of Links.** After every run whose steps meet `CleanupOk`, the
host has the definition of every entry, and the deletion of the last Link of
an entry completes after a number of failing attempts if and only if that
number is zero. -/
theorem cleanup_iff (sha256 : String → String) (spec : String → LinkSpec)
    (latticePrefix : String) (tr : List LinkRun) (w : LinkWorld)
    (h : (linkMachine sha256 spec latticePrefix).RunWhen (CleanupOk sha256 spec) tr w) :
    (∀ id ld names, w.ctx.links.lookup id = some (ld, names) → ld ∈ w.ctx.host.links.values) ∧
      ∀ id ld n, w.ctx.links.lookup id = some (ld, {n}) → ∀ fails : List PublishOutcome,
        (∀ publish ∈ fails, publish ≠ .sent) →
          (CleanupCompletes sha256 spec w n ld fails ↔ fails = []) := by
  have hinst := installed_of_run h
  have htracked := tracked_of_run h
  have hkeyed := linkMachine_keyed sha256 h.reachable
  refine ⟨fun id ld names hentry => ?_, fun id ld n hentry fails hfails => ?_⟩
  · exact HashMap.mem_values.mpr ⟨_, (hinst _ _ _ hentry).2⟩
  · obtain ⟨status, hst, hcomplete, hid⟩ := htracked id ld _ hentry n (by simp)
    constructor
    · intro hdone
      cases fails with
      | nil => rfl
      | cons publish fails =>
        have hstuck := attempt_stuck hinst hentry hst hcomplete hid
          (hfails publish List.mem_cons_self)
        obtain ⟨hend, hstored⟩ := attempts_stuck hstuck hst hcomplete hid
          fails
        have hlast := (stuck_attempt hend (hstored ▸ hst) hcomplete hid .sent).2
        have haction := hdone.action
        rw [show w.attempts sha256 spec n (publish :: fails) =
          (w.run sha256 spec (.delete n publish)).attempts sha256 spec n fails from rfl,
          hlast] at haction
        cases haction
    · rintro rfl
      exact cleanupCompletes_nil hinst hkeyed hentry hst hcomplete hid

end Sha256

/-! ## One failed publish -/

/-- One Link, given by keys. -/
def cleanupSpec (_ : String) : LinkSpec :=
  ⟨"default", ⟨"V", ""⟩, ⟨"M", ""⟩, "wasmcloud:keyvalue", ∅⟩

def cleanupDefinition : LinkDefinition :=
  ⟨"M", "V", "default", "wasmcloud:keyvalue", ∅⟩

/-- The Link is installed. -/
def cleanupStart : LinkWorld :=
  (LinkWorld.new "default").run id cleanupSpec
    (.add "link" ⟨fun _ => none, fun _ => none⟩ .sent true)

theorem cleanupStart_run :
    (linkMachine id cleanupSpec "default").RunWhen (CleanupOk id cleanupSpec)
      [.add "link" ⟨fun _ => none, fun _ => none⟩ .sent true] cleanupStart := by
  refine Machine.RunWhen.snoc .nil ⟨?_, rfl, ?_⟩ rfl
  · intro name provider hnone
    cases hnone
  · intro ld _ _ found hfound
    simp [linkMachine, LinkWorld.new, Ctx.new, Host.new] at hfound

/-- The Link is the last of its entry, one attempt fails to publish, and the
next one, whose message would go out, is requeued. -/
theorem cleanup_not_completing :
    (linkMachine id cleanupSpec "default").Reachable cleanupStart ∧
      cleanupStart.ctx.links.lookup "wasmcloud:keyvalue.M.default" =
        some (cleanupDefinition, {"link"}) ∧
      ¬ CleanupCompletes id cleanupSpec cleanupStart "link" cleanupDefinition
        [.publishFailed] := by
  refine ⟨cleanupStart_run.reachable, by decide, fun hdone => ?_⟩
  have hrequeue : (deleteLink id (cleanupStart.attempts id cleanupSpec "link" [.publishFailed]).ctx
      ((cleanupStart.attempts id cleanupSpec "link" [.publishFailed]).link cleanupSpec "link")
      .sent).1 = .requeue 10 := by decide
  rw [hdone.action] at hrequeue
  cases hrequeue

theorem cleanup_completing :
    CleanupCompletes id cleanupSpec cleanupStart "link" cleanupDefinition [] :=
  ((cleanup_iff id cleanupSpec "default" _ _ cleanupStart_run).2
    "wasmcloud:keyvalue.M.default" cleanupDefinition "link" (by decide) [] (by simp)).mpr rfl

end KasmCloud
