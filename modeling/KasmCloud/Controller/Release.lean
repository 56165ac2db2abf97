/-
KasmCloud.Controller.Release — when the cleanup of a Link releases all that
its Apply runs have acquired.

An id is computed from the lookups when a reference is taken, and from the
stored status when it is given back. `acquired` follows both over the
`add_link` runs of one Link, from what the lookups answer and which status
patches go through, without a look at the tables. `acquired_held` says that
the tables follow it, whatever other Links do in between, and
`cleanup_releases_iff` when the two ids are the same.
-/
import KasmCloud.Controller.References

namespace KasmCloud

open Lib V1alpha1

/-! ## What the Apply runs acquire -/

/-- The ids under which a Link holds a reference, and its stored status. -/
structure Acquired where
  ids : Finset String
  status : Option LinkStatus

def Acquired.step (name : String) (spec : LinkSpec) (a : Acquired) : LinkRun → Acquired
  | .add n cluster _ patched =>
    if n = name then
      match resolveLink cluster ⟨name, spec, a.status⟩ with
      | .ok ld => ⟨insert ld.id a.ids, if patched then some ld.status else a.status⟩
      | .error _ => a
    else a
  | .delete _ _ => a

/-- What the runs of a Link acquire, one after the other. -/
def acquired (name : String) (spec : LinkSpec) (tr : List LinkRun) : Acquired :=
  tr.foldl (Acquired.step name spec) ⟨∅, none⟩

/-- The stored status is complete and leads to every id under which a
reference was taken, or none was taken. -/
def Acquired.Releasable (a : Acquired) (spec : LinkSpec) : Prop :=
  ∀ id ∈ a.ids, ∃ status, a.status = some status ∧ status.complete = true ∧
    id = statusId spec status

/-- A run in which nothing fails to be published, and which is not the
cleanup of the Link. -/
def AppliesOnly (name : String) (_ : LinkWorld) : LinkRun → Prop
  | .add _ _ publish _ => publish = .sent
  | .delete n publish => n ≠ name ∧ publish = .sent

/-! ## The tables follow -/

section Sha256

variable {sha256 : String → String} {spec : String → LinkSpec} {w : LinkWorld} {name : String}

/-- The tables of a world are as the runs of the Link have left them. -/
structure Acquired.Held (sha256 : String → String) (a : Acquired) (name : String) (w : LinkWorld) :
    Prop where
  namedAt_iff : ∀ id, w.ctx.NamedAt name id ↔ id ∈ a.ids
  stored : w.stored.lookup name = a.status
  backed : w.ctx.Backed sha256

theorem held_add_self {a : Acquired} (h : a.Held sha256 name w) (cluster : Cluster)
    (patched : Bool) :
    (a.step name (spec name) (.add name cluster .sent patched)).Held sha256 name
      (w.run sha256 spec (.add name cluster .sent patched)) := by
  have hlink : w.link spec name = ⟨name, spec name, a.status⟩ := by
    rw [LinkWorld.link, h.stored]
  simp only [Acquired.step, if_true]
  cases hresolve : resolveLink cluster ⟨name, spec name, a.status⟩ with
  | error action =>
    rw [run_add_unresolved sha256 (by rw [hlink]; exact hresolve)]
    exact h
  | ok ld =>
    have hresolve' : resolveLink cluster (w.link spec name) = .ok ld := by rw [hlink]; exact hresolve
    have hok : (w.ctx.installLink sha256 name ld .sent).2 = true :=
      (installLink_ok_iff sha256 w.ctx name ld .sent).mpr fun _ _ => rfl
    refine ⟨fun id => ?_, ?_, ?_⟩
    · rw [run_add_ctx sha256 hresolve', installLink_namedAt_iff, h.namedAt_iff, Finset.mem_insert]
      simp only [hok, and_true, true_and]
      exact or_comm
    · cases patched with
      | true => exact run_add_stored sha256 hresolve' hok
      | false =>
        refine Eq.trans ?_ h.stored
        simp only [LinkWorld.run]
        split <;> rfl
    · rw [run_add_ctx sha256 hresolve']
      exact installLink_backed h.backed name fun _ _ => rfl

theorem held_add_other {a : Acquired} (h : a.Held sha256 name w) {n : String} (hne : n ≠ name)
    (cluster : Cluster) (patched : Bool) :
    a.Held sha256 name (w.run sha256 spec (.add n cluster .sent patched)) := by
  refine ⟨fun id => ?_, ?_, addLink_backed h.backed fun _ _ _ _ => rfl⟩
  · rw [← h.namedAt_iff id]
    cases hresolve : resolveLink cluster (w.link spec n) with
    | error action => rw [run_add_unresolved sha256 hresolve]
    | ok ld =>
      rw [run_add_ctx sha256 hresolve, installLink_namedAt_iff]
      exact or_iff_left fun hsame => hne hsame.1.symm
  · rw [run_add_stored_ne sha256 (Ne.symm hne)]
    exact h.stored

theorem held_delete_other {a : Acquired} (h : a.Held sha256 name w) {n : String} (hne : n ≠ name)
    (publish : PublishOutcome) :
    a.Held sha256 name (w.run sha256 spec (.delete n publish)) := by
  refine ⟨fun id => ?_, h.stored, deleteLink_backed h.backed _ publish⟩
  rw [← h.namedAt_iff id]
  exact deleteLink_namedAt_iff.trans (and_iff_left (.inl (Ne.symm hne)))

/-- In every run of the Link controller the Link is named exactly under the
ids that its own runs have acquired. -/
theorem acquired_held {latticePrefix : String} {tr : List LinkRun}
    (h : (linkMachine sha256 spec latticePrefix).RunWhen (AppliesOnly name) tr w) :
    (acquired name (spec name) tr).Held sha256 name w := by
  refine h.induction (I := fun tr w => (acquired name (spec name) tr).Held sha256 name w) ?_ ?_
  · refine ⟨fun id => ⟨?_, fun hin => absurd hin (Finset.notMem_empty id)⟩, rfl, ?_⟩
    · rintro ⟨found, names, hentry, -⟩
      cases hentry
    · intro key ld hkey
      cases hkey
  · intro tr w r w' _ ih hr hs
    cases hs
    rw [acquired, List.foldl_concat]
    cases r with
    | add n cluster publish patched =>
      cases hr
      by_cases hne : n = name
      · subst hne
        exact held_add_self ih cluster patched
      · simp only [Acquired.step, if_neg hne]
        exact held_add_other ih hne cluster patched
    | delete n publish => exact held_delete_other ih hr.1 publish

/-- The cleanup of a Link releases all that its Apply runs have acquired
exactly when the status stored last is complete and leads to each id they
have acquired, if there is any. -/
theorem cleanup_releases_iff (sha256 : String → String) (spec : String → LinkSpec)
    (latticePrefix name : String) {tr : List LinkRun} {w : LinkWorld}
    (h : (linkMachine sha256 spec latticePrefix).RunWhen (AppliesOnly name) tr w) :
    (deleteLink sha256 w.ctx (w.link spec name) .sent).2.FreeOf sha256 name ↔
      (acquired name (spec name) tr).Releasable (spec name) := by
  have hheld := acquired_held h
  have hleft (id : String) :
      (deleteLink sha256 w.ctx (w.link spec name) .sent).2.NamedAt name id ↔
        id ∈ (acquired name (spec name) tr).ids ∧
          ¬ ∃ status, (acquired name (spec name) tr).status = some status ∧
            status.complete = true ∧ id = statusId (spec name) status := by
    rw [deleteLink_namedAt_iff, hheld.namedAt_iff]
    refine and_congr_right fun _ => ?_
    rw [← hheld.stored]
    exact or_iff_right (not_not_intro rfl)
  constructor
  · intro hfree id hid
    by_contra hnone
    exact hfree.names ⟨id, (hleft id).mpr ⟨hid, hnone⟩⟩
  · intro hreleasable
    refine (deleteLink_backed hheld.backed _ .sent).freeOf ?_
    rintro ⟨id, hnamed⟩
    obtain ⟨hid, hnone⟩ := (hleft id).mp hnamed
    exact hnone (hreleasable id hid)

end Sha256

/-! ## A status patch that fails -/

def specM : LinkSpec := ⟨"default", ⟨"V", ""⟩, ⟨"M", ""⟩, "wasmcloud:keyvalue", ∅⟩

/-- The Link is applied once. -/
def appliedOnce (patched : Bool) : List LinkRun :=
  [.add "link" ⟨fun _ => none, fun _ => none⟩ .sent patched]

/-- The status was not stored: the cleanup returns `await_change`, and the
Link is still named. -/
theorem appliedOnce_not_released :
    ∃ w, (linkMachine id (fun _ => specM) "default").RunWhen (AppliesOnly "link")
        (appliedOnce false) w ∧
      (deleteLink id w.ctx (w.link (fun _ => specM) "link") .sent).1 = .awaitChange ∧
      ¬ (deleteLink id w.ctx (w.link (fun _ => specM) "link") .sent).2.FreeOf id "link" := by
  refine ⟨_, .snoc .nil rfl rfl, rfl, fun hfree => hfree.names ?_⟩
  exact ⟨"wasmcloud:keyvalue.M.default", _, _, rfl, Finset.mem_singleton_self _⟩

/-- With the status stored the cleanup is complete. -/
theorem appliedOnce_released :
    ∃ w, (linkMachine id (fun _ => specM) "default").RunWhen (AppliesOnly "link")
        (appliedOnce true) w ∧
      (deleteLink id w.ctx (w.link (fun _ => specM) "link") .sent).2.FreeOf id "link" := by
  have hrun : (linkMachine id (fun _ => specM) "default").RunWhen (AppliesOnly "link")
      (appliedOnce true) _ := .snoc .nil rfl rfl
  refine ⟨_, hrun, (cleanup_releases_iff id (fun _ => specM) "default" "link" hrun).mpr ?_⟩
  intro id hid
  exact ⟨⟨"V", "M", "default", []⟩, rfl, rfl, Finset.mem_singleton.mp hid⟩

end KasmCloud
