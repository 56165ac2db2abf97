/-
KasmCloud.Controller.FleetCleanup — when no host keeps a Link that is gone.

The finalizer is shared: the first host whose cleanup takes it off lets the
object disappear, and a host that has not processed the deletion by then is
never told. `LastHolder` is the condition that only the last host that
holds a Link, or is yet to apply it, does so.

* `FleetOk` — a Link that is not in the API server is named in no table of
  any host, and no host has a version of it to apply; every definition in a
  host's `Host.links` has an entry in its `Ctx.links` with a name;
* `links_released` — in every run under the condition no host keeps such a
  Link.
-/
import KasmCloud.Controller.Fleet
import KasmCloud.Controller.References

namespace KasmCloud

open Lib V1alpha1

/-! ## The condition and the invariant -/

/-- A version is there that the controller would apply. -/
def HostView.Awaits (v : HostView) (name : String) : Prop :=
  ∃ seen, v.store.lookup name = some seen ∧ seen.event = .apply

/-- The host names a Link, or is yet to apply it. -/
def HostView.Holds (v : HostView) (name : String) : Prop :=
  v.ctx.Names name ∨ v.Awaits name

theorem removeFinalizer_eq_none {o : LinkObject} :
    o.removeFinalizer = none ↔ o.event = .cleanup := by
  unfold LinkObject.removeFinalizer LinkObject.event
  cases o.finalizer <;> cases o.deleting <;> simp

section Sha256

variable (sha256 : String → String) {η : Type}

/-- Where a Link disappears, no other host holds it, and the host whose
cleanup it is names it only in the entry that the status it has processed
leads to. And no `add_link` run fails to publish a new definition. -/
def LastHolder (s : Fleet η) : FleetStep η → Prop
  | .delete name => ∀ o, s.objects.lookup name = some o → o.finalizer = false →
    ∀ h, ¬ (s.hosts h).Holds name
  | .process h name cluster publish patched =>
    ∀ seen, (s.hosts h).store.lookup name = some seen →
      match seen.event with
      | .apply => ∀ ld, resolveLink cluster (seen.link name) = .ok ld →
        (s.hosts h).ctx.links.lookup ld.id = none →
        (s.hosts h).ctx.host.links.lookup (ld.hash sha256) = none → publish = .sent
      | .cleanup => ∀ o, s.objects.lookup name = some o → o.event = .cleanup → patched = true →
        (∀ h', h' ≠ h → ¬ (s.hosts h').Holds name) ∧
          ∀ id found names, (s.hosts h).ctx.links.lookup id = some (found, names) →
            name ∈ names → ∃ status, seen.status = some status ∧ status.complete = true ∧
              id = statusId seen.spec status
      | _ => True
  | _ => True

/-- A Link that is gone is held by no host, and every definition of a host is
referred to. -/
structure FleetOk (s : Fleet η) : Prop where
  gone : ∀ name, s.objects.lookup name = none → ∀ h, ¬ (s.hosts h).Holds name
  backed : ∀ h, (s.hosts h).ctx.Backed sha256

/-- Every host has seen the objects as they are and processed them. -/
def Fleet.Settled (s : Fleet η) : Prop :=
  ∀ h, (s.hosts h).queue = ∅ ∧ ∀ name, (s.hosts h).store.lookup name = s.objects.lookup name

/-- No host keeps a Link that is gone. -/
def Fleet.Released (s : Fleet η) : Prop :=
  s.Settled → ∀ name, s.objects.lookup name = none →
    ∀ h, (s.hosts h).ctx.FreeOf sha256 name

variable {sha256} {s s' : Fleet η}

theorem FleetOk.released (h : FleetOk sha256 s) : s.Released sha256 := by
  intro _ name hgone host
  exact (h.backed host).freeOf fun hnames => h.gone name hgone host (.inl hnames)

/-! ## One step -/

/-- A patch leaves the hosts alone; an object that is missing after it was
missing before, or the patch took it away. -/
theorem patch_lookup_eq_none {name n : String} {patched : Bool}
    {f : LinkObject → Option LinkObject}
    (h : (s.patch name patched f).objects.lookup n = none) :
    s.objects.lookup n = none ∨
      n = name ∧ patched = true ∧ ∃ o, s.objects.lookup name = some o ∧ f o = none := by
  unfold Fleet.patch at h
  split at h
  · rename_i o ho
    split at h
    · rename_i hpatched
      split at h
      · rw [HashMap.lookup_insert_if] at h
        split at h
        · cases h
        · exact .inl h
      · rename_i hnone
        rw [HashMap.lookup_erase_if] at h
        split at h
        · rename_i heq
          exact .inr ⟨heq, hpatched, o, ho, hnone⟩
        · exact .inl h
    · exact .inl h
  · exact .inl h

@[simp] theorem patch_hosts (s : Fleet η) (name : String) (patched : Bool)
    (f : LinkObject → Option LinkObject) : (s.patch name patched f).hosts = s.hosts := by
  unfold Fleet.patch
  split
  · split
    · split <;> rfl
    · rfl
  · rfl

@[simp] theorem finish_ctx (v : HostView) (name : String) (action : Action) (patched : Bool) :
    (v.finish name action patched).ctx = v.ctx := rfl

@[simp] theorem finish_store (v : HostView) (name : String) (action : Action) (patched : Bool) :
    (v.finish name action patched).store = v.store := rfl

variable [DecidableEq η]

@[simp] theorem setHost_objects (s : Fleet η) (h : η) (v : HostView) :
    (s.setHost h v).objects = s.objects := rfl

theorem setHost_hosts (s : Fleet η) (h h' : η) (v : HostView) :
    (s.setHost h v).hosts h' = if h' = h then v else s.hosts h' := by
  simp [Fleet.setHost, Function.update_apply]

/-- One host runs on a name: it may name that Link now, if it was to apply
it; and the Link may disappear, if no host holds it then. -/
theorem FleetOk.ran (hok : FleetOk sha256 s) {h : η} {name : String} {v : HostView}
    {patched : Bool} {f : LinkObject → Option LinkObject}
    (hstore : v.store = (s.hosts h).store) (hbacked : v.ctx.Backed sha256)
    (hnames : ∀ n, v.ctx.Names n → (s.hosts h).ctx.Names n ∨ n = name ∧ (s.hosts h).Awaits n)
    (hremoved : ∀ o, s.objects.lookup name = some o → patched = true → f o = none →
      ¬ v.Holds name ∧ ∀ h', h' ≠ h → ¬ (s.hosts h').Holds name) :
    FleetOk sha256 ((s.setHost h v).patch name patched f) := by
  refine ⟨fun n hgone h' hholds => ?_, fun h' => ?_⟩
  · rw [patch_hosts, setHost_hosts] at hholds
    rcases patch_lookup_eq_none hgone with hbefore | ⟨rfl, hpatched, o, ho, hf⟩
    · split at hholds
      · rename_i heq
        subst heq
        refine hok.gone n hbefore h' ?_
        rcases hholds with hnamed | ⟨seen, hseen, hevent⟩
        · exact (hnames n hnamed).imp_right And.right
        · exact .inr ⟨seen, hstore ▸ hseen, hevent⟩
      · exact hok.gone n hbefore h' hholds
    · obtain ⟨hself, hothers⟩ := hremoved o ho hpatched hf
      split at hholds
      · exact hself hholds
      · rename_i hne
        exact hothers h' hne hholds
  · rw [patch_hosts, setHost_hosts]
    split
    · exact hbacked
    · exact hok.backed h'

/-- A host's view changes, and its tables do not. -/
theorem FleetOk.viewed (hok : FleetOk sha256 s) {h : η} {v : HostView}
    (hctx : v.ctx = (s.hosts h).ctx)
    (hawaits : ∀ n, s.objects.lookup n = none → v.Awaits n → (s.hosts h).Awaits n) :
    FleetOk sha256 (s.setHost h v) := by
  refine ⟨fun n hgone h' hholds => ?_, fun h' => ?_⟩
  · rw [setHost_hosts] at hholds
    split at hholds
    · rename_i heq
      subst heq
      refine hok.gone n hgone h' ?_
      rcases hholds with hnamed | hawaited
      · exact .inl (hctx ▸ hnamed)
      · exact .inr (hawaits n hgone hawaited)
    · exact hok.gone n hgone h' hholds
  · rw [setHost_hosts]
    split
    · rw [hctx]
      exact hok.backed h
    · exact hok.backed h'

theorem fleetOk_process (hok : FleetOk sha256 s) {h : η} {name : String} {seen : LinkObject}
    (hseen : (s.hosts h).store.lookup name = some seen) {cluster : Cluster}
    {publish : PublishOutcome} {patched : Bool}
    (hlast : LastHolder sha256 s (.process h name cluster publish patched)) :
    FleetOk sha256 (s.process sha256 h name seen cluster publish patched) := by
  have hlast := hlast seen hseen
  unfold Fleet.process
  cases hevent : seen.event with
  | addFinalizer =>
    refine hok.ran rfl (hok.backed h) (fun n hn => .inl hn) fun o _ _ hf => ?_
    cases hf
  | apply =>
    rw [hevent] at hlast
    refine hok.ran rfl (addLink_backed (hok.backed h) hlast) (fun n hn => ?_) fun o _ _ hf => ?_
    · rcases addLink_names hn with hold | hname
      · exact .inl hold
      · cases hname
        exact .inr ⟨rfl, seen, hseen, hevent⟩
    · cases hf
  | cleanup =>
    rw [hevent] at hlast
    refine hok.ran rfl (deleteLink_backed (hok.backed h) _ publish)
      (fun n hn => .inl (deleteLink_names hn)) fun o ho hpatched hf => ?_
    obtain ⟨hothers, hown⟩ := hlast o ho (removeFinalizer_eq_none.mp hf) hpatched
    refine ⟨?_, hothers⟩
    rintro (hnamed | ⟨seen', hseen', hevent'⟩)
    · have hreleased : ¬ (deleteLink sha256 _ (seen.link name) publish).2.Names
          (seen.link name).name := deleteLink_released hown
      exact hreleased hnamed
    · -- the host has the version that is being deleted
      cases hseen.symm.trans hseen'
      rw [hevent] at hevent'
      cases hevent'
  | ignore => exact hok.viewed rfl fun n _ hawaits => hawaits

theorem fleetOk_step (hok : FleetOk sha256 s) {l : FleetStep η} (hlast : LastHolder sha256 s l)
    (hs : s.step sha256 l = some s') : FleetOk sha256 s' := by
  cases l with
  | create name spec =>
    simp only [Fleet.step] at hs
    split at hs
    · split at hs
      · cases hs
        exact ⟨fun n hgone => hok.gone n (HashMap.lookup_of_insert_none hgone), hok.backed⟩
      · cases hs
    · cases hs
  | delete name =>
    simp only [Fleet.step] at hs
    split at hs
    · rename_i o ho
      split at hs
      · cases hs
        exact ⟨fun n hgone => hok.gone n (HashMap.lookup_of_insert_none hgone), hok.backed⟩
      · rename_i hfinalizer
        cases hs
        refine ⟨fun n hgone => ?_, hok.backed⟩
        rw [HashMap.lookup_erase_if] at hgone
        split at hgone
        · rename_i heq
          subst heq
          exact hlast o ho (Bool.eq_false_iff.mpr hfinalizer)
        · exact hok.gone n hgone
    · cases hs
  | observe h name =>
    simp only [Fleet.step] at hs
    split at hs
    · rename_i o ho
      cases hs
      refine hok.viewed rfl ?_
      rintro n hgone ⟨seen, hseen, hevent⟩
      rw [HashMap.lookup_insert_if] at hseen
      split at hseen
      · rename_i heq
        rw [heq, ho] at hgone
        cases hgone
      · exact ⟨seen, hseen, hevent⟩
    · cases hs
      refine hok.viewed rfl ?_
      rintro n - ⟨seen, hseen, hevent⟩
      rw [HashMap.lookup_erase_if] at hseen
      split at hseen
      · cases hseen
      · exact ⟨seen, hseen, hevent⟩
  | process h name cluster publish patched =>
    simp only [Fleet.step] at hs
    split at hs
    · obtain ⟨seen, hseen, rfl⟩ := Option.map_eq_some_iff.mp hs
      exact fleetOk_process hok hseen hlast
    · cases hs

omit [DecidableEq η] in
theorem fleetOk_new (latticePrefix : String) : FleetOk sha256 (.new latticePrefix : Fleet η) := by
  refine ⟨?_, ?_⟩
  · rintro name - h (⟨id, found, names, hentry, -⟩ | ⟨seen, hseen, -⟩)
    · cases hentry
    · cases hseen
  · intro h key ld hkey
    cases hkey

/-- In a run in which a Link disappears only with its last holder, and every
new definition is published, no host keeps a Link that is gone. -/
theorem links_released (sha256 : String → String) (η : Type) [DecidableEq η]
    (latticePrefix : String) {tr : List (FleetStep η)} {s : Fleet η}
    (h : (fleetMachine sha256 η latticePrefix).RunWhen (LastHolder sha256) tr s) :
    s.Released sha256 := by
  have hok := h.invariant (I := FleetOk sha256) (fleetOk_new latticePrefix)
    fun s l s' hok hlast hs => fleetOk_step hok hlast hs
  exact hok.released

end Sha256

/-! ## Two hosts and one Link -/

def fleetSpec : LinkSpec :=
  ⟨"default", ⟨"V", ""⟩, ⟨"M", ""⟩, "wasmcloud:keyvalue", ∅⟩

def fleetCluster : Cluster where
  actor _ := none
  provider _ := none

/-- A host sees a Link and runs on it, and everything succeeds. -/
def handled (h : Bool) : List (FleetStep Bool) :=
  [.observe h "link", .process h "link" fleetCluster .sent true]

/-- A Link is created, applied by some hosts and deleted; then the first host
cleans it up, and both see that it is gone. -/
def fleetRun (hosts : List Bool) : List (FleetStep Bool) :=
  [.create "link" fleetSpec] ++ handled true ++ hosts.flatMap handled ++ [.delete "link"] ++
    handled true ++ [.observe true "link", .observe false "link"]

/-- What there is to see of a world without Links: no object, and nothing
delivered or to be processed. -/
def Fleet.bare (s : Fleet Bool) : List String × List (Finset String × List String) :=
  (s.objects.keys, [true, false].map fun h => ((s.hosts h).queue, (s.hosts h).store.keys))

theorem settled_of_bare {s : Fleet Bool} (h : s.bare = ([], [(∅, []), (∅, [])])) :
    s.Settled ∧ ∀ name, s.objects.lookup name = none := by
  simp only [Fleet.bare, List.map_cons, List.map_nil, Prod.mk.injEq, List.cons.injEq,
    and_true] at h
  obtain ⟨hobjects, ⟨hqueue, hstore⟩, hqueue', hstore'⟩ := h
  have hnone {m : HashMap String LinkObject} (hm : m.keys = []) (name : String) :
      m.lookup name = none := by
    rw [AList.lookup_eq_none, AList.mem_keys, hm]
    exact List.not_mem_nil
  refine ⟨fun h => ?_, hnone hobjects⟩
  cases h
  · exact ⟨hqueue', fun name => by rw [hnone hstore', hnone hobjects]⟩
  · exact ⟨hqueue, fun name => by rw [hnone hstore, hnone hobjects]⟩

/-- The other host has applied the Link as well, and keeps it. -/
theorem fleetRun_not_released :
    ∃ s, (fleetMachine id Bool "default").Run (fleetRun [true, false]) s ∧
      s.objects.lookup "link" = none ∧ s.Settled ∧ ¬ s.Released id := by
  have hbare : ((fleetMachine id Bool "default").exec (.new "default")
      (fleetRun [true, false])).map Fleet.bare = some ([], [(∅, []), (∅, [])]) := by decide
  have hnamed : ((fleetMachine id Bool "default").exec (.new "default")
      (fleetRun [true, false])).map (fun s =>
        ((s.hosts false).ctx.links.lookup "wasmcloud:keyvalue.M.default").map Prod.snd) =
      some (some {"link"}) := by decide
  obtain ⟨s, hexec, hbare⟩ := Option.map_eq_some_iff.mp hbare
  rw [hexec, Option.map_some, Option.some.injEq] at hnamed
  obtain ⟨⟨found, names⟩, hentry, rfl⟩ := Option.map_eq_some_iff.mp hnamed
  obtain ⟨hsettled, hgone⟩ := settled_of_bare hbare
  refine ⟨s, Machine.run_of_exec hexec, hgone "link", hsettled, fun hreleased => ?_⟩
  exact (hreleased hsettled "link" (hgone "link") false).names
    ⟨_, found, _, hentry, Finset.mem_singleton_self _⟩

/-- With no other host involved the cleanup is that of the last holder. -/
theorem fleetRun_released :
    ∃ s, (fleetMachine id Bool "default").RunWhen (LastHolder id) (fleetRun [true]) s ∧
      s.Released id := by
  have hrun : ∃ s, (fleetMachine id Bool "default").RunWhen (LastHolder id) (fleetRun [true]) s := by
    refine ⟨_, .snoc (.snoc (.snoc (.snoc (.snoc (.snoc (.snoc (.snoc (.snoc (.snoc .nil
      trivial rfl) trivial rfl) ?finalizer rfl) trivial rfl) ?apply rfl) ?delete rfl)
      trivial rfl) ?cleanup rfl) trivial rfl) trivial rfl⟩
    case finalizer =>
      intro seen hseen
      have hone : some _ = some seen := hseen
      cases Option.some.inj hone
      trivial
    case apply =>
      intro seen hseen
      have hone : some _ = some seen := hseen
      cases Option.some.inj hone
      exact fun _ _ _ _ => rfl
    case delete =>
      intro o ho hfinalizer
      have hone : some _ = some o := ho
      cases Option.some.inj hone
      cases hfinalizer
    case cleanup =>
      intro seen hseen
      have hone : some _ = some seen := hseen
      cases Option.some.inj hone
      intro o ho _ _
      refine ⟨fun h' hne => ?_, fun id found names hentry hin => ?_⟩
      · cases h'
        · rintro (⟨id, found, names, hentry, -⟩ | ⟨seen, hseen, -⟩)
          · cases hentry
          · cases hseen
        · exact absurd rfl hne
      · -- the only entry is the one the status leads to
        have hid : id ∈ ["wasmcloud:keyvalue.M.default"] :=
          AList.mem_keys.mp (AList.lookup_isSome.mp (Option.isSome_of_eq_some hentry))
        cases List.mem_singleton.mp hid
        exact ⟨_, rfl, rfl, rfl⟩
  obtain ⟨s, h⟩ := hrun
  exact ⟨s, h, links_released id Bool "default" h⟩

end KasmCloud
