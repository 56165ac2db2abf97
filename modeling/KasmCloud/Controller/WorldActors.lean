/-
KasmCloud.Controller.WorldActors — what the steps of a world do to the
actors and their call loops.

The Link and Provider controllers leave them alone (`step_otherActors`).
`ActorsTracked` holds of every reachable world: the tables of the host are
as `ActorsOk` says, and `startedFor` knows the loop of every instance.
`ObjectsAdmitted` is what the webhooks see to.
-/
import KasmCloud.Controller.WorldTheorems

namespace KasmCloud

open Lib V1alpha1

/-! ## Steps -/

/-- The steps that look at the Actor objects or their instances. -/
def WorldStep.onActors : WorldStep → Bool
  | .applyActor .. | .reconcileActor .. | .deleteActor .. => true
  | _ => false

section Steps

variable {sha256 : String → String} {w w' : World}

theorem step_otherActors {l : WorldStep} (hother : l.onActors = false)
    (h : w.step sha256 l = some w') :
    SameActors w.host w'.host ∧ w'.actors = w.actors ∧ w'.startedFor = w.startedFor := by
  cases l with
  | applyLink name spec =>
    obtain ⟨link, -, rfl⟩ := step_applyLink h
    exact ⟨.refl _, rfl, rfl⟩
  | applyProvider name spec =>
    obtain ⟨provider, rfl, -⟩ := step_applyProvider h
    exact ⟨.refl _, rfl, rfl⟩
  | addLink name cluster publish patched =>
    obtain ⟨link, -, rfl⟩ := Option.map_eq_some_iff.mp h
    refine ⟨?_, rfl, rfl⟩
    show SameActors w.ctx.host (addLink sha256 w.ctx cluster link publish).ctx.host
    rcases addLink_host sha256 w.ctx cluster link publish with hhost | ⟨ld, hhost⟩
    · rw [hhost]
      exact .refl _
    · rw [hhost]
      exact addLinkdef_sameActors sha256 _ ld publish
  | deleteLink name publish =>
    obtain ⟨link, -, rfl⟩ := Option.map_eq_some_iff.mp h
    refine ⟨?_, rfl, rfl⟩
    show SameActors w.ctx.host (deleteLink sha256 w.ctx link publish).2.host
    rcases deleteLink_host sha256 w.ctx link publish with hhost | ⟨ld, hhost⟩
    · rw [hhost]
      exact .refl _
    · rw [hhost]
      exact deleteLinkdef_sameActors sha256 _ ld publish
  | reconcileProvider name fetched failure patched =>
    obtain ⟨g, -, rfl⟩ := Option.map_eq_some_iff.mp h
    refine ⟨?_, rfl, rfl⟩
    show SameActors w.host (reconcileProvider w.host g fetched failure).host
    rw [reconcileProvider_host]
    exact startProvider_sameActors _ _ _ fetched failure
  | deleteProvider name shutdown =>
    obtain ⟨g, -, rfl⟩ := Option.map_eq_some_iff.mp h
    refine ⟨?_, rfl, rfl⟩
    show SameActors w.host (deleteProvider w.host g shutdown).2
    unfold deleteProvider
    split
    · exact .refl _
    · split
      · exact .refl _
      · exact stopProvider_sameActors _ _ _ shutdown
  | processExit pid =>
    cases h
    exact ⟨sameActors_of_eq rfl rfl rfl rfl le_rfl, rfl, rfl⟩
  | applyActor name spec => cases hother
  | reconcileActor name fetched failAt patched => cases hother
  | deleteActor name => cases hother

theorem worldStep_reconcileActor {name : String} {fetched : Except String WasmActor}
    {failAt : Option Nat} {patched : Bool}
    (h : w.step sha256 (.reconcileActor name fetched failAt patched) = some w') :
    ∃ actor, w.actors.lookup name = some actor ∧
      w'.host = (reconcileActor w.host actor fetched failAt).host ∧
      w'.actors = w.actors.insert name
        { actor with
          status := patchStatus actor.status (reconcileActor w.host actor fetched failAt).patch
            patched } ∧
      w'.startedFor = w.startedFor.insert actor.name
        (w.startedBy actor.name ∪ (w'.host.loops \ w.host.loops)) := by
  obtain ⟨actor, hactor, rfl⟩ := Option.map_eq_some_iff.mp h
  exact ⟨actor, hactor, rfl, rfl, rfl⟩

theorem step_deleteActor {name : String} (h : w.step sha256 (.deleteActor name) = some w') :
    ∃ actor, w.actors.lookup name = some actor ∧ w'.host = w.host.removeActor actor.name ∧
      w'.actors = w.actors.erase name ∧ w'.startedFor = w.startedFor := by
  obtain ⟨actor, hactor, rfl⟩ := Option.map_eq_some_iff.mp h
  exact ⟨actor, hactor, rfl, rfl, rfl⟩

/-! ## Reachable worlds -/

/-- The host's tables are in order, and `startedFor` has the loop of every
instance under its name. -/
structure ActorsTracked (w : World) : Prop where
  ok : ActorsOk w.host
  started : ∀ ref name (id : Nat), id ∈ w.host.idsAt ref name → id ∈ w.startedBy name
  used : ∀ name, ∀ id ∈ w.startedBy name, id < w.host.nextId

theorem startedBy_congr (h : w'.startedFor = w.startedFor) (name : String) :
    w'.startedBy name = w.startedBy name := by
  rw [World.startedBy, World.startedBy, h]

theorem ActorsTracked.same (h : ActorsTracked w) (hsame : SameActors w.host w'.host)
    (hstarted : w'.startedFor = w.startedFor) : ActorsTracked w' where
  ok := h.ok.same hsame
  started ref name id hid := by
    rw [startedBy_congr hstarted]
    exact h.started ref name id (idsAt_congr (hsame.actorAt ref name) ▸ hid)
  used name id hid := by
    rw [startedBy_congr hstarted] at hid
    exact lt_of_lt_of_le (h.used name id hid) hsame.nextId

/-- A run for a name: whatever is at a place was there before, or is new and
that of the name. -/
theorem ActorsTracked.reconciled (h : ActorsTracked w) (hok : ActorsOk w'.host) {name : String}
    (hstarted : w'.startedFor = w.startedFor.insert name
      (w.startedBy name ∪ (w'.host.loops \ w.host.loops)))
    (hnext : w.host.nextId ≤ w'.host.nextId)
    (hids : ∀ ref m (id : Nat), id ∈ w'.host.idsAt ref m →
      id ∈ w.host.idsAt ref m ∨ m = name ∧ id ∉ w.host.loops) : ActorsTracked w' := by
  have hby : ∀ m, w'.startedBy m =
      if m = name then w.startedBy name ∪ (w'.host.loops \ w.host.loops) else w.startedBy m := by
    intro m
    rw [World.startedBy, hstarted, HashMap.lookup_insert_if]
    split
    · rfl
    · rfl
  refine ⟨hok, fun ref m id hid => ?_, fun m id hid => ?_⟩
  · rw [hby]
    rcases hids ref m id hid with hold | ⟨rfl, hnew⟩
    · split
      · rename_i hm
        subst hm
        exact Finset.mem_union_left _ (h.started ref m id hold)
      · exact h.started ref m id hold
    · rw [if_pos rfl]
      exact Finset.mem_union_right _ (Finset.mem_sdiff.mpr ⟨hok.alive ref m id hid, hnew⟩)
  · rw [hby] at hid
    split at hid
    · rcases Finset.mem_union.mp hid with hold | hnew
      · exact lt_of_lt_of_le (h.used name id hold) hnext
      · exact hok.used id (Finset.mem_sdiff.mp hnew).1
    · exact lt_of_lt_of_le (h.used m id hid) hnext

theorem actorsTracked_step {l : WorldStep} (h : ActorsTracked w)
    (hs : w.step sha256 l = some w') : ActorsTracked w' := by
  cases hl : l.onActors with
  | false =>
    obtain ⟨hsame, -, hstarted⟩ := step_otherActors hl hs
    exact h.same hsame hstarted
  | true =>
    cases l with
    | applyActor name spec =>
      obtain ⟨-, actor, -, rfl⟩ := step_applyActor hs
      exact h.same (.refl _) rfl
    | reconcileActor name fetched failAt patched =>
      obtain ⟨actor, -, hhost, -, hstarted⟩ := worldStep_reconcileActor hs
      obtain ⟨host', hok, hcase⟩ := reconcileActor_spec h.ok actor.name actor.spec.image fetched
        (asUsize actor.spec.replicas) failAt
      rcases hcase with ⟨module, claims, -, -, -, hrun, hfilled⟩ | ⟨-, ⟨e, hrun⟩, hstrayed⟩
      · rw [reconcileActor_host, hrun] at hhost
        obtain ⟨group, dropped, kept, fresh, hres, -, -⟩ := hfilled.resized
        refine h.reconciled (hhost ▸ hok) hstarted ?_ fun ref m id hid => ?_
        · rw [hhost, hres.nextId]
          exact Nat.le_add_right _ _
        · rw [hhost] at hid
          rcases hres.mem_idsAt h.ok.apart hid with ⟨hold, -⟩ | ⟨⟨-, rfl⟩, hnew⟩
          · exact .inl hold
          · refine .inr ⟨rfl, fun hin => ?_⟩
            exact absurd (h.ok.used id hin) (Nat.not_lt.mpr (hres.mem_fresh hnew).1)
      · rw [reconcileActor_host, hrun] at hhost
        refine h.reconciled (hhost ▸ hok) hstarted (hhost ▸ hstrayed.nextId) fun ref m id hid => ?_
        rw [hhost, idsAt_congr (hstrayed.actorAt ref m)] at hid
        exact .inl hid
    | deleteActor name =>
      obtain ⟨actor, -, hhost, -, hstarted⟩ := step_deleteActor hs
      refine ⟨hhost ▸ h.ok.remove actor.name, fun ref m id hid => ?_, fun m id hid => ?_⟩
      · rw [startedBy_congr hstarted]
        exact h.started ref m id (h.ok.idsAt_of_remove (hhost ▸ hid))
      · rw [startedBy_congr hstarted] at hid
        rw [hhost]
        exact lt_of_lt_of_le (h.used m id hid) (removeActor_sameProviders w.host actor.name).nextId
    | applyLink | applyProvider | addLink | deleteLink | reconcileProvider | deleteProvider
      | processExit => cases hl

theorem actorsTracked_of_reachable {latticePrefix : String}
    (h : (worldMachine sha256 latticePrefix).Reachable w) : ActorsTracked w := by
  refine h.invariant (I := ActorsTracked) ⟨actorsOk_new latticePrefix, ?_, ?_⟩
    fun w l w' => actorsTracked_step
  · intro ref name id hid
    cases hid
  · intro name id hid
    cases hid

/-- What the webhooks have let through. -/
structure ObjectsAdmitted (w : World) : Prop where
  replicas : ∀ name (actor : V1alpha1.Actor), w.actors.lookup name = some actor →
    0 ≤ actor.spec.replicas.toInt
  valid : ∀ name (link : Link), w.links.lookup name = some link → link.validate = []

theorem actors_admitted_step {l : WorldStep} (hs : w.step sha256 l = some w')
    (h : ∀ name (actor : V1alpha1.Actor), w.actors.lookup name = some actor →
      0 ≤ actor.spec.replicas.toInt) :
    ∀ name (actor : V1alpha1.Actor), w'.actors.lookup name = some actor →
      0 ≤ actor.spec.replicas.toInt := by
  intro n a ha
  cases hl : l.onActors with
  | false =>
    rw [(step_otherActors hl hs).2.1] at ha
    exact h n a ha
  | true =>
    cases l with
    | applyActor name spec =>
      obtain ⟨hnonneg, actor, hspec, rfl⟩ := step_applyActor hs
      rw [HashMap.lookup_insert_if] at ha
      split at ha
      · cases ha
        rw [hspec]
        exact hnonneg
      · exact h n a ha
    | reconcileActor name fetched failAt patched =>
      obtain ⟨actor, hactor, -, hactors, -⟩ := worldStep_reconcileActor hs
      rw [hactors, HashMap.lookup_insert_if] at ha
      split at ha
      · cases ha
        exact h name actor hactor
      · exact h n a ha
    | deleteActor name =>
      obtain ⟨actor, -, -, hactors, -⟩ := step_deleteActor hs
      rw [hactors, HashMap.lookup_erase_if] at ha
      split at ha
      · cases ha
      · exact h n a ha
    | applyLink | applyProvider | addLink | deleteLink | reconcileProvider | deleteProvider
      | processExit => cases hl

/-- How a step can change the Links: a valid one is stored, one gets another
status, one goes. -/
theorem step_links {l : WorldStep} (hs : w.step sha256 l = some w') :
    w'.links = w.links ∨
      (∃ name link, link.validate = [] ∧ w'.links = w.links.insert name link) ∨
      (∃ name link status, w.links.lookup name = some link ∧
        w'.links = w.links.insert name { link with status }) ∨
      ∃ name, w'.links = w.links.erase name := by
  cases l with
  | applyLink name spec =>
    obtain ⟨link, hvalid, rfl⟩ := step_applyLink hs
    exact .inr (.inl ⟨name, link, hvalid, rfl⟩)
  | addLink name cluster publish patched =>
    obtain ⟨link, hlink, rfl⟩ := Option.map_eq_some_iff.mp hs
    exact .inr (.inr (.inl ⟨name, link, _, hlink, rfl⟩))
  | deleteLink name publish =>
    obtain ⟨link, -, rfl⟩ := Option.map_eq_some_iff.mp hs
    exact .inr (.inr (.inr ⟨name, rfl⟩))
  | applyActor name spec =>
    obtain ⟨-, actor, -, rfl⟩ := step_applyActor hs
    exact .inl rfl
  | applyProvider name spec =>
    obtain ⟨provider, rfl, -⟩ := step_applyProvider hs
    exact .inl rfl
  | reconcileActor name fetched failAt patched =>
    obtain ⟨actor, -, rfl⟩ := Option.map_eq_some_iff.mp hs
    exact .inl rfl
  | deleteActor name =>
    obtain ⟨actor, -, rfl⟩ := Option.map_eq_some_iff.mp hs
    exact .inl rfl
  | reconcileProvider name fetched failure patched =>
    obtain ⟨g, -, rfl⟩ := Option.map_eq_some_iff.mp hs
    exact .inl rfl
  | deleteProvider name shutdown =>
    obtain ⟨g, -, rfl⟩ := Option.map_eq_some_iff.mp hs
    exact .inl rfl
  | processExit pid =>
    cases hs
    exact .inl rfl

theorem links_admitted_step {l : WorldStep} (hs : w.step sha256 l = some w')
    (h : ∀ name (link : Link), w.links.lookup name = some link → link.validate = []) :
    ∀ name (link : Link), w'.links.lookup name = some link → link.validate = [] := by
  intro n link hlink
  rcases step_links hs with hsame | ⟨name, stored, hvalid, hinsert⟩ |
    ⟨name, old, status, hold, hinsert⟩ | ⟨name, herase⟩
  · rw [hsame] at hlink
    exact h n link hlink
  · rw [hinsert, HashMap.lookup_insert_if] at hlink
    split at hlink
    · cases hlink
      exact hvalid
    · exact h n link hlink
  · rw [hinsert, HashMap.lookup_insert_if] at hlink
    split at hlink
    · -- the webhook looks at the spec only
      cases hlink
      exact h name old hold
    · exact h n link hlink
  · rw [herase, HashMap.lookup_erase_if] at hlink
    split at hlink
    · cases hlink
    · exact h n link hlink

theorem objectsAdmitted_of_reachable {latticePrefix : String}
    (h : (worldMachine sha256 latticePrefix).Reachable w) : ObjectsAdmitted w := by
  refine h.invariant (I := ObjectsAdmitted) ⟨?_, ?_⟩ fun w l w' hok hs =>
    ⟨actors_admitted_step hs hok.replicas, links_admitted_step hs hok.valid⟩
  · intro name actor hactor
    cases hactor
  · intro name link hlink
    cases hlink

end Steps

end KasmCloud
