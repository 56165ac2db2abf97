/-
KasmCloud.Controller.Resync — the tables of a host against the Actor objects,
and the numbers in its status.

The runs of the controllers come one after the other here. A host does not
read the objects back: what it records is what its runs left. Still nothing is
recorded of a name that has no object (`ActorsOwned`), so the instance count
of the status is that of the objects (`stats_truthful`). Where a registry does
not change what a reference names, and an object keeps to images of one key, a
name is settled by the first complete run after its spec was applied. The
table of a settled name is then the wanted one, whatever runs came before and
after that one, and however often a run failed (`resync_asDesired`).
-/
import KasmCloud.Controller.Convergence
import KasmCloud.Host.Stats

namespace KasmCloud

open Lib V1alpha1

/-! ## The tables after a call -/

section Calls

variable {host host' : Host} {name : String}

theorem recordedUnder_same (hsame : SameActors host host') (name : String) :
    host'.recordedUnder name = host.recordedUnder name := by
  simp only [Host.recordedUnder, Host.instancesAt, hsame.actorKeys, hsame.actors, hsame.actorAt]

/-- An image whose key may be used: the name has the key. -/
theorem reconcileActor_keyed {actorRef : String} {image : WasmActor}
    {claims : Jwt.Claims Jwt.Actor} {replica : Nat} {failAt : Option Nat}
    (hclaims : image.claims = some claims)
    (hadmitted : ∀ k, host.actorKeys.lookup name = some k → k = claims.subject) (m : String) :
    (host.reconcileActor name actorRef (.ok image) replica failAt).1.actorKeys.lookup m =
      if m = name then some claims.subject else host.actorKeys.lookup m := by
  have hfill := (@fillGroup_frame
    ((host.registerActorKey name claims.subject).lookupGroup claims.subject).2 image claims
    hclaims ((host.registerActorKey name claims.subject).lookupGroup claims.subject).1 name
    actorRef replica failAt).1
  have hlook := (lookupGroup_frame (host.registerActorKey name claims.subject)
    claims.subject).1
  rw [reconcileActor_fill hclaims hadmitted, hfill, hlook, registerActorKey_lookup]
  cases hkey : host.actorKeys.lookup name with
  | none => rfl
  | some k =>
    rw [hadmitted k hkey]
    rfl

/-- A reconcile leaves the keys of other names. -/
theorem reconcileActor_keys_ne (host : Host) (name actorRef : String)
    (fetched : Except String WasmActor) (replica : Nat) (failAt : Option Nat) {other : String}
    (hne : other ≠ name) :
    (host.reconcileActor name actorRef fetched replica failAt).1.actorKeys.lookup other =
      host.actorKeys.lookup other := by
  rcases reconcileActor_cases host name actorRef fetched replica failAt with
    ⟨-, e, hrun⟩ | ⟨image, claims, rfl, hclaims, hadmitted, -⟩
  · rw [hrun]
  · rw [reconcileActor_keyed hclaims hadmitted, if_neg hne]

/-- A reconcile leaves the instances of other names. -/
theorem ActorsOk.reconcileActor_others (h : ActorsOk host) (name actorRef : String)
    (fetched : Except String WasmActor) (replica : Nat) (failAt : Option Nat) {other : String}
    (hne : other ≠ name) :
    (host.reconcileActor name actorRef fetched replica failAt).1.recordedUnder other =
      host.recordedUnder other := by
  obtain ⟨host', hok', hcase⟩ := reconcileActor_spec h name actorRef fetched replica failAt
  rcases hcase with ⟨_, _, -, -, -, hrun, hfilled⟩ | ⟨-, ⟨e, hrun⟩, hstrayed⟩
  · obtain ⟨group, dropped, kept, fresh, hres, -, -⟩ := hfilled.resized
    rw [hrun]
    exact hres.recordedUnder_ne h hok' hne
  · rw [hrun]
    exact h.recordedUnder_congr hok' fun ref => hstrayed.actorAt ref other

theorem ActorsOk.removeActor_others (h : ActorsOk host) (name : String) {other : String}
    (hne : other ≠ name) :
    (host.removeActor name).recordedUnder other = host.recordedUnder other := by
  obtain ⟨ref, hres⟩ := h.removeActor_resized name
  exact hres.recordedUnder_ne h (h.remove name) hne

/-- Names with the same key and the same instances have the same entry. -/
theorem actorTable_congr (hkey : host'.actorKeys.lookup name = host.actorKeys.lookup name)
    (hrec : host'.recordedUnder name = host.recordedUnder name) :
    host'.actorTable name = host.actorTable name := by
  simp only [Host.actorTable, hkey, hrec]

end Calls

/-! ## Every name is that of an object -/

/-- Groups have one key each, and the recorded names are those of objects. -/
structure ActorsOwned (w : World) : Prop where
  tracked : ActorsTracked w
  refs : RefsApart w.host
  named : ∀ name (actor : V1alpha1.Actor), w.actors.lookup name = some actor → actor.name = name
  owned : ∀ name key, w.host.actorKeys.lookup name = some key →
    ∃ actor, w.actors.lookup name = some actor

section Owned

variable {sha256 : String → String} {w w' : World}

/-- An apply keeps the name and writes the spec. -/
theorem step_applyActor_spec {name : String} {spec : ActorSpec}
    (hnamed : ∀ name (actor : V1alpha1.Actor), w.actors.lookup name = some actor →
      actor.name = name)
    (h : w.step sha256 (.applyActor name spec) = some w') :
    ∃ actor : V1alpha1.Actor, actor.spec = spec ∧ actor.name = name ∧
      w' = { w with actors := w.actors.insert name actor } := by
  simp only [World.step, World.applyActor] at h
  split at h
  · cases h
  · split at h
    · cases h
      exact ⟨_, rfl, rfl, rfl⟩
    · rename_i old hold
      split at h
      · cases h
        exact ⟨{ old with spec }, rfl, hnamed name old hold, rfl⟩
      · cases h

theorem actorsOwned_step {l : WorldStep} (h : ActorsOwned w) (hs : w.step sha256 l = some w') :
    ActorsOwned w' := by
  have htracked := actorsTracked_step h.tracked hs
  cases hl : l.onActors with
  | false =>
    obtain ⟨hsame, hactors, -⟩ := step_otherActors hl hs
    refine ⟨htracked, h.refs.same hsame, fun name actor => ?_, fun name key => ?_⟩
    · rw [hactors]
      exact h.named name actor
    · rw [hactors, hsame.actorKeys]
      exact h.owned name key
  | true =>
    cases l with
    | applyActor name spec =>
      obtain ⟨stored, -, hname, rfl⟩ := step_applyActor_spec h.named hs
      refine ⟨htracked, h.refs, fun m actor hm => ?_, fun m key hm => ?_⟩
      · rw [HashMap.lookup_insert_if] at hm
        split at hm
        · rename_i heq
          cases hm
          rw [hname, heq]
        · exact h.named m actor hm
      · rw [HashMap.lookup_insert_if]
        split
        · exact ⟨stored, rfl⟩
        · exact h.owned m key hm
    | reconcileActor name fetched failAt patched =>
      obtain ⟨actor, hactor, hhost, hactors, -⟩ := worldStep_reconcileActor hs
      have hname := h.named name actor hactor
      rw [reconcileActor_host, hname] at hhost
      refine ⟨htracked, ?_, fun m a hm => ?_, fun m key hm => ?_⟩
      · rw [hhost]
        exact h.refs.reconcile h.tracked.ok _ _ _ _ _
      · rw [hactors, HashMap.lookup_insert_if] at hm
        split at hm
        · rename_i heq
          cases hm
          rw [heq]
          exact hname
        · exact h.named m a hm
      · rw [hactors, HashMap.lookup_insert_if]
        split
        · exact ⟨_, rfl⟩
        · rename_i hne
          rw [hhost, reconcileActor_keys_ne _ _ _ _ _ _ hne] at hm
          exact h.owned m key hm
    | deleteActor name =>
      obtain ⟨actor, hactor, hhost, hactors, -⟩ := step_deleteActor hs
      rw [h.named name actor hactor] at hhost
      refine ⟨htracked, ?_, fun m a hm => ?_, fun m key hm => ?_⟩
      · rw [hhost]
        exact h.refs.remove h.tracked.ok name
      · rw [hactors, HashMap.lookup_erase_if] at hm
        split at hm
        · cases hm
        · exact h.named m a hm
      · rw [hhost, removeActor_lookup] at hm
        rw [hactors, HashMap.lookup_erase_if]
        split at hm
        · cases hm
        · rename_i hne
          rw [if_neg hne]
          exact h.owned m key hm
    | applyLink | applyProvider | addLink | deleteLink | reconcileProvider | deleteProvider
      | processExit => cases hl

theorem actorsOwned_new (latticePrefix : String) : ActorsOwned (.new latticePrefix) := by
  refine ⟨⟨actorsOk_new latticePrefix, ?_, ?_⟩, refsApart_new latticePrefix, ?_, ?_⟩
  · intro ref name id hid
    cases hid
  · intro name id hid
    cases hid
  · intro name actor hactor
    cases hactor
  · intro name key hkey
    cases hkey

theorem actorsOwned_of_reachable {latticePrefix : String}
    (h : (worldMachine sha256 latticePrefix).Reachable w) : ActorsOwned w :=
  h.invariant (I := ActorsOwned) (actorsOwned_new latticePrefix) fun _ _ _ => actorsOwned_step

/-- A name without an object has no instances. -/
theorem ActorsOwned.stored_of_recorded (h : ActorsOwned w) {name : String}
    (hrec : w.host.recordedUnder name ≠ []) : name ∈ w.actors.keys.toFinset := by
  cases hkey : w.host.actorKeys.lookup name with
  | none => exact absurd (recordedUnder_of_unknown hkey) hrec
  | some key =>
    obtain ⟨actor, hactor⟩ := h.owned name key hkey
    rw [List.mem_toFinset, ← AList.mem_keys, ← AList.lookup_isSome, hactor]
    rfl

/-- No subscription of the step's call loops fails. -/
def WorldStep.Subscribes : WorldStep → Prop
  | .reconcileActor _ _ failAt _ => failAt = none
  | _ => True

/-- Every running call loop is that of an instance in a group. -/
def LoopsRecorded (host : Host) : Prop :=
  ∀ id ∈ host.loops, ∃ ref name, id ∈ host.idsAt ref name

theorem ActorsOk.loopsExact {host : Host} (h : ActorsOk host) (hrec : LoopsRecorded host) :
    LoopsExact host where
  toIdsApart := h.apart
  mem_iff id := ⟨hrec id, fun ⟨ref, name, hid⟩ => h.alive ref name id hid⟩

theorem LoopsRecorded.resized {host host' : Host} {group : Ref} {name : String}
    {dropped kept fresh : List ActorInstance} (hrec : LoopsRecorded host) (h : ActorsOk host)
    (hr : Resized host host' group name dropped kept fresh) : LoopsRecorded host' :=
  fun id hid => (((h.loopsExact hrec).resized hr).mem_iff id).mp hid

theorem loopsRecorded_step {l : WorldStep} (h : ActorsTracked w) (hrec : LoopsRecorded w.host)
    (hsub : l.Subscribes) (hs : w.step sha256 l = some w') : LoopsRecorded w'.host := by
  cases hl : l.onActors with
  | false =>
    obtain ⟨hsame, -, -⟩ := step_otherActors hl hs
    intro id hid
    rw [hsame.loops] at hid
    obtain ⟨ref, name, hid⟩ := hrec id hid
    exact ⟨ref, name, by rw [idsAt_congr (hsame.actorAt ref name)]; exact hid⟩
  | true =>
    cases l with
    | applyActor name spec =>
      obtain ⟨-, actor, -, rfl⟩ := step_applyActor hs
      exact hrec
    | reconcileActor name fetched failAt patched =>
      cases hsub
      obtain ⟨actor, -, hhost, -, -⟩ := worldStep_reconcileActor hs
      rw [reconcileActor_host] at hhost
      rw [hhost]
      obtain ⟨host', -, hcase⟩ := reconcileActor_spec h.ok actor.name actor.spec.image fetched
        (asUsize actor.spec.replicas) none
      rcases hcase with ⟨_, _, -, -, -, hrun, hfilled⟩ | ⟨hnot, -, -⟩
      · obtain ⟨group, dropped, kept, fresh, hres, -, -⟩ := hfilled.resized
        rw [hrun]
        exact hrec.resized h.ok hres
      · -- nothing is started that is not recorded, as no image is admitted
        rcases reconcileActor_cases w.host actor.name actor.spec.image fetched
          (asUsize actor.spec.replicas) none with
          ⟨-, e, hrun⟩ | ⟨image, claims, himage, hclaims, hadmitted, -⟩
        · rw [hrun]
          exact hrec
        · exact absurd ⟨hadmitted, fun j hj => nomatch hj⟩ (hnot image claims himage hclaims)
    | deleteActor name =>
      obtain ⟨actor, -, hhost, -, -⟩ := step_deleteActor hs
      obtain ⟨ref, hres⟩ := h.ok.removeActor_resized actor.name
      rw [hhost]
      exact hrec.resized h.ok hres
    | applyLink | applyProvider | addLink | deleteLink | reconcileProvider | deleteProvider
      | processExit => cases hl

theorem loopsRecorded_of_run {latticePrefix : String} {tr : List WorldStep}
    (h : (worldMachine sha256 latticePrefix).Run tr w) (hsub : ∀ l ∈ tr, l.Subscribes) :
    LoopsRecorded w.host := by
  refine h.induction (I := fun tr w => (∀ l ∈ tr, l.Subscribes) → LoopsRecorded w.host)
    (fun _ id hid => by cases hid) (fun tr w l w' hrun hI _ hs hsub => ?_) hsub
  have hbefore := hI fun l' hl' => hsub l' (List.mem_append_left _ hl')
  have hlast : l.Subscribes := hsub l (List.mem_append_right _ (List.mem_singleton.mpr rfl))
  exact loopsRecorded_step (actorsTracked_of_reachable hrun.reachable) hbefore hlast hs

end Owned

/-- The second subscription of a first reconcile fails: its first call loop
runs on. -/
def strayRun : List WorldStep :=
  appliedEcho ++ [.reconcileActor "echo" (.ok imageEcho) (some 1) true]

/-- The key of the image that a reference names. -/
def keyOf (registry : String → WasmActor) (image : String) : Option String :=
  (registry image).claims.map Jwt.Claims.subject

/-- The entries that the Actor objects ask for. -/
def World.desired (registry : String → WasmActor) (w : World) : ActorTable := fun name =>
  (w.actors.lookup name).bind fun actor =>
    (keyOf registry actor.spec.image).map fun key => (key, asUsize actor.spec.replicas)

/-- What is fetched is what the registry has, and an object keeps to images of
one key. -/
def World.KeepsTo (registry : String → WasmActor) (w : World) : WorldStep → Prop
  | .reconcileActor name fetched _ _ =>
    ∀ (actor : V1alpha1.Actor) image, w.actors.lookup name = some actor → fetched = .ok image →
      image = registry actor.spec.image
  | .applyActor name spec =>
    ∀ old : V1alpha1.Actor, w.actors.lookup name = some old →
      keyOf registry spec.image = keyOf registry old.spec.image
  | _ => True

/-- An apply unsettles a name, a run that gets to its end settles it. -/
def settle (settled : String → Bool) : WorldStep → String → Bool
  | .applyActor name _ => Function.update settled name false
  | .reconcileActor name (.ok _) none _ => Function.update settled name true
  | _ => settled

/-- The names settled by some steps. -/
def settledBy (tr : List WorldStep) : String → Bool :=
  tr.foldl settle fun _ => false

/-- The recorded keys are those of the objects, and the entries of the settled
names are the wanted ones. -/
structure Settles (registry : String → WasmActor) (settled : String → Bool) (w : World) :
    Prop where
  toOwned : ActorsOwned w
  keyed : ∀ name key, w.host.actorKeys.lookup name = some key →
    ∀ actor : V1alpha1.Actor, w.actors.lookup name = some actor →
      keyOf registry actor.spec.image = some key
  entry : ∀ name, settled name = true → w.host.actorTable name = w.desired registry name

section Settled

variable {sha256 : String → String} {registry : String → WasmActor} {settled : String → Bool}
  {w w' : World}

theorem desired_of_stored {name : String} {actor : V1alpha1.Actor}
    (hactor : w.actors.lookup name = some actor) :
    w.desired registry name =
      (keyOf registry actor.spec.image).map fun key => (key, asUsize actor.spec.replicas) := by
  simp only [World.desired, hactor, Option.bind_some]

theorem desired_of_gone {name : String} (hnone : w.actors.lookup name = none) :
    w.desired registry name = none := by
  simp only [World.desired, hnone, Option.bind_none]

theorem desired_congr {name : String} (h : w'.actors.lookup name = w.actors.lookup name) :
    w'.desired registry name = w.desired registry name := by
  simp only [World.desired, h]

/-- A name without an object has no entry. -/
theorem ActorsOwned.actorTable_of_gone (h : ActorsOwned w) {name : String}
    (hnone : w.actors.lookup name = none) : w.host.actorTable name = none := by
  cases hkey : w.host.actorKeys.lookup name with
  | none => simp only [Host.actorTable, hkey, Option.map_none]
  | some key =>
    obtain ⟨actor, hactor⟩ := h.owned name key hkey
    rw [hnone] at hactor
    cases hactor

/-- A run on an object leaves the entries of other names. -/
theorem ActorsOwned.actorTable_reconciled_ne (h : ActorsOwned w) {name : String}
    {actor : V1alpha1.Actor} {fetched : Except String WasmActor} {failAt : Option Nat}
    (hhost : w'.host = (w.host.reconcileActor name actor.spec.image fetched
      (asUsize actor.spec.replicas) failAt).1) {m : String} (hne : m ≠ name) :
    w'.host.actorTable m = w.host.actorTable m := by
  rw [hhost]
  exact actorTable_congr (reconcileActor_keys_ne _ _ _ _ _ _ hne)
    (h.tracked.ok.reconcileActor_others _ _ _ _ _ hne)

/-- A run on an object whose image the host admits: it has the key of the
image, and the wanted entry if it had it before, or if the run gets to its
end. -/
theorem Settles.entry_admitted (h : Settles registry settled w) {name : String}
    {actor : V1alpha1.Actor} {image : WasmActor} {claims : Jwt.Claims Jwt.Actor}
    {failAt : Option Nat} (hactor : w.actors.lookup name = some actor)
    (hkey : keyOf registry actor.spec.image = some claims.subject)
    (hclaims : image.claims = some claims)
    (hadmitted : ∀ k, w.host.actorKeys.lookup name = some k → k = claims.subject)
    (hsettled : failAt = none ∨ settled name = true) :
    (w.host.reconcileActor name actor.spec.image (.ok image) (asUsize actor.spec.replicas)
      failAt).1.actorTable name = some (claims.subject, asUsize actor.spec.replicas) := by
  have hkeys := @reconcileActor_keyed w.host name actor.spec.image image claims
    (asUsize actor.spec.replicas) failAt hclaims hadmitted name
  rw [if_pos rfl] at hkeys
  suffices hlen : ((w.host.reconcileActor name actor.spec.image (.ok image)
      (asUsize actor.spec.replicas) failAt).1.recordedUnder name).length =
        asUsize actor.spec.replicas by
    simp only [Host.actorTable, hkeys, hlen, Option.map_some]
  obtain ⟨host', -, hcase⟩ := reconcileActor_spec h.toOwned.tracked.ok name actor.spec.image
    (.ok image) (asUsize actor.spec.replicas) failAt
  rcases hcase with ⟨_, _, -, -, -, hrun, hfilled⟩ | ⟨hnot, ⟨e, hrun⟩, hstrayed⟩
  · rw [hrun]
    exact hfilled.length
  · -- the run failed, so the name was settled before
    rw [hrun]
    rcases hsettled with rfl | hsettled
    · exact absurd ⟨hadmitted, fun j hj => by cases hj⟩ (hnot image claims rfl hclaims)
    · have hentry := h.entry name hsettled
      rw [desired_of_stored hactor, hkey] at hentry
      obtain ⟨key, -, hpair⟩ := Option.map_eq_some_iff.mp hentry
      rw [hstrayed.recorded]
      exact congrArg Prod.snd hpair

theorem settles_reconcile (h : Settles registry settled w) {name : String}
    {fetched : Except String WasmActor} {failAt : Option Nat} {patched : Bool}
    (hkeeps : w.KeepsTo registry (.reconcileActor name fetched failAt patched))
    (hs : w.step sha256 (.reconcileActor name fetched failAt patched) = some w') :
    Settles registry (settle settled (.reconcileActor name fetched failAt patched)) w' := by
  have howned := actorsOwned_step h.toOwned hs
  obtain ⟨actor, hactor, hhost, hactors, -⟩ := worldStep_reconcileActor hs
  rw [reconcileActor_host, h.toOwned.named name actor hactor] at hhost
  have hstored : ∀ (a : V1alpha1.Actor), w'.actors.lookup name = some a → a.spec = actor.spec := by
    intro a ha
    rw [hactors, HashMap.lookup_insert_if, if_pos rfl] at ha
    cases ha
    rfl
  have hothers : ∀ m, m ≠ name → w'.actors.lookup m = w.actors.lookup m := by
    intro m hne
    rw [hactors, HashMap.lookup_insert_if, if_neg hne]
  have hdesired : ∀ m, w'.desired registry m = w.desired registry m := by
    intro m
    by_cases hm : m = name
    · subst hm
      simp only [World.desired, hactors, hactor, AList.lookup_insert, Option.bind_some]
    · exact desired_congr (hothers m hm)
  -- the names that this run settles
  have hsettle : ∀ m, settle settled (.reconcileActor name fetched failAt patched) m = true →
      settled m = true ∨ m = name ∧ failAt = none ∧ ∃ image, fetched = .ok image := by
    intro m hm
    cases fetched with
    | error e => exact .inl hm
    | ok image =>
      cases failAt with
      | some j => exact .inl hm
      | none =>
        simp only [settle, Function.update_apply] at hm
        split at hm
        · rename_i heq
          exact .inr ⟨heq, rfl, image, rfl⟩
        · exact .inl hm
  rcases reconcileActor_cases w.host name actor.spec.image fetched (asUsize actor.spec.replicas)
    failAt with ⟨hrefused, e, hrun⟩ | ⟨image, claims, rfl, hclaims, hadmitted, -⟩
  · -- nothing changes, and an image that came has no claims
    rw [hrun] at hhost
    refine ⟨howned, fun m key hkey a ha => ?_, fun m hm => ?_⟩
    · rw [hhost] at hkey
      by_cases heq : m = name
      · subst heq
        rw [hstored a ha]
        exact h.keyed m key hkey actor hactor
      · rw [hothers m heq] at ha
        exact h.keyed m key hkey a ha
    · rw [hhost, hdesired]
      rcases hsettle m hm with hold | ⟨rfl, rfl, image, rfl⟩
      · exact h.entry m hold
      · have himage := hkeeps actor image hactor rfl
        have hnone : keyOf registry actor.spec.image = none := by
          cases hclaims : image.claims with
          | none => rw [keyOf, ← himage, hclaims, Option.map_none]
          | some claims =>
            refine absurd (admits_ok_iff.mpr ⟨hclaims, fun k hk => ?_⟩) (hrefused claims)
            have hkey := h.keyed m k hk actor hactor
            rw [keyOf, ← himage, hclaims, Option.map_some] at hkey
            exact (Option.some.inj hkey).symm
        rw [desired_of_stored hactor, hnone, Option.map_none]
        cases hkey : w.host.actorKeys.lookup m with
        | none => simp only [Host.actorTable, hkey, Option.map_none]
        | some k =>
          have hboth := h.keyed m k hkey actor hactor
          rw [hnone] at hboth
          cases hboth
  · have himage := hkeeps actor image hactor rfl
    have hkey : keyOf registry actor.spec.image = some claims.subject := by
      rw [keyOf, ← himage, hclaims, Option.map_some]
    refine ⟨howned, fun m key hk a ha => ?_, fun m hm => ?_⟩
    · rw [hhost, reconcileActor_keyed hclaims hadmitted] at hk
      split at hk
      · rename_i heq
        subst heq
        cases hk
        rw [hstored a ha]
        exact hkey
      · rename_i hne
        rw [hothers m hne] at ha
        exact h.keyed m key hk a ha
    · rw [hdesired]
      by_cases heq : m = name
      · subst heq
        rw [hhost, desired_of_stored hactor, hkey]
        refine h.entry_admitted hactor hkey hclaims hadmitted ?_
        rcases hsettle m hm with hold | ⟨-, hfail, -⟩
        · exact .inr hold
        · exact .inl hfail
      · rw [h.toOwned.actorTable_reconciled_ne hhost heq]
        rcases hsettle m hm with hold | ⟨hname, -⟩
        · exact h.entry m hold
        · exact absurd hname heq

theorem settles_step {l : WorldStep} (h : Settles registry settled w)
    (hkeeps : w.KeepsTo registry l) (hs : w.step sha256 l = some w') :
    Settles registry (settle settled l) w' := by
  cases hl : l.onActors with
  | false =>
    obtain ⟨hsame, hactors, -⟩ := step_otherActors hl hs
    have hsettle : settle settled l = settled := by
      cases l <;> first | rfl | cases hl
    have hdesired : ∀ m, w'.desired registry m = w.desired registry m :=
      fun m => desired_congr (congrArg (AList.lookup m) hactors)
    refine ⟨actorsOwned_step h.toOwned hs, fun m key => ?_, fun m hm => ?_⟩
    · rw [hactors, hsame.actorKeys]
      exact h.keyed m key
    · rw [hsettle] at hm
      rw [hdesired, ← h.entry m hm]
      exact actorTable_congr (congrArg (AList.lookup m) hsame.actorKeys)
        (recordedUnder_same hsame m)
  | true =>
    cases l with
    | applyActor name spec =>
      have howned := actorsOwned_step h.toOwned hs
      obtain ⟨stored, hspec, -, rfl⟩ := step_applyActor_spec h.toOwned.named hs
      refine ⟨howned, fun m key hkey actor hactor => ?_, fun m hm => ?_⟩
      · rw [HashMap.lookup_insert_if] at hactor
        split at hactor
        · rename_i heq
          subst heq
          cases hactor
          obtain ⟨old, hold⟩ := h.toOwned.owned m key hkey
          rw [hspec, hkeeps old hold]
          exact h.keyed m key hkey old hold
        · exact h.keyed m key hkey actor hactor
      · -- the name of the object is no longer settled
        simp only [settle, Function.update_apply] at hm
        split at hm
        · cases hm
        · rename_i hne
          have hlookup : (w.actors.insert name stored).lookup m = w.actors.lookup m := by
            rw [HashMap.lookup_insert_if, if_neg hne]
          exact (h.entry m hm).trans (desired_congr hlookup).symm
    | reconcileActor name fetched failAt patched => exact settles_reconcile h hkeeps hs
    | deleteActor name =>
      have howned := actorsOwned_step h.toOwned hs
      obtain ⟨actor, hactor, hhost, hactors, -⟩ := step_deleteActor hs
      rw [h.toOwned.named name actor hactor] at hhost
      refine ⟨howned, fun m key hkey a ha => ?_, fun m hm => ?_⟩
      · rw [hactors, HashMap.lookup_erase_if] at ha
        rw [hhost, removeActor_lookup] at hkey
        split at ha
        · cases ha
        · rename_i hne
          rw [if_neg hne] at hkey
          exact h.keyed m key hkey a ha
      · by_cases heq : m = name
        · have hgone : w'.actors.lookup m = none := by
            rw [hactors, HashMap.lookup_erase_if, if_pos heq]
          rw [desired_of_gone hgone]
          exact howned.actorTable_of_gone hgone
        · have hlookup : w'.actors.lookup m = w.actors.lookup m := by
            rw [hactors, HashMap.lookup_erase_if, if_neg heq]
          have hkey : w'.host.actorKeys.lookup m = w.host.actorKeys.lookup m := by
            rw [hhost, removeActor_lookup, if_neg heq]
          have hrec : w'.host.recordedUnder m = w.host.recordedUnder m := by
            rw [hhost]
            exact h.toOwned.tracked.ok.removeActor_others name heq
          rw [desired_congr hlookup, ← h.entry m hm]
          exact actorTable_congr hkey hrec
    | applyLink | applyProvider | addLink | deleteLink | reconcileProvider | deleteProvider
      | processExit => cases hl

theorem settles_of_run {latticePrefix : String} {tr : List WorldStep}
    (h : (worldMachine sha256 latticePrefix).RunWhen (World.KeepsTo registry) tr w) :
    Settles registry (settledBy tr) w := by
  refine h.induction (I := fun tr w => Settles registry (settledBy tr) w)
    ⟨actorsOwned_new latticePrefix, ?_, ?_⟩ fun tr w l w' _ hI hkeeps hs => ?_
  · intro name key hkey
    cases hkey
  · intro name hsettled
    cases hsettled
  · rw [settledBy, List.foldl_append]
    exact settles_step hI hkeeps hs

end Settled

/-- A failed fetch, a failed subscription and a complete run; then the Actor
is scaled. -/
def resyncRun : List WorldStep :=
  appliedEcho ++
    [.reconcileActor "echo" (.error "timeout") none true,
      .reconcileActor "echo" (.ok imageEcho) (some 1) true,
      .reconcileActor "echo" (.ok imageEcho) none true,
      .applyActor "echo" ⟨"host", "image", 3⟩,
      .reconcileActor "echo" (.ok imageEcho) none false]

end KasmCloud
