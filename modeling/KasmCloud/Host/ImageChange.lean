/-
KasmCloud.Host.ImageChange — which image the instances of a name run after a
reconcile.

All instances of an actor run its pool under its handler, and the handler
has the claims of the pool (`InstancesUniform`, in every reachable state). A
reconcile that finds an actor scales it and keeps both, whatever image it
was called with; the claims it returns are those of the image it fetched.
-/
import KasmCloud.Host.ActorRuns
import KasmCloud.Host.Routing

namespace KasmCloud

open Lib

/-! ## One image for all instances of an actor -/

/-- The instances of every actor run its image, under the claims of that
image. -/
def InstancesUniform (host : Host) : Prop :=
  ∀ ref name a, host.actorAt ref name = some a →
    a.pool.claims = some a.handler.claims ∧
      ∀ i ∈ a.instances, i.handler = a.handler ∧ i.pool = a.pool

section Uniform

variable {host : Host}

/-- New instances are as the old ones. -/
theorem Actor.Grown.uniform {old a : Actor} (h : old.Grown a)
    (hclaims : old.pool.claims = some old.handler.claims)
    (hinstances : ∀ i ∈ old.instances, i.handler = old.handler ∧ i.pool = old.pool) :
    a.pool.claims = some a.handler.claims ∧
      ∀ i ∈ a.instances, i.handler = a.handler ∧ i.pool = a.pool := by
  rw [← h.pool, ← h.handler] at hclaims hinstances
  refine ⟨hclaims, fun i hi => ?_⟩
  rcases h.instances i hi with hold | hnew
  · exact hinstances i hold
  · exact hnew

theorem InstancesUniform.fillGroup (h : InstancesUniform host) {image : WasmActor}
    {claims : Jwt.Claims Jwt.Actor} (hclaims : image.claims = some claims) (group : Ref)
    (name actorRef : String) (replica : Nat) (failAt : Option Nat) :
    InstancesUniform (host.fillGroup group name image actorRef replica failAt).1 := by
  intro ref m a ha
  rcases fillGroup_images hclaims group name actorRef replica failAt ha with
    ⟨old, hold, hgrown⟩ | ⟨-, -, rfl⟩
  · obtain ⟨hpool, hinstances⟩ := h ref m old hold
    exact hgrown.uniform hpool hinstances
  · exact ⟨hclaims, fun i hi => mem_freshInstances hi⟩

theorem InstancesUniform.actorSection (h : InstancesUniform host) (name : String)
    (failAt : Option Nat) (call : ActorCall) :
    InstancesUniform (host.actorSection name failAt call).1 := by
  intro ref m a ha
  rcases actorSection_actorAt ha with hold | ⟨job, group, -, hfilled⟩
  · exact h ref m a hold
  · exact h.fillGroup job.claims_eq group name job.actorRef job.replica failAt ref m a hfilled

theorem instancesUniform_of_reachable {sha256 : String → String} {latticePrefix : String}
    {s : System} (h : (hostMachine sha256 latticePrefix).Reachable s) :
    InstancesUniform s.host := by
  refine h.invariant (I := fun s => InstancesUniform s.host) ?_ fun s step s' hI hs =>
    hostInvariant_step (I := InstancesUniform)
      (fun _ name failAt call h => h.actorSection name failAt call) (fun _ _ h => h) ?_
      (fun _ _ h => h) hI hs
  · intro ref name a ha
    cases ha
  · intro host call h ref name a ha
    rw [onGroupLinks_actorAt] at ha
    exact h ref name a ha

end Uniform

/-! ## What a reconcile finds and leaves -/

/-- The actor of a name in the group registered for a public key. -/
def Host.actorOf (host : Host) (publicKey name : String) : Option Actor :=
  (host.actors.lookup publicKey).bind fun ref => host.actorAt ref name

/-- The actor recorded under a name. -/
def Host.recordedActor (host : Host) (name : String) : Option Actor :=
  (host.actorKeys.lookup name).bind fun publicKey => host.actorOf publicKey name

theorem recordedUnder_eq (host : Host) (name : String) :
    host.recordedUnder name = ((host.recordedActor name).map Actor.instances).getD [] := by
  unfold Host.recordedUnder Host.recordedActor Host.actorOf
  cases host.actorKeys.lookup name with
  | none => rfl
  | some key => cases hreg : host.actors.lookup key <;> simp [hreg, Host.instancesAt]

/-- What is recorded under a name runs this image: the module, the reference
it was fetched from, and its claims. -/
structure RunsImage (host : Host) (name imageRef : String) (image : WasmActor)
    (claims : Jwt.Claims Jwt.Actor) : Prop where
  actor : ∃ a, host.recordedActor name = some a ∧ a.imageRef = imageRef ∧ a.pool = image ∧
    a.handler.claims = claims
  instances : ∀ i ∈ host.recordedUnder name, i.pool = image ∧ i.handler.claims = claims

section Reconcile

variable {host : Host} {name key : String}

/-- The group that is found or made holds the actor that was there. -/
theorem enter_actorAt (host : Host) (name key : String) :
    ((host.registerActorKey name key).lookupGroup key).2.actorAt
        ((host.registerActorKey name key).lookupGroup key).1 name = host.actorOf key name := by
  obtain ⟨-, hactors, hgroups⟩ := registerActorKey_frame host name key
  rw [lookupGroup_actorAt, actorAt_congr hgroups]
  unfold Host.actorOf
  cases hreg : host.actors.lookup key with
  | some ref => rw [lookupGroup_found (hactors.symm ▸ hreg)]; rfl
  | none =>
    rw [(lookupGroup_made (hactors.symm ▸ hreg)).1, hgroups]
    simp [Host.actorAt]

/-- The name has the key, and the group of the key is registered and has its
cell. -/
theorem enter_registered
    (hcell : ∀ ref, host.actors.lookup key = some ref → ∃ g, host.groups.get? ref = some g)
    (hadmitted : ∀ k, host.actorKeys.lookup name = some k → k = key) :
    ((host.registerActorKey name key).lookupGroup key).2.actorKeys.lookup name = some key ∧
      ((host.registerActorKey name key).lookupGroup key).2.actors.lookup key =
        some ((host.registerActorKey name key).lookupGroup key).1 ∧
      ∃ g, ((host.registerActorKey name key).lookupGroup key).2.groups.get?
        ((host.registerActorKey name key).lookupGroup key).1 = some g := by
  obtain ⟨-, hactors, hgroups⟩ := registerActorKey_frame host name key
  constructor
  · rw [(lookupGroup_frame _ _).1, registerActorKey_lookup, if_pos rfl]
    cases hkey : host.actorKeys.lookup name with
    | none => rfl
    | some k => exact congrArg some (hadmitted k hkey)
  · cases hreg : host.actors.lookup key with
    | some ref =>
      rw [lookupGroup_found (hactors.symm ▸ hreg), hactors, hgroups]
      exact ⟨hreg, hcell ref hreg⟩
    | none =>
      obtain ⟨href, hmade, hcells⟩ := lookupGroup_made (hactors.symm ▸ hreg)
      rw [href, hmade, hcells, if_pos rfl]
      exact ⟨AList.lookup_insert _, _, rfl⟩

/-- Filling a group with some instances wanted leaves the actor that was
there, scaled, or the one it started. -/
theorem fillGroup_actor {group : Ref} {g : ActorGroup} (hg : host.groups.get? group = some g)
    {image : WasmActor} {claims : Jwt.Claims Jwt.Actor} (hclaims : image.claims = some claims)
    {actorRef : String} {replica : Nat} {failAt : Option Nat} (hpos : 0 < replica)
    (h : (host.fillGroup group name image actorRef replica failAt).2 = .ok ()) :
    ∃ a, (host.fillGroup group name image actorRef replica failAt).1.actorAt group name = some a ∧
      ((∃ old, host.actorAt group name = some old ∧ old.Grown a) ∨
        host.actorAt group name = none ∧
          a = ⟨actorRef, host.actorHandler claims group, image,
            freshInstances image (host.actorHandler claims group) host.nextId replica⟩) := by
  rcases fillGroup_resized hg hclaims name actorRef replica failAt with
    ⟨host', dropped, kept, fresh, hr, -, -, hsome⟩ | ⟨k, -, host₀, e, -, hr⟩
  · obtain ⟨a, ha⟩ := hsome hpos
    have hafter : (host.fillGroup group name image actorRef replica failAt).1.actorAt group name =
        some a := by
      rw [hr]
      exact ha
    refine ⟨a, hafter, ?_⟩
    rcases fillGroup_images hclaims group name actorRef replica failAt hafter with
      hold | ⟨-, hnone, hnew⟩
    · exact .inl hold
    · exact .inr ⟨hnone, hnew⟩
  · rw [hr] at h
    cases h

/-- The same for a reconcile that succeeds. -/
theorem reconcileActor_actor
    (hcells : ∀ key ref, host.actors.lookup key = some ref → ∃ g, host.groups.get? ref = some g)
    {actorRef : String} {image : WasmActor} {replica : Nat} {failAt : Option Nat}
    {claims : Jwt.Claims Jwt.Actor} (hpos : 0 < replica)
    (h : (host.reconcileActor name actorRef (.ok image) replica failAt).2 = .ok claims) :
    image.claims = some claims ∧ ∃ a,
      (host.reconcileActor name actorRef (.ok image) replica failAt).1.recordedActor name = some a ∧
      ((∃ old, host.actorOf claims.subject name = some old ∧ old.Grown a) ∨
        host.actorOf claims.subject name = none ∧ a.imageRef = actorRef ∧ a.pool = image ∧
          a.handler.claims = claims ∧ ∀ i ∈ a.instances, i.handler = a.handler ∧ i.pool = a.pool) := by
  rcases reconcileActor_cases host name actorRef (.ok image) replica failAt with
    ⟨-, e, hrun⟩ | ⟨image', claims', himage, hclaims, hadmitted, hrun⟩
  · rw [hrun] at h
    cases h
  · cases himage
    rw [hrun] at h ⊢
    obtain ⟨hfilled, rfl⟩ := map_eq_ok_iff.mp h
    refine ⟨hclaims, ?_⟩
    obtain ⟨hkey, hreg, g, hg⟩ := enter_registered (hcells claims'.subject) hadmitted
    obtain ⟨a, ha, hcase⟩ := fillGroup_actor hg hclaims hpos hfilled
    obtain ⟨hkeys, hactors, -, -⟩ := @fillGroup_frame
      ((host.registerActorKey name claims'.subject).lookupGroup claims'.subject).2 image claims'
      hclaims ((host.registerActorKey name claims'.subject).lookupGroup claims'.subject).1 name
      actorRef replica failAt
    refine ⟨a, ?_, ?_⟩
    · simp only [Prod.map_fst, id_eq, Host.recordedActor, Host.actorOf, hkeys, hactors, hkey, hreg,
        Option.bind_some]
      exact ha
    · rw [enter_actorAt] at hcase
      rcases hcase with hold | ⟨hnone, rfl⟩
      · exact .inl hold
      · exact .inr ⟨hnone, rfl, rfl, rfl, fun i hi => mem_freshInstances hi⟩

end Reconcile

/-- After a successful reconcile with some instances wanted, the instances of
the name run the image that was fetched exactly if there was no actor for it,
or one started from the same reference with the same image. -/
theorem reconcileActor_image_iff {sha256 : String → String} {latticePrefix : String} {s : System}
    (hs : (hostMachine sha256 latticePrefix).Reachable s) {name actorRef : String}
    {image : WasmActor} {replica : Nat} {failAt : Option Nat} {claims : Jwt.Claims Jwt.Actor}
    (hpos : 0 < replica)
    (h : (s.host.reconcileActor name actorRef (.ok image) replica failAt).2 = .ok claims) :
    RunsImage (s.host.reconcileActor name actorRef (.ok image) replica failAt).1 name actorRef image
        claims ↔
      ∀ a, s.host.actorOf claims.subject name = some a → a.imageRef = actorRef ∧ a.pool = image := by
  have hcells : ∀ key ref, s.host.actors.lookup key = some ref →
      ∃ g, s.host.groups.get? ref = some g := by
    intro key ref hreg
    obtain ⟨table, hheader, -⟩ := (routed_of_reachable hs).registered key ref hreg
    obtain ⟨g, hg, -⟩ := Option.map_eq_some_iff.mp hheader
    exact ⟨g, hg⟩
  obtain ⟨hclaims, a, hrecorded, hcase⟩ := reconcileActor_actor hcells hpos h
  generalize (s.host.reconcileActor name actorRef (.ok image) replica failAt).1 = host'
    at hrecorded ⊢
  have hinstances : host'.recordedUnder name = a.instances := by
    rw [recordedUnder_eq, hrecorded]
    rfl
  rcases hcase with ⟨old, hold, hgrown⟩ | ⟨hnone, href, hpool, hhandler, hall⟩
  · obtain ⟨ref, -, hat⟩ := Option.bind_eq_some_iff.mp hold
    obtain ⟨holdPool, holdInstances⟩ := instancesUniform_of_reachable hs ref name old hat
    obtain ⟨hpoolClaims, hall⟩ := hgrown.uniform holdPool holdInstances
    constructor
    · rintro hruns old' hold'
      cases hold.symm.trans hold'
      obtain ⟨b, hb, hbref, hbpool, -⟩ := hruns.actor
      cases hrecorded.symm.trans hb
      exact ⟨hgrown.imageRef.symm.trans hbref, hgrown.pool.symm.trans hbpool⟩
    · intro hsame
      obtain ⟨href, hpool⟩ := hsame old hold
      have hpool' : a.pool = image := hgrown.pool.trans hpool
      have hhandler : a.handler.claims = claims := by
        rw [hpool', hclaims] at hpoolClaims
        exact (Option.some.inj hpoolClaims).symm
      refine ⟨⟨a, hrecorded, hgrown.imageRef.trans href, hpool', hhandler⟩, ?_⟩
      intro i hi
      rw [hinstances] at hi
      rw [(hall i hi).1, (hall i hi).2]
      exact ⟨hpool', hhandler⟩
  · constructor
    · intro _ old hold
      rw [hnone] at hold
      cases hold
    · intro _
      refine ⟨⟨a, hrecorded, href, hpool, hhandler⟩, ?_⟩
      intro i hi
      rw [hinstances] at hi
      rw [(hall i hi).1, (hall i hi).2]
      exact ⟨hpool, hhandler⟩

/-! ## An image changes -/

def echoImage (version : String) : WasmActor :=
  ⟨"echo " ++ version, some ⟨"A", "MECHO", 0, none, none,
    some ⟨none, none, false, none, some version, none⟩⟩⟩

/-- One instance of the first version runs. -/
def echoSystem : System :=
  ((hostMachine id "default").exec (.new "default")
    [.reconcileActor "echo" "echo:1" (.ok (echoImage "1")) 1, .actorSection "echo" none,
      .actorSection "echo" none, .actorSection "echo" none, .actorSection "echo" none]).getD (.new "")

theorem echoSystem_reachable : (hostMachine id "default").Reachable echoSystem := by
  have hrun : (hostMachine id "default").Run
      [.reconcileActor "echo" "echo:1" (.ok (echoImage "1")) 1, .actorSection "echo" none,
        .actorSection "echo" none, .actorSection "echo" none, .actorSection "echo" none]
      echoSystem := Machine.run_of_exec rfl
  exact hrun.reachable

/-- A second instance of the same image. -/
theorem scaledEcho_runs : RunsImage
    (echoSystem.host.reconcileActor "echo" "echo:1" (.ok (echoImage "1")) 2 none).1 "echo" "echo:1"
    (echoImage "1")
    ⟨"A", "MECHO", 0, none, none, some ⟨none, none, false, none, some "1", none⟩⟩ := by
  refine (reconcileActor_image_iff echoSystem_reachable (by decide) rfl).mpr ?_
  intro a ha
  have hat : (echoSystem.host.actorOf "MECHO" "echo").map (fun a => (a.imageRef, a.pool)) =
      some ("echo:1", echoImage "1") := by decide
  rw [ha] at hat
  simpa using hat

/-- A second version under the same key: both instances run the first one,
and the claims returned are those of the second. -/
theorem changedEcho_not_run :
    ¬ ∀ s, (hostMachine id "default").Reachable s →
      ∀ name actorRef image replica failAt claims, 0 < replica →
        (s.host.reconcileActor name actorRef (.ok image) replica failAt).2 = .ok claims →
        RunsImage (s.host.reconcileActor name actorRef (.ok image) replica failAt).1 name actorRef
          image claims := by
  intro hall
  obtain ⟨⟨a, ha, -, hpool, -⟩, -⟩ := hall echoSystem echoSystem_reachable "echo" "echo:2"
    (echoImage "2") 2 none _ (by decide) rfl
  have hat : ((echoSystem.host.reconcileActor "echo" "echo:2" (.ok (echoImage "2")) 2
      none).1.recordedActor "echo").map Actor.pool = some (echoImage "1") := by decide
  rw [ha] at hat
  have hsame : a.pool = echoImage "1" := Option.some.inj hat
  exact absurd (hpool.symm.trans hsame) (by decide)

end KasmCloud
