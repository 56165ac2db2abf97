/-
KasmCloud.Host.ActorRuns — `reconcile_actor` and `remove_actor` run one after
the other.

Without other calls between the sections of one, `ActorsOk` holds after each
call, whatever fails: an actor is in the group registered under its key, and
the call loop of every recorded instance runs. `reconcileActor_spec` says
what a reconcile does for its name, and when.
-/
import KasmCloud.Host.Instances

namespace KasmCloud

open Lib

/-- What one call after another keeps. -/
structure ActorsOk (host : Host) : Prop where
  cells : ∀ key ref, host.actors.lookup key = some ref → ∃ g, host.groups.get? ref = some g
  member : ∀ ref name a, host.actorAt ref name = some a →
    ∃ key, host.actorKeys.lookup name = some key ∧ host.actors.lookup key = some ref
  apart : IdsApart host
  alive : LoopsAlive host
  used : ∀ id ∈ host.loops, id < host.nextId

theorem actorsOk_new (latticePrefix : String) : ActorsOk (.new latticePrefix) := by
  refine ⟨?_, ?_, idsApart_new latticePrefix, ?_, ?_⟩
  · intro key ref hreg
    cases hreg
  · intro ref name a ha
    cases ha
  · intro ref name id hid
    cases hid
  · intro id hid
    cases hid

/-- The instances recorded under a name. -/
def Host.recordedUnder (host : Host) (name : String) : List ActorInstance :=
  match host.actorKeys.lookup name with
  | none => []
  | some key =>
    match host.actors.lookup key with
    | none => []
    | some ref => host.instancesAt ref name

/-- The tables of the actors and the call loops are as before. -/
structure SameActors (host host' : Host) : Prop where
  actors : host'.actors = host.actors
  actorKeys : host'.actorKeys = host.actorKeys
  cells : ∀ ref g, host.groups.get? ref = some g → ∃ g', host'.groups.get? ref = some g'
  actorAt : ∀ ref name, host'.actorAt ref name = host.actorAt ref name
  loops : host'.loops = host.loops
  nextId : host.nextId ≤ host'.nextId

theorem SameActors.refl (host : Host) : SameActors host host :=
  ⟨rfl, rfl, fun _ g hg => ⟨g, hg⟩, fun _ _ => rfl, rfl, le_rfl⟩

theorem SameActors.trans {host host₁ host₂ : Host} (h : SameActors host host₁)
    (h' : SameActors host₁ host₂) : SameActors host host₂ where
  actors := h'.actors.trans h.actors
  actorKeys := h'.actorKeys.trans h.actorKeys
  cells ref g hg := by
    obtain ⟨g', hg'⟩ := h.cells ref g hg
    exact h'.cells ref g' hg'
  actorAt ref name := (h'.actorAt ref name).trans (h.actorAt ref name)
  loops := h'.loops.trans h.loops
  nextId := h.nextId.trans h'.nextId

/-- Nothing but the groups themselves matters. -/
theorem sameActors_of_eq {host host' : Host} (hactors : host'.actors = host.actors)
    (hkeys : host'.actorKeys = host.actorKeys) (hgroups : host'.groups = host.groups)
    (hloops : host'.loops = host.loops) (hnext : host.nextId ≤ host'.nextId) :
    SameActors host host' :=
  ⟨hactors, hkeys, fun ref g hg => ⟨g, by rw [hgroups]; exact hg⟩, actorAt_congr hgroups,
    hloops, hnext⟩

theorem ActorsOk.same {host host' : Host} (h : ActorsOk host) (hsame : SameActors host host') :
    ActorsOk host' where
  cells key ref hreg := by
    obtain ⟨g, hg⟩ := h.cells key ref (hsame.actors ▸ hreg)
    exact hsame.cells ref g hg
  member ref name a ha := by
    rw [hsame.actorKeys, hsame.actors]
    exact h.member ref name a (hsame.actorAt ref name ▸ ha)
  apart := h.apart.congr hsame.actorAt hsame.nextId
  alive := h.alive.congr hsame.actorAt hsame.loops.ge
  used id hid := lt_of_lt_of_le (h.used id (hsame.loops ▸ hid)) hsame.nextId

/-- Further call loops run that no table records. -/
theorem ActorsOk.started {host : Host} (h : ActorsOk host) (count : Nat) :
    ActorsOk (host.started count) where
  cells := h.cells
  member := h.member
  apart := h.apart.congr (started_actorAt host count) (Nat.le_add_right _ _)
  alive := h.alive.congr (started_actorAt host count) Finset.subset_union_left
  used id hid := by
    rcases Finset.mem_union.mp hid with hold | hnew
    · exact lt_of_lt_of_le (h.used id hold) (Nat.le_add_right _ _)
    · exact (List.mem_range'_1.mp (List.mem_toFinset.mp hnew)).2

/-- The loops after a change of one actor's instances are old, or new. -/
theorem Resized.used {host host' : Host} {group : Ref} {name : String}
    {dropped kept fresh : List ActorInstance}
    (hr : Resized host host' group name dropped kept fresh)
    (h : ∀ id ∈ host.loops, id < host.nextId) : ∀ id ∈ host'.loops, id < host'.nextId := by
  intro id hid
  rw [hr.loops, Finset.mem_union, Finset.mem_sdiff, List.mem_toFinset, List.mem_toFinset] at hid
  rcases hid with ⟨hold, -⟩ | hnew
  · have hlt : id < host.nextId := h id hold
    rw [hr.nextId]
    exact Nat.lt_add_right _ hlt
  · exact (hr.mem_fresh hnew).2

section Recorded

variable {host host' : Host} {name key : String} {ref : Ref}

/-- A recorded instance is in a group. -/
theorem mem_idsAt_of_recorded {id : Nat}
    (hid : id ∈ (host.recordedUnder name).map ActorInstance.id) :
    ∃ ref, id ∈ host.idsAt ref name := by
  unfold Host.recordedUnder at hid
  split at hid
  · cases hid
  · split at hid
    · cases hid
    · rename_i ref _
      exact ⟨ref, hid⟩

theorem recordedUnder_of_registered (hkey : host.actorKeys.lookup name = some key)
    (hreg : host.actors.lookup key = some ref) :
    host.recordedUnder name = host.instancesAt ref name := by
  simp only [Host.recordedUnder, hkey, hreg]

theorem recordedUnder_of_unknown (hkey : host.actorKeys.lookup name = none) :
    host.recordedUnder name = [] := by
  simp only [Host.recordedUnder, hkey]

/-- A name without a key is in no group. -/
theorem ActorsOk.instancesAt_unknown (h : ActorsOk host)
    (hkey : host.actorKeys.lookup name = none) (ref : Ref) : host.instancesAt ref name = [] := by
  cases hat : host.actorAt ref name with
  | none => exact instancesAt_of_none hat
  | some a =>
    obtain ⟨key, hkey', -⟩ := h.member ref name a hat
    rw [hkey] at hkey'
    cases hkey'

end Recorded

/-! ## What a reconcile changes -/

/-- The same instances are in the groups, with the same loops. -/
structure SameInstances (host host' : Host) : Prop where
  actorAt : ∀ ref name, host'.actorAt ref name = host.actorAt ref name
  loops : host'.loops = host.loops
  nextId : host'.nextId = host.nextId

theorem SameInstances.trans {host host₁ host₂ : Host} (h : SameInstances host host₁)
    (h' : SameInstances host₁ host₂) : SameInstances host host₂ where
  actorAt ref name := (h'.actorAt ref name).trans (h.actorAt ref name)
  loops := h'.loops.trans h.loops
  nextId := h'.nextId.trans h.nextId

theorem SameInstances.instancesAt {host host' : Host} (h : SameInstances host host') (ref : Ref)
    (name : String) : host'.instancesAt ref name = host.instancesAt ref name := by
  rw [Host.instancesAt, Host.instancesAt, h.actorAt]

theorem Resized.of_same {host host₁ host' : Host} {group : Ref} {name : String}
    {dropped kept fresh : List ActorInstance} (h : SameInstances host host₁)
    (hr : Resized host₁ host' group name dropped kept fresh) :
    Resized host host' group name dropped kept fresh where
  before := (h.instancesAt group name).symm.trans hr.before
  after := hr.after
  others ref m hne := (hr.others ref m hne).trans (h.actorAt ref m)
  loops := by rw [hr.loops, h.loops]
  ids := by rw [hr.ids, h.nextId]
  nextId := by rw [hr.nextId, h.nextId]

/-- A name got the wanted number of instances; no other actor changed. -/
structure Filled (host host' : Host) (name : String) (replica : Nat) : Prop where
  length : (host'.recordedUnder name).length = replica
  resized : ∃ group dropped kept fresh, Resized host host' group name dropped kept fresh ∧
    host.recordedUnder name = dropped ++ kept ∧ host'.recordedUnder name = kept ++ fresh

/-- A failed start: the instances are as before. Call loops may run that no
table records, but not when enough instances were recorded. -/
structure Strayed (host host' : Host) (name : String) (replica : Nat) : Prop where
  recorded : host'.recordedUnder name = host.recordedUnder name
  actorAt : ∀ ref m, host'.actorAt ref m = host.actorAt ref m
  loops : host.loops ⊆ host'.loops
  nextId : host.nextId ≤ host'.nextId
  enough : replica ≤ (host.recordedUnder name).length → host'.loops = host.loops

theorem Strayed.refl (host : Host) (name : String) (replica : Nat) :
    Strayed host host name replica :=
  ⟨rfl, fun _ _ => rfl, Finset.Subset.refl _, le_rfl, fun _ => rfl⟩

/-! ## The sections of reconcile_actor -/

section Sections

variable {host : Host} {name key : String}

/-- A name whose key may be used, registered with it. -/
theorem ActorsOk.register (h : ActorsOk host)
    (hadmitted : ∀ k, host.actorKeys.lookup name = some k → k = key) :
    ActorsOk (host.registerActorKey name key) ∧
      (host.registerActorKey name key).actorKeys.lookup name = some key ∧
      (host.registerActorKey name key).actors = host.actors ∧
      SameInstances host (host.registerActorKey name key) := by
  unfold Host.registerActorKey
  cases hkey : host.actorKeys.lookup name with
  | some k =>
    cases hadmitted k hkey
    exact ⟨h, hkey, rfl, ⟨fun _ _ => rfl, rfl, rfl⟩⟩
  | none =>
    have hat : ∀ ref m, Host.actorAt { host with actorKeys := host.actorKeys.insert name key } ref m =
        host.actorAt ref m := fun _ _ => rfl
    refine ⟨⟨h.cells, fun ref m a ha => ?_, h.apart.congr hat le_rfl,
      h.alive.congr hat (Finset.Subset.refl _), h.used⟩, ?_, rfl, ⟨hat, rfl, rfl⟩⟩
    · obtain ⟨k, hk, hreg⟩ := h.member ref m a ha
      refine ⟨k, ?_, hreg⟩
      rw [HashMap.lookup_insert_if, if_neg]
      · exact hk
      · rintro rfl
        rw [hkey] at hk
        cases hk
    · exact AList.lookup_insert _

/-- The group found or made is registered, and making it changes no actor. -/
theorem ActorsOk.lookup (h : ActorsOk host) (key : String) :
    ActorsOk (host.lookupGroup key).2 ∧
      (host.lookupGroup key).2.actors.lookup key = some (host.lookupGroup key).1 ∧
      SameInstances host (host.lookupGroup key).2 := by
  obtain ⟨hkeys, -, hloops, hnext⟩ := lookupGroup_frame host key
  have hat := lookupGroup_actorAt host key
  refine ⟨?_, ?_, ⟨hat, hloops, hnext⟩⟩
  · refine ⟨fun k ref hk => ?_, fun ref m a ha => ?_, h.apart.congr hat hnext.ge,
      h.alive.congr hat (by rw [hloops]), ?_⟩
    · cases hreg : host.actors.lookup key with
      | some found =>
        rw [lookupGroup_found hreg] at hk ⊢
        exact h.cells k ref hk
      | none =>
        obtain ⟨-, hactors, hcells⟩ := lookupGroup_made hreg
        rw [hcells]
        split
        · exact ⟨_, rfl⟩
        · rename_i hne
          rw [hactors, HashMap.lookup_insert_if] at hk
          split at hk
          · exact absurd (Option.some.inj hk).symm hne
          · exact h.cells k ref hk
    · rw [hat] at ha
      obtain ⟨k, hk, hkreg⟩ := h.member ref m a ha
      refine ⟨k, by rw [hkeys]; exact hk, ?_⟩
      cases hreg : host.actors.lookup key with
      | some found =>
        rw [lookupGroup_found hreg]
        exact hkreg
      | none =>
        rw [(lookupGroup_made hreg).2.1, HashMap.lookup_insert_if, if_neg]
        · exact hkreg
        · rintro rfl
          rw [hreg] at hkreg
          cases hkreg
    · rw [hloops, hnext]
      exact h.used
  · cases hreg : host.actors.lookup key with
    | some ref =>
      rw [lookupGroup_found hreg]
      exact hreg
    | none =>
      obtain ⟨href, hactors, -⟩ := lookupGroup_made hreg
      rw [hactors, href]
      exact AList.lookup_insert _

/-- The first sections together: the name has its key, and the group of that
key is registered. -/
theorem ActorsOk.enter (h : ActorsOk host)
    (hadmitted : ∀ k, host.actorKeys.lookup name = some k → k = key) :
    ActorsOk ((host.registerActorKey name key).lookupGroup key).2 ∧
      ((host.registerActorKey name key).lookupGroup key).2.actorKeys.lookup name = some key ∧
      ((host.registerActorKey name key).lookupGroup key).2.actors.lookup key =
        some ((host.registerActorKey name key).lookupGroup key).1 ∧
      SameInstances host ((host.registerActorKey name key).lookupGroup key).2 := by
  obtain ⟨hregok, hregkey, -, hregsame⟩ := h.register hadmitted
  obtain ⟨hlookok, hlookreg, hlooksame⟩ := hregok.lookup key
  refine ⟨hlookok, ?_, hlookreg, hregsame.trans hlooksame⟩
  rw [(lookupGroup_frame _ _).1]
  exact hregkey

/-- The group has what was recorded under the name. -/
theorem ActorsOk.recordedUnder_enter (h : ActorsOk host)
    (hadmitted : ∀ k, host.actorKeys.lookup name = some k → k = key) :
    ((host.registerActorKey name key).lookupGroup key).2.recordedUnder name =
      host.recordedUnder name := by
  obtain ⟨-, -, hregactors, hregsame⟩ := h.register hadmitted
  obtain ⟨-, hlookkey, hlookreg, hsame⟩ := h.enter hadmitted
  rw [recordedUnder_of_registered hlookkey hlookreg, hsame.instancesAt]
  cases hkey : host.actorKeys.lookup name with
  | none => rw [h.instancesAt_unknown hkey, recordedUnder_of_unknown hkey]
  | some k =>
    cases hadmitted k hkey
    cases hreg : host.actors.lookup key with
    | some ref =>
      rw [recordedUnder_of_registered hkey hreg, lookupGroup_found (hregactors.symm ▸ hreg)]
    | none =>
      obtain ⟨href, -, -⟩ := lookupGroup_made (hregactors.symm ▸ hreg)
      have hnone : host.recordedUnder name = [] := by
        simp only [Host.recordedUnder, hkey, hreg]
      rw [hnone, href]
      refine instancesAt_of_none ?_
      rw [← hregsame.actorAt]
      simp [Host.actorAt]

/-- A group is filled: the actor has what is wanted, or a subscription that it
needed failed and no instance is recorded that was not before. -/
theorem ActorsOk.fill (h : ActorsOk host) (hkey : host.actorKeys.lookup name = some key)
    {group : Ref} (hreg : host.actors.lookup key = some group) {actor : WasmActor}
    {claims : Jwt.Claims Jwt.Actor} (hclaims : actor.claims = some claims) (actorRef : String)
    (replica : Nat) (failAt : Option Nat) :
    ∃ host', ActorsOk host' ∧
      ((∀ j, failAt = some j → replica - (host.recordedUnder name).length ≤ j) ∧
          host.fillGroup group name actor actorRef replica failAt = (host', .ok ()) ∧
          Filled host host' name replica ∨
        (¬ ∀ j, failAt = some j → replica - (host.recordedUnder name).length ≤ j) ∧
          (∃ e, host.fillGroup group name actor actorRef replica failAt = (host', .error e)) ∧
          Strayed host host' name replica) := by
  obtain ⟨g, hg⟩ := h.cells key group hreg
  have hrecorded := recordedUnder_of_registered hkey hreg
  obtain ⟨hkeys, hactors, -, hheader⟩ := fillGroup_frame hclaims group name actorRef replica failAt
  have hok := fillGroup_ok_iff hg hclaims name actorRef replica failAt
  rcases fillGroup_resized hg hclaims name actorRef replica failAt with
    ⟨host', dropped, kept, fresh, hfill, hres, hlen, hsome⟩ | ⟨k, -, host₀, e, hhost₀, hfill⟩
  · rw [hfill] at hkeys hactors hheader hok
    have hrecorded' := recordedUnder_of_registered (hkeys.symm ▸ hkey) (hactors.symm ▸ hreg)
    refine ⟨host', ⟨fun k ref hk => ?_, fun ref m a ha => ?_, h.apart.resized hres,
      h.alive.resized h.apart hres, hres.used h.used⟩, .inl ⟨?_, hfill, ?_⟩⟩
    · rw [hactors] at hk
      obtain ⟨gr, hgr⟩ := h.cells k ref hk
      have hhd := hheader ref
      rw [header?_isSome hgr] at hhd
      obtain ⟨gr', hgr', -⟩ := Option.map_eq_some_iff.mp hhd
      exact ⟨gr', hgr'⟩
    · rw [hkeys, hactors]
      by_cases hplace : ref = group ∧ m = name
      · obtain ⟨rfl, rfl⟩ := hplace
        exact ⟨key, hkey, hreg⟩
      · rw [hres.others ref m hplace] at ha
        exact h.member ref m a ha
    · rw [hrecorded]
      exact hok.mp rfl
    · exact ⟨by rw [hrecorded', hlen], group, dropped, kept, fresh, hres,
        hrecorded.trans hres.before, hrecorded'.trans hres.after⟩
  · rw [hfill] at hok
    have hneeded : ¬ ∀ j, failAt = some j → replica - (host.recordedUnder name).length ≤ j := by
      intro hall
      rw [hrecorded] at hall
      cases hok.mpr hall
    have hstrayed : Strayed host (host₀.started k) name replica := by
      refine ⟨?_, ?_, ?_, ?_, fun henough => ?_⟩
      · rw [hrecorded]
        rcases hhost₀ with rfl | rfl <;> exact recordedUnder_of_registered hkey hreg
      · rcases hhost₀ with rfl | rfl <;> exact fun _ _ => rfl
      · rcases hhost₀ with rfl | rfl <;> exact Finset.subset_union_left
      · rcases hhost₀ with rfl | rfl <;> exact Nat.le_add_right _ _
      · refine absurd (fun j _ => ?_) hneeded
        omega
    refine ⟨host₀.started k, ?_, .inr ⟨hneeded, ⟨e, hfill⟩, hstrayed⟩⟩
    rcases hhost₀ with rfl | rfl
    · exact h.started k
    · have hsame : SameActors host host.allocTargets := sameActors_of_eq rfl rfl rfl rfl le_rfl
      exact (h.same hsame).started k

end Sections

/-! ## The calls -/

section Calls

variable {host : Host}

theorem checkActorKey_ok_iff (host : Host) (name key : String) :
    host.checkActorKey name key = .ok () ↔ ∀ k, host.actorKeys.lookup name = some k → k = key := by
  unfold Host.checkActorKey
  cases host.actorKeys.lookup name with
  | none => simp
  | some k =>
    by_cases h : k = key
    · simp [h]
    · simp [h]

/-- An image with claims came whose key may be used for the name. -/
def Host.Admits (host : Host) (name : String) (fetched : Except String WasmActor)
    (claims : Jwt.Claims Jwt.Actor) : Prop :=
  ∃ image, fetched = .ok image ∧ image.claims = some claims ∧
    host.checkActorKey name claims.subject = .ok ()

theorem admits_ok_iff {name : String} {image : WasmActor} {claims : Jwt.Claims Jwt.Actor} :
    host.Admits name (.ok image) claims ↔ image.claims = some claims ∧
      ∀ k, host.actorKeys.lookup name = some k → k = claims.subject := by
  rw [← checkActorKey_ok_iff]
  constructor
  · rintro ⟨image', himage, h⟩
    cases himage
    exact h
  · exact fun h => ⟨image, rfl, h⟩

theorem map_eq_ok_iff {α : Type} {r : Except String Unit} {a b : α} :
    r.map (fun _ => a) = .ok b ↔ r = .ok () ∧ a = b := by
  cases r <;> simp [Except.map]

theorem map_eq_error_iff {α : Type} {r : Except String Unit} {a : α} {e : String} :
    r.map (fun _ => a) = .error e ↔ r = .error e := by
  cases r <;> simp [Except.map]

/-- A reconcile is refused with nothing changed, or is the filling of the
group. -/
theorem reconcileActor_cases (host : Host) (name actorRef : String)
    (fetched : Except String WasmActor) (replica : Nat) (failAt : Option Nat) :
    (∀ claims, ¬ host.Admits name fetched claims) ∧
        (∃ e, host.reconcileActor name actorRef fetched replica failAt = (host, .error e)) ∨
      ∃ image claims, fetched = .ok image ∧ image.claims = some claims ∧
        (∀ k, host.actorKeys.lookup name = some k → k = claims.subject) ∧
        host.reconcileActor name actorRef fetched replica failAt =
          Prod.map id (Except.map fun _ => claims)
            (((host.registerActorKey name claims.subject).lookupGroup claims.subject).2.fillGroup
              ((host.registerActorKey name claims.subject).lookupGroup claims.subject).1 name image
              actorRef replica failAt) := by
  cases fetched with
  | error e =>
    refine .inl ⟨?_, e, rfl⟩
    rintro claims ⟨image, himage, -⟩
    cases himage
  | ok image =>
    cases hclaims : image.claims with
    | none =>
      refine .inl ⟨fun claims hadmits => ?_, "claims missing", ?_⟩
      · cases hclaims.symm.trans (admits_ok_iff.mp hadmits).1
      · simp only [Host.reconcileActor, hclaims]
    | some claims =>
      cases hcheck : host.checkActorKey name claims.subject with
      | error e =>
        refine .inl ⟨fun claims' hadmits => ?_, e, ?_⟩
        · obtain ⟨hclaims', hadmitted⟩ := admits_ok_iff.mp hadmits
          cases hclaims.symm.trans hclaims'
          cases hcheck.symm.trans ((checkActorKey_ok_iff host name claims.subject).mpr hadmitted)
        · simp only [Host.reconcileActor, hclaims, hcheck]
      | ok _ =>
        refine .inr ⟨image, claims, rfl, hclaims, (checkActorKey_ok_iff _ _ _).mp hcheck, ?_⟩
        simp only [Host.reconcileActor, hclaims, hcheck]
        rcases Host.fillGroup _ _ name image actorRef replica failAt with ⟨filled, e | _⟩ <;> rfl

/-- After the key check, a reconcile is the filling of the group. -/
theorem reconcileActor_admitted {name : String} {image : WasmActor} {claims : Jwt.Claims Jwt.Actor}
    (hclaims : image.claims = some claims)
    (hadmitted : ∀ k, host.actorKeys.lookup name = some k → k = claims.subject)
    (actorRef : String) (replica : Nat) (failAt : Option Nat) :
    host.reconcileActor name actorRef (.ok image) replica failAt =
      Prod.map id (Except.map fun _ => claims)
        (((host.registerActorKey name claims.subject).lookupGroup claims.subject).2.fillGroup
          ((host.registerActorKey name claims.subject).lookupGroup claims.subject).1 name image
          actorRef replica failAt) := by
  rcases reconcileActor_cases host name actorRef (.ok image) replica failAt with
    ⟨hnone, -⟩ | ⟨image', claims', himage, hclaims', -, hrun⟩
  · exact absurd (admits_ok_iff.mpr ⟨hclaims, hadmitted⟩) (hnone claims)
  · cases himage
    cases hclaims.symm.trans hclaims'
    exact hrun

theorem reconcileActor_fill {name : String} {image : WasmActor} {claims : Jwt.Claims Jwt.Actor}
    (hclaims : image.claims = some claims)
    (hadmitted : ∀ k, host.actorKeys.lookup name = some k → k = claims.subject)
    (actorRef : String) (replica : Nat) (failAt : Option Nat) :
    (host.reconcileActor name actorRef (.ok image) replica failAt).1 =
      (((host.registerActorKey name claims.subject).lookupGroup claims.subject).2.fillGroup
        ((host.registerActorKey name claims.subject).lookupGroup claims.subject).1 name image
        actorRef replica failAt).1 := by
  rw [reconcileActor_admitted hclaims hadmitted]
  rfl

/-- A reconcile of an image with these claims gets to its end: the key is the
one registered for the name, if any, and no subscription that it needs
fails. -/
def Host.ActorStarts (host : Host) (name : String) (claims : Jwt.Claims Jwt.Actor) (replica : Nat)
    (failAt : Option Nat) : Prop :=
  (∀ key, host.actorKeys.lookup name = some key → key = claims.subject) ∧
    ∀ j, failAt = some j → replica - (host.recordedUnder name).length ≤ j

/-- What a call of `reconcile_actor` does for its name: it has the wanted
number of instances, or the call failed and records what it did before. -/
theorem reconcileActor_spec (h : ActorsOk host) (name actorRef : String)
    (fetched : Except String WasmActor) (replica : Nat) (failAt : Option Nat) :
    ∃ host', ActorsOk host' ∧
      ((∃ actor claims, fetched = .ok actor ∧ actor.claims = some claims ∧
          host.ActorStarts name claims replica failAt ∧
          host.reconcileActor name actorRef fetched replica failAt = (host', .ok claims) ∧
          Filled host host' name replica) ∨
        (∀ actor claims, fetched = .ok actor → actor.claims = some claims →
            ¬ host.ActorStarts name claims replica failAt) ∧
          (∃ e, host.reconcileActor name actorRef fetched replica failAt = (host', .error e)) ∧
          Strayed host host' name replica) := by
  rcases reconcileActor_cases host name actorRef fetched replica failAt with
    ⟨hnone, hrun⟩ | ⟨image, claims, rfl, hclaims, hadmitted, hrun⟩
  · refine ⟨host, h, .inr ⟨?_, hrun, .refl host name replica⟩⟩
    rintro image claims rfl hclaims hstarts
    exact hnone claims (admits_ok_iff.mpr ⟨hclaims, hstarts.1⟩)
  · obtain ⟨hlookok, hlookkey, hlookreg, hsame⟩ := h.enter hadmitted
    have hrecorded := h.recordedUnder_enter hadmitted
    obtain ⟨host', hok', hcase⟩ := hlookok.fill hlookkey hlookreg hclaims actorRef replica failAt
    rw [hrecorded] at hcase
    refine ⟨host', hok', ?_⟩
    rcases hcase with ⟨hneeds, hfill, hfilled⟩ | ⟨hneeds, ⟨e, hfill⟩, hstrayed⟩
    · rw [hfill] at hrun
      refine .inl ⟨image, claims, rfl, hclaims, ⟨hadmitted, hneeds⟩, hrun, ?_⟩
      obtain ⟨hlen, group, dropped, kept, fresh, hres, hbefore, hafter⟩ := hfilled
      exact ⟨hlen, group, dropped, kept, fresh, hres.of_same hsame,
        hrecorded.symm.trans hbefore, hafter⟩
    · rw [hfill] at hrun
      refine .inr ⟨?_, ⟨e, hrun⟩, ?_⟩
      · rintro image' claims' himage hclaims' hstarts
        cases himage
        cases hclaims.symm.trans hclaims'
        exact hneeds hstarts.2
      · exact ⟨hstrayed.recorded.trans hrecorded,
          fun ref m => (hstrayed.actorAt ref m).trans (hsame.actorAt ref m),
          hsame.loops ▸ hstrayed.loops, hsame.nextId ▸ hstrayed.nextId,
          fun henough => (hstrayed.enough (hrecorded.symm ▸ henough)).trans hsame.loops⟩

/-- A removed name is in no table. -/
theorem ActorsOk.remove (h : ActorsOk host) (name : String) : ActorsOk (host.removeActor name) := by
  unfold Host.removeActor Host.readActorKey
  cases hkey : host.actorKeys.lookup name with
  | none => exact h
  | some key =>
    dsimp only
    have hown : ∀ ref a, host.actorAt ref name = some a → host.actors.lookup key = some ref := by
      intro ref a ha
      obtain ⟨k, hk, hreg⟩ := h.member ref name a ha
      cases hkey.symm.trans hk
      exact hreg
    obtain ⟨hkeys, -, hheader⟩ := removeFromGroup_frame host key name
    have hdropped (ref : Ref) (m : String) :
        ((host.removeFromGroup key name).dropActorKey name).actorAt ref m =
          (host.removeFromGroup key name).actorAt ref m := rfl
    cases hreg : host.actors.lookup key with
    | none =>
      rw [removeFromGroup_unknown hreg]
      have hsame : ∀ ref m, (host.dropActorKey name).actorAt ref m = host.actorAt ref m :=
        fun _ _ => rfl
      refine ⟨h.cells, fun ref m a ha => ?_, h.apart.congr hsame le_rfl,
        h.alive.congr hsame (Finset.Subset.refl _), h.used⟩
      have hat : host.actorAt ref m = some a := ha
      obtain ⟨k, hk, hkreg⟩ := h.member ref m a hat
      refine ⟨k, ?_, hkreg⟩
      show (host.actorKeys.erase name).lookup m = some k
      rw [HashMap.lookup_erase_if, if_neg]
      · exact hk
      · rintro rfl
        rw [hown ref a hat] at hreg
        cases hreg
    | some ref₀ =>
      obtain ⟨g, hg⟩ := h.cells key ref₀ hreg
      obtain ⟨hactors, hnone, hres⟩ := removeFromGroup_spec hreg hg name
      have hfewer : ∀ k ref, (host.removeFromGroup key name).actors.lookup k = some ref →
          host.actors.lookup k = some ref := by
        intro k ref hk
        rw [hactors] at hk
        split at hk
        · rw [HashMap.lookup_erase_if] at hk
          split at hk
          · cases hk
          · exact hk
        · exact hk
      refine ⟨fun k ref hk => ?_, fun ref m a ha => ?_, ?_, ?_, ?_⟩
      · obtain ⟨gr, hgr⟩ := h.cells k ref (hfewer k ref hk)
        have hhd := hheader ref
        rw [header?_isSome hgr] at hhd
        obtain ⟨gr', hgr', -⟩ := Option.map_eq_some_iff.mp hhd
        exact ⟨gr', hgr'⟩
      · rw [hdropped] at ha
        have hplace : ¬ (ref = ref₀ ∧ m = name) := by
          rintro ⟨rfl, rfl⟩
          rw [hnone] at ha
          cases ha
        have hat := ha
        rw [hres.others ref m hplace] at hat
        obtain ⟨k, hk, hkreg⟩ := h.member ref m a hat
        have hm : m ≠ name := by
          rintro rfl
          cases hkey.symm.trans hk
          exact hplace ⟨Option.some.inj (hkreg.symm.trans hreg), rfl⟩
        refine ⟨k, ?_, ?_⟩
        · show ((host.removeFromGroup key name).actorKeys.erase name).lookup m = some k
          rw [HashMap.lookup_erase_if, if_neg hm, hkeys]
          exact hk
        · show (host.removeFromGroup key name).actors.lookup k = some ref
          rw [hactors]
          split
          · rename_i hempty
            rw [HashMap.lookup_erase_if, if_neg]
            · exact hkreg
            · -- the group that goes has no actor besides the removed one
              rintro rfl
              cases hreg.symm.trans hkreg
              have hleft := HashMap.isEmpty_iff.mp hempty m
              rw [HashMap.lookup_erase_if, if_neg hm, ← actorAt_of_group hg, hat] at hleft
              cases hleft
          · exact hkreg
      · exact (h.apart.resized hres).congr hdropped le_rfl
      · exact (h.alive.resized h.apart hres).congr hdropped (Finset.Subset.refl _)
      · exact hres.used h.used

/-- A removal adds no instance anywhere. -/
theorem ActorsOk.idsAt_of_remove (h : ActorsOk host) {name : String} {ref : Ref} {m : String}
    {id : Nat} (hid : id ∈ (host.removeActor name).idsAt ref m) : id ∈ host.idsAt ref m := by
  unfold Host.removeActor Host.readActorKey at hid
  cases hkey : host.actorKeys.lookup name with
  | none =>
    rw [hkey] at hid
    exact hid
  | some key =>
    rw [hkey] at hid
    have hgroup : id ∈ (host.removeFromGroup key name).idsAt ref m := hid
    cases hreg : host.actors.lookup key with
    | none =>
      rw [removeFromGroup_unknown hreg] at hgroup
      exact hgroup
    | some ref₀ =>
      obtain ⟨g, hg⟩ := h.cells key ref₀ hreg
      obtain ⟨-, -, hres⟩ := removeFromGroup_spec hreg hg name
      rcases hres.mem_idsAt h.apart hgroup with ⟨hold, -⟩ | ⟨-, hnew⟩
      · exact hold
      · cases hnew

end Calls

end KasmCloud
