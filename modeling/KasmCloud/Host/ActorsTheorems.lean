/-
KasmCloud.Host.ActorsTheorems — what the sections of `reconcile_actor` and
`remove_actor` do to the groups and to the call loops.

* `Host.actorAt` and `Host.header?` are the two views of a group cell: the
  actors in it, and its key with its links table. Sections that fill or
  empty a group leave every header alone.
* `Resized` says that one actor's instances changed from `dropped ++ kept`
  to `kept ++ fresh` and nothing else did; filling a group and taking an
  actor out of it are both of this form.
-/
import KasmCloud.Host.Actors
import KasmCloud.Host.LinksTheorems

namespace KasmCloud

open Lib

/-! ## Views of a group cell -/

/-- The actor of a name in a group. -/
def Host.actorAt (host : Host) (ref : Ref) (name : String) : Option Actor :=
  (host.groups.get? ref).bind fun g => g.actors.lookup name

/-- The instances of a name in a group. -/
def Host.instancesAt (host : Host) (ref : Ref) (name : String) : List ActorInstance :=
  ((host.actorAt ref name).map Actor.instances).getD []

/-- The key and the links table of a group. -/
def Host.header? (host : Host) (ref : Ref) : Option (String × LinkTable) :=
  (host.groups.get? ref).map fun g => (g.publicKey, g.links)

theorem actorAt_congr {host host' : Host} (h : host'.groups = host.groups) (ref : Ref)
    (name : String) : host'.actorAt ref name = host.actorAt ref name := by
  simp [Host.actorAt, h]

theorem header?_congr {host host' : Host} (h : host'.groups = host.groups) (ref : Ref) :
    host'.header? ref = host.header? ref := by
  simp [Host.header?, h]

theorem header?_isSome {host : Host} {ref : Ref} {g : ActorGroup}
    (h : host.groups.get? ref = some g) : host.header? ref = some (g.publicKey, g.links) := by
  simp [Host.header?, h]

/-- An actor is in a cell that exists. -/
theorem group_of_actorAt {host : Host} {ref : Ref} {name : String} {actor : Actor}
    (h : host.actorAt ref name = some actor) :
    ∃ g, host.groups.get? ref = some g ∧ g.actors.lookup name = some actor :=
  Option.bind_eq_some_iff.mp h

theorem actorAt_of_group {host : Host} {ref : Ref} {g : ActorGroup}
    (h : host.groups.get? ref = some g) (name : String) :
    host.actorAt ref name = g.actors.lookup name := by
  simp [Host.actorAt, h]

/-! ### Editing one actor of a group -/

@[simp] theorem setActor_actors (host : Host) (group : Ref) (name : String) (actor : Actor) :
    (host.setActor group name actor).actors = host.actors := rfl

@[simp] theorem setActor_header? (host : Host) (group : Ref) (name : String) (actor : Actor)
    (ref : Ref) : (host.setActor group name actor).header? ref = host.header? ref := by
  simp only [Host.header?, Host.setActor, Heap.get?_modify]
  split
  · rename_i heq
    subst heq
    cases host.groups.get? ref <;> rfl
  · rfl

theorem setActor_actorAt (host : Host) {group : Ref} {g : ActorGroup}
    (h : host.groups.get? group = some g) (name : String) (actor : Actor) (ref : Ref)
    (m : String) :
    (host.setActor group name actor).actorAt ref m =
      if ref = group ∧ m = name then some actor else host.actorAt ref m := by
  simp only [Host.actorAt, Host.setActor, Heap.get?_modify]
  by_cases href : ref = group
  · subst href
    by_cases hm : m = name
    · subst hm
      simp [h]
    · simp [h, hm]
  · simp [href]

@[simp] theorem dropActor_header? (host : Host) (group : Ref) (name : String) (actor : Actor)
    (ref : Ref) : (host.dropActor group name actor).header? ref = host.header? ref := by
  simp only [Host.header?, Host.dropActor, Host.abortCalls, Heap.get?_modify]
  split
  · rename_i heq
    subst heq
    cases host.groups.get? ref <;> rfl
  · rfl

theorem dropActor_actorAt (host : Host) (group : Ref) (name : String) (actor : Actor)
    (ref : Ref) (m : String) :
    (host.dropActor group name actor).actorAt ref m =
      if ref = group ∧ m = name then none else host.actorAt ref m := by
  simp only [Host.actorAt, Host.dropActor, Host.abortCalls, Heap.get?_modify]
  by_cases href : ref = group
  · subst href
    by_cases hm : m = name
    · subst hm
      cases host.groups.get? ref <;> simp
    · cases host.groups.get? ref <;> simp [hm]
  · simp [href]

/-! ### Editing the links table of a group -/

@[simp] theorem onGroupLinks_actorAt (host : Host) (actorId : String) (f : LinkTable → LinkTable)
    (ref : Ref) (name : String) :
    (host.onGroupLinks actorId f).actorAt ref name = host.actorAt ref name := by
  unfold Host.onGroupLinks Host.actorAt
  cases host.actors.lookup actorId with
  | none => rfl
  | some found =>
    simp only [Heap.get?_modify]
    split
    · rename_i heq
      subst heq
      cases host.groups.get? ref <;> rfl
    · rfl

/-- Editing a registered group's table changes that header only. -/
theorem onGroupLinks_header? (host : Host) (actorId : String) (f : LinkTable → LinkTable)
    (ref : Ref) :
    (host.onGroupLinks actorId f).header? ref =
      if host.actors.lookup actorId = some ref then
        (host.header? ref).map fun hd => (hd.1, f hd.2)
      else host.header? ref := by
  unfold Host.onGroupLinks Host.header?
  cases hreg : host.actors.lookup actorId with
  | none => simp
  | some found =>
    simp only [Heap.get?_modify, Option.some.injEq]
    by_cases heq : ref = found
    · subst heq
      cases host.groups.get? ref <;> simp
    · simp [heq, Ne.symm heq]

/-! ## Starting instances -/

/-- `count` further call loops are running. -/
def Host.started (host : Host) (count : Nat) : Host :=
  { host with
    loops := host.loops ∪ (List.range' host.nextId count).toFinset
    nextId := host.nextId + count }

/-- The instances that run in them. -/
def freshInstances (pool : WasmActor) (handler : Handler) (first count : Nat) :
    List ActorInstance :=
  (List.range' first count).map fun id => ⟨id, handler, pool⟩

@[simp] theorem freshInstances_length (pool : WasmActor) (handler : Handler)
    (first count : Nat) : (freshInstances pool handler first count).length = count := by
  simp [freshInstances]

@[simp] theorem freshInstances_ids (pool : WasmActor) (handler : Handler) (first count : Nat) :
    (freshInstances pool handler first count).map ActorInstance.id = List.range' first count := by
  simp [freshInstances, Function.comp_def]

/-! Loops and target tables are not part of a group. -/

@[simp] theorem started_header? (host : Host) (count : Nat) (ref : Ref) :
    (host.started count).header? ref = host.header? ref := rfl

@[simp] theorem started_actorAt (host : Host) (count : Nat) (ref : Ref) (name : String) :
    (host.started count).actorAt ref name = host.actorAt ref name := rfl

@[simp] theorem allocTargets_header? (host : Host) (ref : Ref) :
    host.allocTargets.header? ref = host.header? ref := rfl

@[simp] theorem allocTargets_actorAt (host : Host) (ref : Ref) (name : String) :
    host.allocTargets.actorAt ref name = host.actorAt ref name := rfl

@[simp] theorem abortCalls_header? (host : Host) (instances : List ActorInstance) (ref : Ref) :
    (host.abortCalls instances).header? ref = host.header? ref := rfl

@[simp] theorem abortCalls_actorAt (host : Host) (instances : List ActorInstance) (ref : Ref)
    (name : String) : (host.abortCalls instances).actorAt ref name = host.actorAt ref name := rfl

theorem started_zero (host : Host) : host.started 0 = host := by
  simp [Host.started]

/-- Starting one loop and then `count` is starting `count + 1`. -/
theorem started_succ (host : Host) (count : Nat) :
    Host.started { host with loops := insert host.nextId host.loops, nextId := host.nextId + 1 }
      count = host.started (count + 1) := by
  simp only [Host.started, List.range'_succ, List.toFinset_cons, Finset.insert_union,
    Finset.union_insert]
  congr 1
  omega

/-- The first loop started, the rest follows. -/
theorem instantiateActor_succ (host : Host) (pool : WasmActor) (handler : Handler) (count : Nat)
    {failAt : Option Nat} (h : failAt ≠ some 0) :
    host.instantiateActor pool handler (count + 1) failAt =
      match Host.instantiateActor
        { host with loops := insert host.nextId host.loops, nextId := host.nextId + 1 }
        pool handler count (failAt.map (· - 1)) with
      | (host', .ok rest) => (host', .ok (⟨host.nextId, handler, pool⟩ :: rest))
      | (host', .error e) => (host', .error e) := by
  cases failAt with
  | none => rfl
  | some n =>
    cases n with
    | zero => exact absurd rfl h
    | succ n => rfl

/-- Either every loop is started, or a subscription failed after some of them
were. -/
theorem instantiateActor_cases (host : Host) (pool : WasmActor) (handler : Handler)
    (count : Nat) (failAt : Option Nat) :
    host.instantiateActor pool handler count failAt =
        (host.started count, .ok (freshInstances pool handler host.nextId count)) ∨
      ∃ k, failAt = some k ∧
        ∃ e, host.instantiateActor pool handler count failAt = (host.started k, .error e) := by
  induction count generalizing host failAt with
  | zero =>
    left
    simp [Host.instantiateActor, started_zero, freshInstances]
  | succ count ih =>
    by_cases hzero : failAt = some 0
    · subst hzero
      exact .inr ⟨0, rfl, _, by rw [started_zero]; rfl⟩
    · rw [instantiateActor_succ host pool handler count hzero]
      rcases ih { host with loops := insert host.nextId host.loops, nextId := host.nextId + 1 }
        (failAt.map (· - 1)) with hall | ⟨k, hfail, e, hsome⟩
      · left
        rw [hall, started_succ]
        simp [freshInstances, List.range'_succ]
      · right
        obtain ⟨j, rfl, hj⟩ := Option.map_eq_some_iff.mp hfail
        have hpos : j ≠ 0 := fun h => hzero (by rw [h])
        refine ⟨k + 1, by rw [show j = k + 1 by omega], e, ?_⟩
        rw [hsome, started_succ]

/-- Starting succeeds exactly if the subscription that fails is not one of
those needed. -/
theorem instantiateActor_ok_iff (host : Host) (pool : WasmActor) (handler : Handler)
    (count : Nat) (failAt : Option Nat) :
    (∃ instances, (host.instantiateActor pool handler count failAt).2 = .ok instances) ↔
      ∀ j, failAt = some j → count ≤ j := by
  induction count generalizing host failAt with
  | zero => simp [Host.instantiateActor]
  | succ count ih =>
    by_cases hfirst : failAt = some 0
    · subst hfirst
      simp [Host.instantiateActor]
    · rw [instantiateActor_succ host pool handler count hfirst]
      have hrest := ih { host with loops := insert host.nextId host.loops, nextId := host.nextId + 1 }
        (failAt.map (· - 1))
      have hshift : (∀ j, failAt.map (· - 1) = some j → count ≤ j) ↔
          ∀ j, failAt = some j → count + 1 ≤ j := by
        cases failAt with
        | none => simp
        | some j =>
          have hpos : j ≠ 0 := fun h => hfirst (by rw [h])
          simp only [Option.map_some, Option.some.injEq, forall_eq']
          omega
      rw [← hshift, ← hrest]
      rcases Host.instantiateActor _ pool handler count _ with ⟨host', e | rest⟩ <;> simp

/-! ## Filling a group -/

section FillGroup

variable {host : Host} {group : Ref} {g : ActorGroup} {actor : WasmActor}
  {claims : Jwt.Claims Jwt.Actor}

/-- What the fourth section of `reconcile_actor` can do: nothing, start the
actor, grow it, shrink it, or fail at a subscription with some loops already
started. -/
theorem fillGroup_cases (h : host.groups.get? group = some g)
    (hclaims : actor.claims = some claims) (name actorRef : String) (replica : Nat) (failAt : Option Nat) :
    (host.fillGroup group name actor actorRef replica failAt = (host, .ok ()) ∧
      (g.actors.lookup name = none ∧ replica = 0 ∨
        ∃ a, g.actors.lookup name = some a ∧ a.instances.length = replica)) ∨
    (g.actors.lookup name = none ∧ 0 < replica ∧
      host.fillGroup group name actor actorRef replica failAt =
        ((host.allocTargets.started replica).setActor group name
          ⟨actorRef, host.actorHandler claims group, actor,
            freshInstances actor (host.actorHandler claims group) host.nextId replica⟩, .ok ())) ∨
    (∃ a, g.actors.lookup name = some a ∧ a.instances.length < replica ∧
      host.fillGroup group name actor actorRef replica failAt =
        ((host.started (replica - a.instances.length)).setActor group name
          { a with
            instances := a.instances ++
              freshInstances a.pool a.handler host.nextId (replica - a.instances.length) },
          .ok ())) ∨
    (∃ a, g.actors.lookup name = some a ∧ replica < a.instances.length ∧
      host.fillGroup group name actor actorRef replica failAt =
        ((host.abortCalls (a.instances.take (a.instances.length - replica))).setActor group name
          { a with instances := a.instances.drop (a.instances.length - replica) }, .ok ())) ∨
    (∃ k, failAt = some k ∧ ∃ host₀ e, (host₀ = host ∨ host₀ = host.allocTargets) ∧
      host.fillGroup group name actor actorRef replica failAt = (host₀.started k, .error e)) := by
  cases hlook : g.actors.lookup name with
  | none =>
    by_cases hzero : replica = 0
    · exact .inl ⟨by simp [Host.fillGroup, h, hlook, hzero], .inl ⟨rfl, hzero⟩⟩
    · rcases instantiateActor_cases host.allocTargets actor (host.actorHandler claims group)
        replica failAt with hall | ⟨k, hfail, e, hsome⟩
      · refine .inr (.inl ⟨rfl, Nat.pos_of_ne_zero hzero, ?_⟩)
        simp only [Host.fillGroup, h, hlook, hzero, if_false, Host.startActor, hclaims, hall]
        rfl
      · refine .inr (.inr (.inr (.inr ⟨k, hfail, host.allocTargets,
          "failed to start actor", .inr rfl, ?_⟩)))
        simp only [Host.fillGroup, h, hlook, hzero, if_false, Host.startActor, hclaims, hsome]
  | some a =>
    rcases Nat.lt_trichotomy a.instances.length replica with hlt | heq | hgt
    · have hle : a.instances.length ≤ replica := hlt.le
      have hdelta : replica - a.instances.length ≠ 0 := by omega
      rcases instantiateActor_cases host a.pool a.handler (replica - a.instances.length)
        failAt with hall | ⟨k, hfail, e, hsome⟩
      · refine .inr (.inr (.inl ⟨a, rfl, hlt, ?_⟩))
        simp only [Host.fillGroup, h, hlook, hle, if_true, hdelta, if_false, hall]
      · refine .inr (.inr (.inr (.inr ⟨k, hfail, host, "failed to instantiate actor",
          .inl rfl, ?_⟩)))
        simp only [Host.fillGroup, h, hlook, hle, if_true, hdelta, if_false, hsome]
    · refine .inl ⟨?_, .inr ⟨a, rfl, heq⟩⟩
      simp [Host.fillGroup, h, hlook, heq]
    · refine .inr (.inr (.inr (.inl ⟨a, rfl, hgt, ?_⟩)))
      simp only [Host.fillGroup, h, hlook, Nat.not_le.mpr hgt, if_false]

/-- Filling a group leaves the keys, the registered groups, the definitions
and every header alone. -/
theorem fillGroup_frame (hclaims : actor.claims = some claims) (group : Ref) (name actorRef : String)
    (replica : Nat) (failAt : Option Nat) :
    (host.fillGroup group name actor actorRef replica failAt).1.actorKeys = host.actorKeys ∧
      (host.fillGroup group name actor actorRef replica failAt).1.actors = host.actors ∧
      (host.fillGroup group name actor actorRef replica failAt).1.links = host.links ∧
      ∀ ref, (host.fillGroup group name actor actorRef replica failAt).1.header? ref =
        host.header? ref := by
  cases h : host.groups.get? group with
  | none => simp [Host.fillGroup, h]
  | some g =>
    rcases fillGroup_cases h hclaims name actorRef replica failAt with
      ⟨hr, -⟩ | ⟨-, -, hr⟩ | ⟨a, -, -, hr⟩ | ⟨a, -, -, hr⟩ | ⟨k, -, host₀, e, rfl | rfl, hr⟩ <;>
      rw [hr] <;>
      exact ⟨rfl, rfl, rfl, fun ref => by simp⟩

/-- From `old` to `a` the image and the handler stay, and new instances run
them. -/
structure Actor.Grown (old a : Actor) : Prop where
  imageRef : a.imageRef = old.imageRef
  handler : a.handler = old.handler
  pool : a.pool = old.pool
  instances : ∀ i ∈ a.instances, i ∈ old.instances ∨ i.handler = a.handler ∧ i.pool = a.pool

theorem Actor.Grown.refl (a : Actor) : a.Grown a :=
  ⟨rfl, rfl, rfl, fun _ hi => .inl hi⟩

theorem mem_freshInstances {pool : WasmActor} {handler : Handler} {first count : Nat}
    {i : ActorInstance} (h : i ∈ freshInstances pool handler first count) :
    i.handler = handler ∧ i.pool = pool := by
  obtain ⟨id, -, rfl⟩ := List.mem_map.mp h
  exact ⟨rfl, rfl⟩

/-- Every actor after filling a group was there before with its image and its
handler, or is the one started with the fetched image. -/
theorem fillGroup_images (hclaims : actor.claims = some claims) (group : Ref)
    (name actorRef : String) (replica : Nat) (failAt : Option Nat) {ref : Ref} {m : String}
    {a : Actor}
    (ha : (host.fillGroup group name actor actorRef replica failAt).1.actorAt ref m = some a) :
    (∃ old, host.actorAt ref m = some old ∧ old.Grown a) ∨
    ((ref = group ∧ m = name) ∧ host.actorAt group name = none ∧
      a = ⟨actorRef, host.actorHandler claims group, actor,
        freshInstances actor (host.actorHandler claims group) host.nextId replica⟩) := by
  have hkept : host.actorAt ref m = some a →
      ∃ old, host.actorAt ref m = some old ∧ old.Grown a := fun h => ⟨a, h, .refl a⟩
  cases h : host.groups.get? group with
  | none =>
    simp only [Host.fillGroup, h] at ha
    exact .inl (hkept ha)
  | some g =>
    have hat := actorAt_of_group h name
    rcases fillGroup_cases h hclaims name actorRef replica failAt with
      ⟨hr, -⟩ | ⟨hnone, -, hr⟩ | ⟨old, hlook, -, hr⟩ | ⟨old, hlook, -, hr⟩ |
        ⟨k, -, host₀, e, rfl | rfl, hr⟩ <;> rw [hr] at ha
    · exact .inl (hkept ha)
    · -- started
      rw [setActor_actorAt (host.allocTargets.started _) h] at ha
      split at ha
      · rename_i heq
        cases ha
        exact .inr ⟨heq, hat.trans hnone, rfl⟩
      · exact .inl (hkept ha)
    · -- grown
      rw [setActor_actorAt (host.started _) h] at ha
      split at ha
      · rename_i heq
        obtain ⟨rfl, rfl⟩ := heq
        cases ha
        refine .inl ⟨old, hat.trans hlook, rfl, rfl, rfl, fun i hi => ?_⟩
        rcases List.mem_append.mp hi with hi | hi
        · exact .inl hi
        · exact .inr (mem_freshInstances hi)
      · exact .inl (hkept ha)
    · -- shrunk
      rw [setActor_actorAt (host.abortCalls _) h] at ha
      split at ha
      · rename_i heq
        obtain ⟨rfl, rfl⟩ := heq
        cases ha
        refine .inl ⟨old, hat.trans hlook, rfl, rfl, rfl, fun i hi => ?_⟩
        exact .inl (List.mem_of_mem_drop hi)
      · exact .inl (hkept ha)
    · exact .inl (hkept ha)
    · exact .inl (hkept ha)

end FillGroup

/-! ## One actor's instances change -/

/-- From `host` to `host'` the instances of `name` in `group` change from
`dropped ++ kept` to `kept ++ fresh`: the loops of the first are aborted,
those of the last are new, and no other actor changes. -/
structure Resized (host host' : Host) (group : Ref) (name : String)
    (dropped kept fresh : List ActorInstance) : Prop where
  before : host.instancesAt group name = dropped ++ kept
  after : host'.instancesAt group name = kept ++ fresh
  others : ∀ ref m, ¬ (ref = group ∧ m = name) → host'.actorAt ref m = host.actorAt ref m
  loops : host'.loops = (host.loops \ (dropped.map ActorInstance.id).toFinset) ∪
    (fresh.map ActorInstance.id).toFinset
  ids : fresh.map ActorInstance.id = List.range' host.nextId fresh.length
  nextId : host'.nextId = host.nextId + fresh.length

theorem instancesAt_of_some {host : Host} {ref : Ref} {name : String} {a : Actor}
    (h : host.actorAt ref name = some a) : host.instancesAt ref name = a.instances := by
  simp [Host.instancesAt, h]

theorem instancesAt_of_none {host : Host} {ref : Ref} {name : String}
    (h : host.actorAt ref name = none) : host.instancesAt ref name = [] := by
  simp [Host.instancesAt, h]

/-- The first instances replaced by an equal list: nothing changes. -/
theorem Resized.refl (host : Host) (group : Ref) (name : String) :
    Resized host host group name [] (host.instancesAt group name) [] where
  before := by simp
  after := by simp
  others _ _ _ := rfl
  loops := by simp
  ids := rfl
  nextId := rfl

/-- The fourth section gives the actor the wanted number of instances, or it
fails at a subscription with some loops already started. -/
theorem fillGroup_resized {host : Host} {group : Ref} {g : ActorGroup}
    (h : host.groups.get? group = some g) {actor : WasmActor} {claims : Jwt.Claims Jwt.Actor}
    (hclaims : actor.claims = some claims) (name actorRef : String) (replica : Nat)
    (failAt : Option Nat) :
    (∃ host' dropped kept fresh,
      host.fillGroup group name actor actorRef replica failAt = (host', .ok ()) ∧
      Resized host host' group name dropped kept fresh ∧
      (host'.instancesAt group name).length = replica ∧
      (0 < replica → ∃ a, host'.actorAt group name = some a)) ∨
    (∃ k, failAt = some k ∧ ∃ host₀ e, (host₀ = host ∨ host₀ = host.allocTargets) ∧
      host.fillGroup group name actor actorRef replica failAt = (host₀.started k, .error e)) := by
  rcases fillGroup_cases h hclaims name actorRef replica failAt with
    ⟨hr, hcase⟩ | ⟨hlook, hpos, hr⟩ | ⟨old, hlook, hlt, hr⟩ | ⟨old, hlook, hlt, hr⟩ | hfail
  on_goal 5 => exact .inr hfail
  all_goals left
  · refine ⟨host, _, _, _, hr, .refl host group name, ?_⟩
    rcases hcase with ⟨hnone, hzero⟩ | ⟨a, hlook, hlen⟩
    · rw [← actorAt_of_group h] at hnone
      rw [instancesAt_of_none hnone]
      exact ⟨hzero.symm, fun hpos => absurd hzero (by omega)⟩
    · rw [← actorAt_of_group h] at hlook
      rw [instancesAt_of_some hlook]
      exact ⟨hlen, fun _ => ⟨a, hlook⟩⟩
  · rw [← actorAt_of_group h] at hlook
    have hset := setActor_actorAt (host.allocTargets.started replica) h name
      ⟨actorRef, host.actorHandler claims group, actor,
        freshInstances actor (host.actorHandler claims group) host.nextId replica⟩
    have hat := hset group name
    rw [if_pos ⟨rfl, rfl⟩] at hat
    refine ⟨_, [], [], freshInstances actor (host.actorHandler claims group) host.nextId replica,
      hr, ⟨?_, ?_, ?_, ?_, ?_, ?_⟩, ?_, fun _ => ⟨_, hat⟩⟩
    · rw [instancesAt_of_none hlook]; rfl
    · rw [instancesAt_of_some hat]; rfl
    · intro ref m hne
      rw [hset, if_neg hne]
      rfl
    · simp [Host.setActor, Host.started, Host.allocTargets]
    · simp
    · simp [Host.setActor, Host.started, Host.allocTargets]
    · rw [instancesAt_of_some hat]
      simp
  · rw [← actorAt_of_group h] at hlook
    have hset := setActor_actorAt (host.started (replica - old.instances.length)) h name
      { old with
        instances := old.instances ++
          freshInstances old.pool old.handler host.nextId (replica - old.instances.length) }
    have hat := hset group name
    rw [if_pos ⟨rfl, rfl⟩] at hat
    refine ⟨_, [], old.instances,
      freshInstances old.pool old.handler host.nextId (replica - old.instances.length),
      hr, ⟨?_, ?_, ?_, ?_, ?_, ?_⟩, ?_, fun _ => ⟨_, hat⟩⟩
    · rw [instancesAt_of_some hlook]; rfl
    · rw [instancesAt_of_some hat]
    · intro ref m hne
      rw [hset, if_neg hne]
      rfl
    · simp [Host.setActor, Host.started]
    · simp
    · simp [Host.setActor, Host.started]
    · rw [instancesAt_of_some hat]
      simp
      omega
  · rw [← actorAt_of_group h] at hlook
    have hset := setActor_actorAt
      (host.abortCalls (old.instances.take (old.instances.length - replica))) h name
      { old with instances := old.instances.drop (old.instances.length - replica) }
    have hat := hset group name
    rw [if_pos ⟨rfl, rfl⟩] at hat
    refine ⟨_, old.instances.take (old.instances.length - replica),
      old.instances.drop (old.instances.length - replica), [],
      hr, ⟨?_, ?_, ?_, ?_, ?_, ?_⟩, ?_, fun _ => ⟨_, hat⟩⟩
    · rw [instancesAt_of_some hlook, List.take_append_drop]
    · rw [instancesAt_of_some hat]
      simp
    · intro ref m hne
      rw [hset, if_neg hne]
      rfl
    · simp [Host.setActor, Host.abortCalls]
    · rfl
    · rfl
    · rw [instancesAt_of_some hat]
      simp
      omega

/-- The fourth section succeeds exactly if no subscription that it needs
fails. -/
theorem fillGroup_ok_iff {host : Host} {group : Ref} {g : ActorGroup}
    (h : host.groups.get? group = some g) {actor : WasmActor} {claims : Jwt.Claims Jwt.Actor}
    (hclaims : actor.claims = some claims) (name actorRef : String) (replica : Nat)
    (failAt : Option Nat) :
    (host.fillGroup group name actor actorRef replica failAt).2 = .ok () ↔
      ∀ j, failAt = some j → replica - (host.instancesAt group name).length ≤ j := by
  cases hlook : g.actors.lookup name with
  | none =>
    have hnone := hlook
    rw [← actorAt_of_group h] at hnone
    rw [instancesAt_of_none hnone]
    by_cases hzero : replica = 0
    · simp [Host.fillGroup, h, hlook, hzero]
    · have hok := instantiateActor_ok_iff host.allocTargets actor (host.actorHandler claims group)
        replica failAt
      simp only [Host.fillGroup, h, hlook, hzero, if_false, Host.startActor, hclaims,
        List.length_nil, Nat.sub_zero, ← hok]
      rcases Host.instantiateActor _ _ _ _ _ with ⟨host', e | rest⟩ <;> simp
  | some a =>
    have hsome := hlook
    rw [← actorAt_of_group h] at hsome
    rw [instancesAt_of_some hsome]
    by_cases hle : a.instances.length ≤ replica
    · by_cases hdelta : replica - a.instances.length = 0
      · simp [Host.fillGroup, h, hlook, hle, hdelta]
      · have hok := instantiateActor_ok_iff host a.pool a.handler (replica - a.instances.length)
          failAt
        simp only [Host.fillGroup, h, hlook, hle, if_true, hdelta, if_false, ← hok]
        rcases Host.instantiateActor _ _ _ _ _ with ⟨host', e | rest⟩ <;> simp
    · have hzero : replica - a.instances.length = 0 := by omega
      simp [Host.fillGroup, h, hlook, hle, hzero]

/-! ## Registering a name -/

/-- The key of a known name stays. -/
theorem registerActorKey_lookup (host : Host) (name key m : String) :
    (host.registerActorKey name key).actorKeys.lookup m =
      if m = name then some ((host.actorKeys.lookup name).getD key)
      else host.actorKeys.lookup m := by
  unfold Host.registerActorKey
  cases h : host.actorKeys.lookup name with
  | none => simp [HashMap.lookup_insert_if]
  | some key' =>
    by_cases hm : m = name
    · subst hm; simp [h]
    · simp [hm]

theorem registerActorKey_frame (host : Host) (name key : String) :
    (host.registerActorKey name key).links = host.links ∧
      (host.registerActorKey name key).actors = host.actors ∧
      (host.registerActorKey name key).groups = host.groups := by
  unfold Host.registerActorKey
  split <;> simp

@[simp] theorem registerActorKey_nextId (host : Host) (name key : String) :
    (host.registerActorKey name key).nextId = host.nextId := by
  unfold Host.registerActorKey
  split <;> rfl

/-- Registering a known name changes nothing. -/
theorem registerActorKey_of_known {host : Host} {name key : String}
    (h : host.actorKeys.lookup name = some key) (key' : String) :
    host.registerActorKey name key' = host := by
  simp [Host.registerActorKey, h]

/-! ## Finding or making a group -/

section LookupGroup

variable {host : Host} {publicKey : String}

theorem lookupGroup_found {ref : Ref} (h : host.actors.lookup publicKey = some ref) :
    host.lookupGroup publicKey = (ref, host) := by
  simp [Host.lookupGroup, h]

/-- A group that is made is registered under its key, is empty, and has the
links known by then; no other group changes. -/
theorem lookupGroup_made (h : host.actors.lookup publicKey = none) :
    (host.lookupGroup publicKey).1 = host.groups.next ∧
      (host.lookupGroup publicKey).2.actors =
        host.actors.insert publicKey host.groups.next ∧
      (∀ ref, (host.lookupGroup publicKey).2.groups.get? ref =
        if ref = host.groups.next then some ⟨publicKey, ∅, host.getActorLinks publicKey⟩
        else host.groups.get? ref) := by
  refine ⟨by simp [Host.lookupGroup, h], by simp [Host.lookupGroup, h], fun ref => ?_⟩
  simp [Host.lookupGroup, h, Heap.get?_alloc]

theorem lookupGroup_frame (host : Host) (publicKey : String) :
    (host.lookupGroup publicKey).2.actorKeys = host.actorKeys ∧
      (host.lookupGroup publicKey).2.links = host.links ∧
      (host.lookupGroup publicKey).2.loops = host.loops ∧
      (host.lookupGroup publicKey).2.nextId = host.nextId := by
  unfold Host.lookupGroup
  split <;> simp

/-- Making a group adds no actor. -/
@[simp] theorem lookupGroup_actorAt (host : Host) (publicKey : String) (ref : Ref)
    (name : String) : (host.lookupGroup publicKey).2.actorAt ref name = host.actorAt ref name := by
  cases h : host.actors.lookup publicKey with
  | some found => rw [lookupGroup_found h]
  | none =>
    simp only [Host.actorAt, (lookupGroup_made h).2.2 ref]
    split
    · rename_i heq
      subst heq
      simp
    · rfl

end LookupGroup

/-! ## Taking an actor out of its group -/

section RemoveFromGroup

variable {host : Host} {publicKey : String} {ref : Ref} {g : ActorGroup}

theorem removeFromGroup_unknown (h : host.actors.lookup publicKey = none) (name : String) :
    host.removeFromGroup publicKey name = host := by
  simp [Host.removeFromGroup, h]

/-- The second section of `remove_actor` leaves the keys, the definitions and
every header alone. -/
theorem removeFromGroup_frame (host : Host) (publicKey name : String) :
    (host.removeFromGroup publicKey name).actorKeys = host.actorKeys ∧
      (host.removeFromGroup publicKey name).links = host.links ∧
      ∀ ref, (host.removeFromGroup publicKey name).header? ref = host.header? ref := by
  unfold Host.removeFromGroup
  split
  · exact ⟨rfl, rfl, fun _ => rfl⟩
  · split
    · exact ⟨rfl, rfl, fun _ => rfl⟩
    · rename_i ref _ _ g _
      cases hlook : g.actors.lookup name with
      | none => dsimp only; split <;> exact ⟨rfl, rfl, fun _ => rfl⟩
      | some actor =>
        dsimp only
        split
        · exact ⟨rfl, rfl, fun r => dropActor_header? host ref name actor r⟩
        · exact ⟨rfl, rfl, fun r => dropActor_header? host ref name actor r⟩

/-- With the group registered, the actor and its loops go, and the group is
unregistered if no actor is left in it. -/
theorem removeFromGroup_spec (hreg : host.actors.lookup publicKey = some ref)
    (hg : host.groups.get? ref = some g) (name : String) :
    (host.removeFromGroup publicKey name).actors =
        (if HashMap.isEmpty (g.actors.erase name) then host.actors.erase publicKey
          else host.actors) ∧
      (host.removeFromGroup publicKey name).actorAt ref name = none ∧
      Resized host (host.removeFromGroup publicKey name) ref name
        (host.instancesAt ref name) [] [] := by
  unfold Host.removeFromGroup
  simp only [hreg, hg]
  cases hlook : g.actors.lookup name with
  | none =>
    rw [← actorAt_of_group hg] at hlook
    have hres : Resized host host ref name (host.instancesAt ref name) [] [] := by
      have hrefl := Resized.refl host ref name
      rwa [instancesAt_of_none hlook] at hrefl ⊢
    split
    · exact ⟨rfl, hlook, hres.before, hres.after, hres.others, hres.loops, hres.ids, hres.nextId⟩
    · exact ⟨rfl, hlook, hres⟩
  | some actor =>
    rw [← actorAt_of_group hg] at hlook
    have hnone : (host.dropActor ref name actor).actorAt ref name = none := by
      rw [dropActor_actorAt, if_pos ⟨rfl, rfl⟩]
    have hres : Resized host (host.dropActor ref name actor) ref name
        (host.instancesAt ref name) [] [] := by
      refine ⟨by simp, ?_, ?_, ?_, rfl, rfl⟩
      · rw [instancesAt_of_none hnone]; rfl
      · intro r m hne
        rw [dropActor_actorAt, if_neg hne]
      · rw [instancesAt_of_some hlook]
        simp [Host.dropActor, Host.abortCalls]
    split
    · exact ⟨rfl, hnone, hres.before, hres.after, hres.others, hres.loops, hres.ids, hres.nextId⟩
    · exact ⟨rfl, hnone, hres⟩

/-- An actor that is left was there before. -/
theorem removeFromGroup_actorAt (host : Host) (publicKey name : String) {r : Ref} {m : String}
    {a : Actor} (ha : (host.removeFromGroup publicKey name).actorAt r m = some a) :
    host.actorAt r m = some a := by
  cases hreg : host.actors.lookup publicKey with
  | none =>
    rw [removeFromGroup_unknown hreg] at ha
    exact ha
  | some ref =>
    cases hg : host.groups.get? ref with
    | none =>
      simp only [Host.removeFromGroup, hreg, hg] at ha
      exact ha
    | some g =>
      obtain ⟨-, hgone, hres⟩ := removeFromGroup_spec hreg hg name
      by_cases hplace : r = ref ∧ m = name
      · obtain ⟨rfl, rfl⟩ := hplace
        rw [hgone] at ha
        cases ha
      · rw [hres.others r m hplace] at ha
        exact ha

end RemoveFromGroup

end KasmCloud
