/-
KasmCloud.Host.ActorTable — the actor tables as one map.

`reconcile_actor` and `remove_actor` keep what they know of an actor in four
tables: the keys, the groups of a key, the names in a group and the instance
list of a name. Run one at a time, without a failure from outside, they are
meant to be one map from a name to a public key and a count, `ActorTable`.

* `Host.actorTable` reads that map off the tables;
* `Exact` is the invariant: groups are registered under their own keys, and
  every call loop is that of a recorded instance;
* `actorTables_refine` — every run of calls changes the map as its abstract
  calls do, with the same results, and the instances are those it counts.
-/
import KasmCloud.Host.ActorRuns
import KasmCloud.Lib.Machine

namespace KasmCloud

open Lib

/-! ## The map -/

/-- name -> (public key, count) -/
abbrev ActorTable := String → Option (String × Nat)

/-- A call, with the image that its reference names. -/
inductive TableCall where
  | reconcile (name actorRef : String) (image : WasmActor) (replica : Nat)
  | remove (name : String)

/-- A reconcile is refused for an image without claims, or with another key
than the one recorded. -/
def ActorTable.step (t : ActorTable) : TableCall → ActorTable × Bool
  | .reconcile name _ image replica =>
    match image.claims with
    | none => (t, false)
    | some claims =>
      match t name with
      | none => (Function.update t name (some (claims.subject, replica)), true)
      | some (key, _) =>
        if key = claims.subject then (Function.update t name (some (key, replica)), true)
        else (t, false)
  | .remove name => (Function.update t name none, true)

/-- The map after some calls. -/
def ActorTable.after (calls : List TableCall) : ActorTable :=
  calls.foldl (fun t call => (t.step call).1) fun _ => none

/-! ## The tables -/

/-- A call that meets no failure from outside, and whether it returns `Ok`. -/
def Host.perform (host : Host) : TableCall → Host × Bool
  | .reconcile name actorRef image replica =>
    match host.reconcileActor name actorRef (.ok image) replica none with
    | (host, .ok _) => (host, true)
    | (host, .error _) => (host, false)
  | .remove name => (host.removeActor name, true)

/-- The calls of one host, one at a time. -/
def actorMachine (latticePrefix : String) : Machine Host TableCall where
  init := .new latticePrefix
  step host call := some (host.perform call).1

/-- The key recorded for each name, and the number of its instances. -/
def Host.actorTable (host : Host) : ActorTable := fun name =>
  (host.actorKeys.lookup name).map fun key => (key, (host.recordedUnder name).length)

/-- The groups and the running instances are those of the recorded names. -/
structure GroupsRight (host : Host) : Prop where
  keyed : ∀ key g name a, host.group? key = some g → g.actors.lookup name = some a →
    host.actorKeys.lookup name = some key
  single : ∀ key key' g g' name a a', host.group? key = some g → host.group? key' = some g' →
    g.actors.lookup name = some a → g'.actors.lookup name = some a' → key = key'
  running : ∀ id, id ∈ host.loops ↔
    ∃ name, id ∈ (host.recordedUnder name).map ActorInstance.id
  distinct : ∀ name, ((host.recordedUnder name).map ActorInstance.id).Nodup

/-- What a call does to the instances of its name, and to no other. -/
def PerformsRight (host : Host) : TableCall → Prop
  | .reconcile name actorRef image replica =>
    let res := host.perform (.reconcile name actorRef image replica)
    (∀ other, other ≠ name → res.1.recordedUnder other = host.recordedUnder other) ∧
      if res.2 = true then
        (∃ claims, image.claims = some claims ∧
          res.1.actorKeys.lookup name = some claims.subject) ∧
        (res.1.recordedUnder name).length = replica ∧
        ∃ fresh, res.1.recordedUnder name =
          (host.recordedUnder name).drop ((host.recordedUnder name).length - replica) ++ fresh
      else res.1 = host
  | .remove name =>
    let res := host.perform (.remove name)
    (∀ other, other ≠ name → res.1.recordedUnder other = host.recordedUnder other) ∧
      res.1.actorKeys.lookup name = none ∧ res.1.recordedUnder name = [] ∧
      (∀ i ∈ host.recordedUnder name, i.id ∉ res.1.loops) ∧
      ∀ key g, res.1.group? key = some g → g.actors.lookup name = none

/-! ## The invariant -/

/-- Registered groups have their own keys, and every call loop is that of an
recorded instance. -/
structure Exact (host : Host) : Prop where
  ok : ActorsOk host
  headers : ∀ key ref, host.actors.lookup key = some ref →
    ∃ links, host.header? ref = some (key, links)
  loops : LoopsExact host

theorem exact_new (latticePrefix : String) : Exact (.new latticePrefix) := by
  refine ⟨actorsOk_new latticePrefix, ?_, idsApart_new latticePrefix, fun id => ?_⟩
  · intro key ref hreg
    cases hreg
  · constructor
    · intro hid
      cases hid
    · rintro ⟨ref, name, hid⟩
      cases hid

section Recorded

variable {host host' : Host} {name : String} {ref : Ref}

/-- What is in a group is recorded. -/
theorem ActorsOk.recordedUnder_of_actorAt (h : ActorsOk host) {a : Actor}
    (ha : host.actorAt ref name = some a) : host.recordedUnder name = host.instancesAt ref name := by
  obtain ⟨key, hkey, hreg⟩ := h.member ref name a ha
  exact recordedUnder_of_registered hkey hreg

/-- A name that is in no group has no instances. -/
theorem recordedUnder_of_nowhere (h : ∀ ref, host.actorAt ref name = none) :
    host.recordedUnder name = [] := by
  unfold Host.recordedUnder
  split
  · rfl
  · split
    · rfl
    · rename_i ref _
      exact instancesAt_of_none (h ref)

/-- The recorded instances of a name depend on the groups only. -/
theorem ActorsOk.recordedUnder_congr (h : ActorsOk host) (h' : ActorsOk host')
    (hsame : ∀ ref, host'.actorAt ref name = host.actorAt ref name) :
    host'.recordedUnder name = host.recordedUnder name := by
  by_cases hnone : ∀ ref, host.actorAt ref name = none
  · rw [recordedUnder_of_nowhere hnone,
      recordedUnder_of_nowhere fun ref => (hsame ref).trans (hnone ref)]
  · obtain ⟨ref, hne⟩ := not_forall.mp hnone
    obtain ⟨a, ha⟩ := Option.ne_none_iff_exists'.mp hne
    rw [h.recordedUnder_of_actorAt ha, h'.recordedUnder_of_actorAt ((hsame ref).trans ha),
      Host.instancesAt, Host.instancesAt, hsame]

/-- An id in a group is that of a recorded instance. -/
theorem ActorsOk.recorded_of_mem_idsAt (h : ActorsOk host) {id : Nat}
    (hid : id ∈ host.idsAt ref name) : id ∈ (host.recordedUnder name).map ActorInstance.id := by
  cases hat : host.actorAt ref name with
  | none =>
    rw [Host.idsAt, instancesAt_of_none hat] at hid
    cases hid
  | some a =>
    rw [h.recordedUnder_of_actorAt hat]
    exact hid

theorem Exact.groupsRight (h : Exact host) : GroupsRight host := by
  have hmember {key : String} {g : ActorGroup} {m : String} {a : Actor}
      (hgroup : host.group? key = some g) (ha : g.actors.lookup m = some a) :
      host.actorKeys.lookup m = some key := by
    obtain ⟨ref, hreg, hg⟩ := Option.bind_eq_some_iff.mp hgroup
    obtain ⟨key', hkey', hreg'⟩ := h.ok.member ref m a ((actorAt_of_group hg m).trans ha)
    obtain ⟨links, hheader⟩ := h.headers key ref hreg
    obtain ⟨links', hheader'⟩ := h.headers key' ref hreg'
    rw [hheader, Option.some.injEq, Prod.mk.injEq] at hheader'
    rw [hheader'.1]
    exact hkey'
  refine ⟨fun key g m a => hmember, fun key key' g g' m a a' hg hg' ha ha' => ?_,
    fun id => ⟨fun hid => ?_, ?_⟩, fun m => ?_⟩
  · have hboth := (hmember hg ha).symm.trans (hmember hg' ha')
    exact Option.some.inj hboth
  · obtain ⟨ref, m, hid⟩ := (h.loops.mem_iff id).mp hid
    exact ⟨m, h.ok.recorded_of_mem_idsAt hid⟩
  · rintro ⟨m, hid⟩
    obtain ⟨ref, hid⟩ := mem_idsAt_of_recorded hid
    exact h.ok.alive ref m id hid
  · by_cases hnone : ∀ ref, host.actorAt ref m = none
    · rw [recordedUnder_of_nowhere hnone]
      exact List.nodup_nil
    · obtain ⟨ref, hne⟩ := not_forall.mp hnone
      obtain ⟨a, ha⟩ := Option.ne_none_iff_exists'.mp hne
      rw [h.ok.recordedUnder_of_actorAt ha]
      exact h.ok.apart.nodup ref m

end Recorded

/-! ## One actor's instances change -/

section Resized

variable {host host' : Host} {group : Ref} {name : String}
  {dropped kept fresh : List ActorInstance}

/-- Other names have the instances they had. -/
theorem Resized.recordedUnder_ne (hr : Resized host host' group name dropped kept fresh)
    (h : ActorsOk host) (h' : ActorsOk host') {other : String} (hne : other ≠ name) :
    host'.recordedUnder other = host.recordedUnder other :=
  h.recordedUnder_congr h' fun ref => hr.others ref other fun hplace => hne hplace.2

end Resized

/-! ## Reconciling -/

section Reconcile

variable {host : Host} {name actorRef : String} {image : WasmActor}
  {claims : Jwt.Claims Jwt.Actor} {replica : Nat}

/-- Filling a group starts what is missing and no more. -/
theorem fillGroup_nextId {group : Ref} {g : ActorGroup} (h : host.groups.get? group = some g)
    (hclaims : image.claims = some claims) :
    (host.fillGroup group name image actorRef replica none).1.nextId =
      host.nextId + (replica - (host.instancesAt group name).length) := by
  rcases fillGroup_cases h hclaims name actorRef replica none with
    ⟨hr, hcase⟩ | ⟨hlook, -, hr⟩ | ⟨a, hlook, -, hr⟩ | ⟨a, hlook, hlt, hr⟩ | ⟨k, hfail, -⟩
  · rw [hr]
    show host.nextId = _
    rcases hcase with ⟨-, hzero⟩ | ⟨a, hlook, hlen⟩
    · omega
    · rw [← actorAt_of_group h] at hlook
      rw [instancesAt_of_some hlook]
      omega
  · rw [← actorAt_of_group h] at hlook
    rw [hr, instancesAt_of_none hlook]
    rfl
  · rw [← actorAt_of_group h] at hlook
    rw [hr, instancesAt_of_some hlook]
    rfl
  · rw [← actorAt_of_group h] at hlook
    rw [hr, instancesAt_of_some hlook]
    show host.nextId = _
    omega
  · cases hfail

/-- A group that is made has the key it is registered under. -/
theorem lookupGroup_headers (h : ∀ key ref, host.actors.lookup key = some ref →
    ∃ links, host.header? ref = some (key, links)) (publicKey : String) :
    ∀ key ref, (host.lookupGroup publicKey).2.actors.lookup key = some ref →
      ∃ links, (host.lookupGroup publicKey).2.header? ref = some (key, links) := by
  cases hreg : host.actors.lookup publicKey with
  | some found =>
    rw [lookupGroup_found hreg]
    exact h
  | none =>
    obtain ⟨-, hactors, hcells⟩ := lookupGroup_made hreg
    intro key ref hkey
    rw [hactors, HashMap.lookup_insert_if] at hkey
    simp only [Host.header?, hcells ref]
    split at hkey
    · rename_i heq
      rw [heq, if_pos (Option.some.inj hkey).symm]
      exact ⟨_, rfl⟩
    · obtain ⟨links, hheader⟩ := h key ref hkey
      obtain ⟨g, hg, -⟩ := Option.map_eq_some_iff.mp hheader
      have hne : ref ≠ host.groups.next := by
        rintro rfl
        rw [Heap.get?_next] at hg
        cases hg
      rw [if_neg hne]
      exact ⟨links, hheader⟩

/-- A reconcile starts what is missing and no more. -/
theorem ActorsOk.reconcileActor_nextId (h : ActorsOk host) (hclaims : image.claims = some claims)
    (hadmitted : ∀ k, host.actorKeys.lookup name = some k → k = claims.subject)
    (actorRef : String) (replica : Nat) :
    (host.reconcileActor name actorRef (.ok image) replica none).1.nextId =
      host.nextId + (replica - (host.recordedUnder name).length) := by
  obtain ⟨hok, hkey, hreg, hsame⟩ := h.enter hadmitted
  obtain ⟨g, hg⟩ := hok.cells _ _ hreg
  rw [reconcileActor_fill hclaims hadmitted, fillGroup_nextId hg hclaims, hsame.nextId,
    ← recordedUnder_of_registered hkey hreg, h.recordedUnder_enter hadmitted]

/-- A reconcile whose key may be used: the name gets the key, and every
registered group has its own. -/
theorem Exact.reconcileActor_tables (h : Exact host) (hclaims : image.claims = some claims)
    (hadmitted : ∀ k, host.actorKeys.lookup name = some k → k = claims.subject)
    (actorRef : String) (replica : Nat) (failAt : Option Nat) :
    (∀ m, (host.reconcileActor name actorRef (.ok image) replica failAt).1.actorKeys.lookup m =
        if m = name then some claims.subject else host.actorKeys.lookup m) ∧
      ∀ key ref, (host.reconcileActor name actorRef (.ok image) replica failAt).1.actors.lookup key =
        some ref → ∃ links,
          (host.reconcileActor name actorRef (.ok image) replica failAt).1.header? ref =
            some (key, links) := by
  have hregheader : ∀ key ref, (host.registerActorKey name claims.subject).actors.lookup key =
      some ref → ∃ links, (host.registerActorKey name claims.subject).header? ref =
        some (key, links) := by
    unfold Host.registerActorKey
    split <;> exact h.headers
  have hlookheader := lookupGroup_headers hregheader claims.subject
  have hlookkeys := (lookupGroup_frame (host.registerActorKey name claims.subject)
    claims.subject).1
  obtain ⟨hkeys, hactors, -, hheader⟩ := @fillGroup_frame
    ((host.registerActorKey name claims.subject).lookupGroup claims.subject).2 image claims
    hclaims ((host.registerActorKey name claims.subject).lookupGroup claims.subject).1 name
    actorRef replica failAt
  rw [reconcileActor_fill hclaims hadmitted]
  refine ⟨fun m => ?_, fun key ref hkey => ?_⟩
  · rw [hkeys, hlookkeys]
    rw [registerActorKey_lookup]
    cases hkey : host.actorKeys.lookup name with
    | none => rfl
    | some k => rw [hadmitted k hkey]; rfl
  · rw [hactors] at hkey
    rw [hheader]
    exact hlookheader key ref hkey

/-- An image with another key, or with none, changes nothing. -/
theorem perform_refused (h : ∀ claims, image.claims = some claims →
    ¬ ∀ k, host.actorKeys.lookup name = some k → k = claims.subject) (actorRef : String)
    (replica : Nat) : host.perform (.reconcile name actorRef image replica) = (host, false) := by
  rcases reconcileActor_cases host name actorRef (.ok image) replica none with
    ⟨-, e, hrun⟩ | ⟨image', claims, himage, hclaims, hadmitted, -⟩
  · simp only [Host.perform, hrun]
  · cases himage
    exact absurd hadmitted (h claims hclaims)

/-- An image whose key may be used: the name has the key and the wanted number
of instances, the newest of those before and then new ones. -/
theorem Exact.perform_admitted (h : Exact host) (hclaims : image.claims = some claims)
    (hadmitted : ∀ k, host.actorKeys.lookup name = some k → k = claims.subject)
    (actorRef : String) (replica : Nat) :
    ∃ host', host.perform (.reconcile name actorRef image replica) = (host', true) ∧
      Exact host' ∧
      (∀ m, host'.actorKeys.lookup m =
        if m = name then some claims.subject else host.actorKeys.lookup m) ∧
      (∀ other, other ≠ name → host'.recordedUnder other = host.recordedUnder other) ∧
      (host'.recordedUnder name).length = replica ∧
      ∃ fresh, host'.recordedUnder name =
        (host.recordedUnder name).drop ((host.recordedUnder name).length - replica) ++ fresh := by
  obtain ⟨host', hok', hcase⟩ := reconcileActor_spec h.ok name actorRef (.ok image) replica none
  have hstarts : host.ActorStarts name claims replica none := ⟨hadmitted, fun j hj => nomatch hj⟩
  rcases hcase with ⟨actor, claims', hactor, hclaims', -, hrun, hfilled⟩ | ⟨hnot, -⟩
  · cases hactor
    cases hclaims.symm.trans hclaims'
    obtain ⟨hkeys, hheaders⟩ := h.reconcileActor_tables hclaims hadmitted actorRef replica none
    have hnext := h.ok.reconcileActor_nextId hclaims hadmitted actorRef replica
    rw [hrun] at hkeys hheaders hnext
    obtain ⟨hlen, group, dropped, kept, fresh, hr, hbefore, hafter⟩ := hfilled
    refine ⟨host', ?_, ⟨hok', hheaders, h.loops.resized hr⟩, hkeys,
      fun other hne => hr.recordedUnder_ne h.ok hok' hne, hlen, fresh, ?_⟩
    · simp only [Host.perform, hrun]
    · -- as many are new as ids were used, so as many are dropped as are too many
      have hfresh : fresh.length = replica - (host.recordedUnder name).length := by
        have hboth := hr.nextId.symm.trans hnext
        omega
      have hcount : dropped.length = (host.recordedUnder name).length - replica := by
        rw [hafter, List.length_append] at hlen
        rw [hbefore, List.length_append] at hfresh ⊢
        omega
      rw [hafter, ← hcount, hbefore, List.drop_left]
  · exact absurd hstarts (hnot image claims rfl hclaims)

end Reconcile

/-! ## Removing -/

section Remove

variable {host : Host} {name : String}

theorem removeActor_lookup (host : Host) (name m : String) :
    (host.removeActor name).actorKeys.lookup m =
      if m = name then none else host.actorKeys.lookup m := by
  unfold Host.removeActor Host.readActorKey
  cases hkey : host.actorKeys.lookup name with
  | none =>
    dsimp only
    split
    · rename_i heq
      rw [heq, hkey]
    · rfl
  | some key =>
    show ((host.removeFromGroup key name).actorKeys.erase name).lookup m = _
    rw [(removeFromGroup_frame host key name).1]
    exact HashMap.lookup_erase_if ..

/-- The groups registered after a removal were registered before it. -/
theorem ActorsOk.removeActor_actors (h : ActorsOk host) {key : String} {ref : Ref}
    (hkey : (host.removeActor name).actors.lookup key = some ref) :
    host.actors.lookup key = some ref := by
  unfold Host.removeActor Host.readActorKey at hkey
  cases hname : host.actorKeys.lookup name with
  | none =>
    rw [hname] at hkey
    exact hkey
  | some own =>
    rw [hname] at hkey
    have hfewer : (host.removeFromGroup own name).actors.lookup key = some ref := hkey
    cases hreg : host.actors.lookup own with
    | none =>
      rw [removeFromGroup_unknown hreg] at hfewer
      exact hfewer
    | some found =>
      obtain ⟨g, hg⟩ := h.cells own found hreg
      rw [(removeFromGroup_spec hreg hg name).1] at hfewer
      split at hfewer
      · rw [HashMap.lookup_erase_if] at hfewer
        split at hfewer
        · cases hfewer
        · exact hfewer
      · exact hfewer

theorem removeActor_header? (host : Host) (name : String) (ref : Ref) :
    (host.removeActor name).header? ref = host.header? ref := by
  unfold Host.removeActor
  split
  · rfl
  · rename_i key _
    exact (removeFromGroup_frame host key name).2.2 ref

/-- A removal stops the recorded instances of the name and changes no other. -/
theorem ActorsOk.removeActor_resized (h : ActorsOk host) (name : String) :
    ∃ ref, Resized host (host.removeActor name) ref name (host.recordedUnder name) [] [] := by
  have hunknown {host' : Host} (hnone : ∀ ref, host.actorAt ref name = none)
      (hat : ∀ ref m, host'.actorAt ref m = host.actorAt ref m) (hloops : host'.loops = host.loops)
      (hnext : host'.nextId = host.nextId) :
      Resized host host' 0 name (host.recordedUnder name) [] [] := by
    rw [recordedUnder_of_nowhere hnone]
    refine ⟨instancesAt_of_none (hnone 0), instancesAt_of_none ((hat 0 name).trans (hnone 0)),
      fun ref m _ => hat ref m, ?_, rfl, hnext⟩
    simpa using hloops
  unfold Host.removeActor Host.readActorKey
  cases hkey : host.actorKeys.lookup name with
  | none =>
    refine ⟨0, hunknown (fun ref => ?_) (fun _ _ => rfl) rfl rfl⟩
    cases hat : host.actorAt ref name with
    | none => rfl
    | some a =>
      obtain ⟨key, hkey', -⟩ := h.member ref name a hat
      cases hkey.symm.trans hkey'
  | some key =>
    cases hreg : host.actors.lookup key with
    | none =>
      dsimp only
      rw [removeFromGroup_unknown hreg]
      refine ⟨0, hunknown (fun ref => ?_) (fun _ _ => rfl) rfl rfl⟩
      cases hat : host.actorAt ref name with
      | none => rfl
      | some a =>
        obtain ⟨key', hkey', hreg'⟩ := h.member ref name a hat
        cases hkey.symm.trans hkey'
        cases hreg.symm.trans hreg'
    | some ref =>
      obtain ⟨g, hg⟩ := h.cells key ref hreg
      obtain ⟨-, -, hr⟩ := removeFromGroup_spec hreg hg name
      rw [recordedUnder_of_registered hkey hreg]
      exact ⟨ref, hr.before, hr.after, hr.others, hr.loops, hr.ids, hr.nextId⟩

theorem Exact.remove (h : Exact host) (name : String) : Exact (host.removeActor name) := by
  obtain ⟨ref, hr⟩ := h.ok.removeActor_resized name
  refine ⟨h.ok.remove name, fun key ref hkey => ?_, h.loops.resized hr⟩
  rw [removeActor_header?]
  exact h.headers key ref (h.ok.removeActor_actors hkey)

end Remove

/-! ## Runs -/

section Runs

variable {host : Host}

/-- The table after a call that sets one name. -/
theorem actorTable_update {host host' : Host} {name : String} {entry : Option (String × Nat)}
    (hname : host'.actorTable name = entry)
    (hkeys : ∀ m, m ≠ name → host'.actorKeys.lookup m = host.actorKeys.lookup m)
    (hother : ∀ m, m ≠ name → host'.recordedUnder m = host.recordedUnder m) :
    host'.actorTable = Function.update host.actorTable name entry := by
  funext m
  by_cases hm : m = name
  · subst hm
    rw [Function.update_self]
    exact hname
  · rw [Function.update_of_ne hm, Host.actorTable, Host.actorTable, hkeys m hm, hother m hm]

/-- The abstract call refuses what the host refuses. -/
theorem actorTable_step_refused {name actorRef : String} {image : WasmActor} {replica : Nat}
    (h : ∀ claims, image.claims = some claims →
      ¬ ∀ k, host.actorKeys.lookup name = some k → k = claims.subject) :
    host.actorTable.step (.reconcile name actorRef image replica) = (host.actorTable, false) := by
  unfold ActorTable.step
  cases hclaims : image.claims with
  | none => simp only [hclaims]
  | some claims =>
    cases hkey : host.actorKeys.lookup name with
    | none => exact absurd (fun k hk => nomatch hkey.symm.trans hk) (h claims hclaims)
    | some key =>
      have hne : key ≠ claims.subject := by
        rintro rfl
        exact h claims hclaims fun k hk => Option.some.inj (hk.symm.trans hkey)
      simp only [hclaims, Host.actorTable, hkey, Option.map_some, if_neg hne]

theorem actorTable_step_admitted {name actorRef : String} {image : WasmActor} {replica : Nat}
    {claims : Jwt.Claims Jwt.Actor} (hclaims : image.claims = some claims)
    (hadmitted : ∀ k, host.actorKeys.lookup name = some k → k = claims.subject) :
    host.actorTable.step (.reconcile name actorRef image replica) =
      (Function.update host.actorTable name (some (claims.subject, replica)), true) := by
  unfold ActorTable.step
  cases hkey : host.actorKeys.lookup name with
  | none => simp only [hclaims, Host.actorTable, hkey, Option.map_none]
  | some key =>
    cases hadmitted key hkey
    simp only [hclaims, Host.actorTable, hkey, Option.map_some, if_true]

/-- One call: the invariant is kept, the map changes as the abstract call
changes it, and the instances are those that should run. -/
theorem Exact.perform (h : Exact host) (call : TableCall) :
    Exact (host.perform call).1 ∧
      ((host.perform call).1.actorTable, (host.perform call).2) = host.actorTable.step call ∧
      PerformsRight host call := by
  cases call with
  | reconcile name actorRef image replica =>
    by_cases hadmitted : ∃ claims, image.claims = some claims ∧
        ∀ k, host.actorKeys.lookup name = some k → k = claims.subject
    · obtain ⟨claims, hclaims, hadmitted⟩ := hadmitted
      obtain ⟨host', hrun, hexact, hkeys, hother, hlen, hdrop⟩ :=
        h.perform_admitted hclaims hadmitted actorRef replica
      have hkey := hkeys name
      rw [if_pos rfl] at hkey
      have htable : host'.actorTable =
          Function.update host.actorTable name (some (claims.subject, replica)) := by
        refine actorTable_update ?_ (fun m hm => ?_) hother
        · rw [Host.actorTable, hkey, hlen]
          rfl
        · rw [hkeys, if_neg hm]
      simp only [PerformsRight, hrun, if_true]
      refine ⟨hexact, ?_, hother, ⟨claims, hclaims, hkey⟩, hlen, hdrop⟩
      rw [actorTable_step_admitted hclaims hadmitted, htable]
    · have hrefused : ∀ claims, image.claims = some claims →
          ¬ ∀ k, host.actorKeys.lookup name = some k → k = claims.subject :=
        fun claims hclaims hk => hadmitted ⟨claims, hclaims, hk⟩
      simp only [PerformsRight, perform_refused hrefused]
      refine ⟨h, ?_, by simp⟩
      rw [actorTable_step_refused hrefused]
  | remove name =>
    have hexact := h.remove name
    obtain ⟨ref, hr⟩ := h.ok.removeActor_resized name
    have hkey := removeActor_lookup host name name
    rw [if_pos rfl] at hkey
    have hother : ∀ other, other ≠ name →
        (host.removeActor name).recordedUnder other = host.recordedUnder other :=
      fun other hne => hr.recordedUnder_ne h.ok hexact.ok hne
    have htable : (host.removeActor name).actorTable = Function.update host.actorTable name none := by
      refine actorTable_update ?_ (fun m hm => ?_) hother
      · rw [Host.actorTable, hkey]
        rfl
      · rw [removeActor_lookup, if_neg hm]
    refine ⟨hexact, ?_, hother, hkey, recordedUnder_of_unknown hkey, fun i hi hrun => ?_,
      fun key g hg => ?_⟩
    · show ((host.removeActor name).actorTable, true) = _
      rw [htable]
      rfl
    · have hloop : i.id ∈ (host.removeActor name).loops := hrun
      rw [hr.loops, Finset.mem_union, Finset.mem_sdiff, List.mem_toFinset, List.mem_toFinset]
        at hloop
      rcases hloop with ⟨-, hnot⟩ | hnew
      · exact hnot (List.mem_map_of_mem hi)
      · cases hnew
    · cases hin : g.actors.lookup name with
      | none => rfl
      | some a =>
        have hrecorded := hexact.groupsRight.keyed key g name a hg hin
        cases hkey.symm.trans hrecorded

/-- What a call returns, told apart by its claims and keys alone. -/
theorem Exact.perform_result (h : Exact host) (call : TableCall) :
    (host.perform call).2 = (host.actorTable.step call).2 := by
  have hstep := (h.perform call).2.1
  rw [← hstep]

theorem exact_of_run {latticePrefix : String} {calls : List TableCall}
    (h : (actorMachine latticePrefix).Run calls host) : Exact host := by
  refine h.invariant (I := Exact) (exact_new latticePrefix) fun s call s' hs _ hstep => ?_
  cases hstep
  exact (hs.perform call).1

/-- The actor tables refine a map from a name to a public key and a count.
After every run of calls the map is the one the abstract calls make, every
registered name is in the group of its key, the running call loops are the
recorded instances; and every further call returns what the abstract one does,
leaves other names alone, and records what it should. -/
theorem actorTables_refine (latticePrefix : String) {calls : List TableCall}
    (h : (actorMachine latticePrefix).Run calls host) :
    host.actorTable = .after calls ∧ GroupsRight host ∧
      ∀ call, (host.perform call).2 = (host.actorTable.step call).2 ∧
        PerformsRight host call := by
  have hexact := exact_of_run h
  refine ⟨?_, hexact.groupsRight, fun call =>
    ⟨hexact.perform_result call, (hexact.perform call).2.2⟩⟩
  refine h.induction (I := fun calls s => s.actorTable = ActorTable.after calls) rfl
    fun calls s call s' hrun ih _ hstep => ?_
  cases hstep
  have htable := congrArg Prod.fst ((exact_of_run hrun).perform call).2.1
  rw [ActorTable.after, List.foldl_append, ← ActorTable.after, List.foldl_cons, List.foldl_nil, ← ih]
  exact htable

end Runs

def imageWorker : WasmActor where
  module := "worker"
  claims := some ⟨"ISSUER", "MWORKER", 0, none, none, none⟩

/-- Two names share a group; one is scaled down, the other removed. -/
def scalingCalls : List TableCall :=
  [.reconcile "one" "worker:v1" imageWorker 3, .reconcile "two" "worker:v1" imageWorker 1,
    .reconcile "one" "worker:v1" imageWorker 2, .remove "two"]

theorem scalingCalls_refine : ∃ host, (actorMachine "default").Run scalingCalls host ∧
    host.actorTable "one" = some ("MWORKER", 2) ∧ host.actorTable "two" = none ∧
    GroupsRight host := by
  have hrun : (actorMachine "default").Run scalingCalls
      (scalingCalls.foldl (fun host call => (host.perform call).1) (.new "default")) :=
    Machine.run_of_exec rfl
  obtain ⟨htable, hgroups, -⟩ := actorTables_refine "default" hrun
  exact ⟨_, hrun, by rw [htable]; rfl, by rw [htable]; rfl, hgroups⟩

end KasmCloud
