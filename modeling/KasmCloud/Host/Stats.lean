/-
KasmCloud.Host.Stats — the numbers that a host reports of itself
(`Host::stats` in `crates/host/src/lib.rs`).

`stats` adds up the instance lists of the registered groups. Where groups are
registered under one key each, these are the recorded instances of all names,
each counted once (`stats_eq_sum`), so no more than the call loops that run,
and as many where no loop was left behind (`stats_le_loops`,
`stats_eq_loops_iff`).
-/
import KasmCloud.Host.ActorTable
import KasmCloud.Host.Frames
import Mathlib.Algebra.BigOperators.Group.Finset.Basic
import Mathlib.Algebra.Order.BigOperators.Group.Finset

namespace KasmCloud

open Lib

/-! ## Groups have one key each -/

def RefsApart (host : Host) : Prop :=
  ∀ key key' ref, host.actors.lookup key = some ref → host.actors.lookup key' = some ref →
    key = key'

section RefsApart

variable {host host' : Host}

theorem refsApart_new (latticePrefix : String) : RefsApart (.new latticePrefix) := by
  intro key key' ref hkey
  cases hkey

theorem RefsApart.same (h : RefsApart host) (hsame : SameActors host host') : RefsApart host' := by
  intro key key' ref hkey hkey'
  rw [hsame.actors] at hkey hkey'
  exact h key key' ref hkey hkey'

/-- A group that is made is new. -/
theorem RefsApart.lookup (h : RefsApart host) (hok : ActorsOk host) (key : String) :
    RefsApart (host.lookupGroup key).2 := by
  cases hreg : host.actors.lookup key with
  | some found =>
    rw [lookupGroup_found hreg]
    exact h
  | none =>
    have hactors := (lookupGroup_made hreg).2.1
    have hold : ∀ k, host.actors.lookup k ≠ some host.groups.next := by
      intro k hk
      obtain ⟨g, hg⟩ := hok.cells k _ hk
      simp at hg
    intro k k' ref hk hk'
    rw [hactors, HashMap.lookup_insert_if] at hk hk'
    split at hk <;> split at hk'
    · rename_i heq heq'
      rw [heq, heq']
    · cases hk
      exact absurd hk' (hold k')
    · cases hk'
      exact absurd hk (hold k)
    · exact h k k' ref hk hk'

theorem RefsApart.reconcile (h : RefsApart host) (hok : ActorsOk host) (name actorRef : String)
    (fetched : Except String WasmActor) (replica : Nat) (failAt : Option Nat) :
    RefsApart (host.reconcileActor name actorRef fetched replica failAt).1 := by
  rcases reconcileActor_cases host name actorRef fetched replica failAt with
    ⟨-, e, hrun⟩ | ⟨image, claims, -, hclaims, hadmitted, hrun⟩
  · rw [hrun]
    exact h
  · obtain ⟨hregok, -, hregactors, -⟩ := hok.register hadmitted
    have hreg : RefsApart (host.registerActorKey name claims.subject) := by
      intro key key' ref hkey hkey'
      rw [hregactors] at hkey hkey'
      exact h key key' ref hkey hkey'
    have hlook := hreg.lookup hregok claims.subject
    have hactors := (@fillGroup_frame
      ((host.registerActorKey name claims.subject).lookupGroup claims.subject).2 image claims
      hclaims ((host.registerActorKey name claims.subject).lookupGroup claims.subject).1 name
      actorRef replica failAt).2.1
    rw [hrun]
    intro key key' ref hkey hkey'
    exact hlook key key' ref (hactors ▸ hkey) (hactors ▸ hkey')

theorem RefsApart.remove (h : RefsApart host) (hok : ActorsOk host) (name : String) :
    RefsApart (host.removeActor name) :=
  fun key key' ref hkey hkey' =>
    h key key' ref (hok.removeActor_actors hkey) (hok.removeActor_actors hkey')

end RefsApart

/-! ## What is counted -/

/-- The ids of the instances in a group. -/
def Host.groupIds (host : Host) (ref : Ref) : List Ulid :=
  match host.groups.get? ref with
  | some group => group.actors.entries.flatMap fun entry => entry.2.instances.map ActorInstance.id
  | none => []

/-- The ids that `stats` counts, in its order. -/
def Host.countedIds (host : Host) : List Ulid :=
  host.actors.entries.flatMap fun reg => host.groupIds reg.2

section Counted

variable {host : Host}

theorem length_countedIds (host : Host) :
    host.countedIds.length = host.stats.actorInstanceCount := by
  simp only [Host.countedIds, Host.stats, HashMap.values, List.length_flatMap, List.map_map]
  congr 1
  refine List.map_congr_left fun reg _ => ?_
  simp only [Function.comp_apply, Host.groupIds]
  cases host.groups.get? reg.2 with
  | none => rfl
  | some group => simp [List.length_flatMap, Function.comp_def]

/-- What one group adds. -/
theorem mem_groupIds {ref : Ref} {id : Nat} :
    id ∈ host.groupIds ref ↔ ∃ name, id ∈ host.idsAt ref name := by
  cases hg : host.groups.get? ref with
  | none => simp [Host.groupIds, Host.idsAt, Host.instancesAt, Host.actorAt, hg]
  | some group =>
    simp only [Host.groupIds, Host.idsAt, hg, List.mem_flatMap]
    constructor
    · rintro ⟨⟨name, a⟩, hentry, hid⟩
      have ha : group.actors.lookup name = some a := AList.mem_lookup_iff.mpr hentry
      rw [← actorAt_of_group hg] at ha
      exact ⟨name, by rw [instancesAt_of_some ha]; exact hid⟩
    · rintro ⟨name, hid⟩
      cases hat : host.actorAt ref name with
      | none =>
        rw [instancesAt_of_none hat] at hid
        cases hid
      | some a =>
        rw [instancesAt_of_some hat] at hid
        rw [actorAt_of_group hg] at hat
        exact ⟨⟨name, a⟩, AList.mem_lookup_iff.mp hat, hid⟩

/-- The recorded ids are counted, and no other. -/
theorem ActorsOk.mem_countedIds (h : ActorsOk host) {id : Nat} :
    id ∈ host.countedIds ↔ ∃ name, id ∈ (host.recordedUnder name).map ActorInstance.id := by
  simp only [Host.countedIds, List.mem_flatMap]
  constructor
  · rintro ⟨reg, -, hid⟩
    obtain ⟨name, hid⟩ := mem_groupIds.mp hid
    exact ⟨name, h.recorded_of_mem_idsAt hid⟩
  · rintro ⟨name, hid⟩
    obtain ⟨ref, hid⟩ := mem_idsAt_of_recorded hid
    cases hat : host.actorAt ref name with
    | none =>
      rw [Host.idsAt, instancesAt_of_none hat] at hid
      cases hid
    | some a =>
      obtain ⟨key, -, hreg⟩ := h.member ref name a hat
      exact ⟨⟨key, ref⟩, AList.mem_lookup_iff.mp hreg, mem_groupIds.mpr ⟨name, hid⟩⟩

/-- Where groups have one key each, no id is counted twice. -/
theorem ActorsOk.nodup_countedIds (h : ActorsOk host) (hrefs : RefsApart host) :
    host.countedIds.Nodup := by
  refine HashMap.nodup_flatMap (m := host.actors) (f := fun _ ref => host.groupIds ref)
    (fun key ref _ => ?_) fun key key' ref ref' id hkey hkey' hid hid' => ?_
  · unfold Host.groupIds
    cases hg : host.groups.get? ref with
    | none => exact List.nodup_nil
    | some group =>
      have hids {name : String} {a : Actor} (ha : group.actors.lookup name = some a) :
          host.idsAt ref name = a.instances.map ActorInstance.id := by
        rw [← actorAt_of_group hg] at ha
        rw [Host.idsAt, instancesAt_of_some ha]
      refine HashMap.nodup_flatMap (m := group.actors)
        (f := fun _ a => a.instances.map ActorInstance.id) (fun name a ha => ?_)
        fun name name' a a' id ha ha' hid hid' => ?_
      · rw [← hids ha]
        exact h.apart.nodup ref name
      · rw [← hids ha] at hid
        rw [← hids ha'] at hid'
        exact (h.apart.apart ref name ref name' id hid hid').2
  · obtain ⟨name, hid⟩ := mem_groupIds.mp hid
    obtain ⟨name', hid'⟩ := mem_groupIds.mp hid'
    obtain ⟨rfl, -⟩ := h.apart.apart ref name ref' name' id hid hid'
    exact hrefs key key' ref hkey hkey'

/-! ## The count -/

/-- The instance lists of all names that have one, added up. -/
theorem ActorsOk.stats_eq_sum (h : ActorsOk host) (hrefs : RefsApart host) {names : Finset String}
    (hall : ∀ name, host.recordedUnder name ≠ [] → name ∈ names) :
    host.stats.actorInstanceCount = ∑ name ∈ names, (host.recordedUnder name).length := by
  have hnodup (name : String) : ((host.recordedUnder name).map ActorInstance.id).Nodup := by
    unfold Host.recordedUnder
    split
    · exact List.nodup_nil
    · split
      · exact List.nodup_nil
      · exact h.apart.nodup _ name
  have hset : host.countedIds.toFinset =
      names.biUnion fun name => ((host.recordedUnder name).map ActorInstance.id).toFinset := by
    ext id
    rw [List.mem_toFinset, h.mem_countedIds, Finset.mem_biUnion]
    constructor
    · rintro ⟨name, hid⟩
      refine ⟨name, hall name ?_, List.mem_toFinset.mpr hid⟩
      intro hnil
      rw [hnil] at hid
      cases hid
    · rintro ⟨name, -, hid⟩
      exact ⟨name, List.mem_toFinset.mp hid⟩
  have hapart : ∀ name ∈ names, ∀ name' ∈ names, name ≠ name' →
      Disjoint ((host.recordedUnder name).map ActorInstance.id).toFinset
        ((host.recordedUnder name').map ActorInstance.id).toFinset := by
    intro name _ name' _ hne
    refine Finset.disjoint_left.mpr fun id hid hid' => hne ?_
    obtain ⟨ref, hid⟩ := mem_idsAt_of_recorded (List.mem_toFinset.mp hid)
    obtain ⟨ref', hid'⟩ := mem_idsAt_of_recorded (List.mem_toFinset.mp hid')
    exact (h.apart.apart ref name ref' name' id hid hid').2
  calc host.stats.actorInstanceCount
      = host.countedIds.toFinset.card := by
        rw [← length_countedIds, List.toFinset_card_of_nodup (h.nodup_countedIds hrefs)]
    _ = ∑ name ∈ names, ((host.recordedUnder name).map ActorInstance.id).toFinset.card := by
        rw [hset, Finset.card_biUnion hapart]
    _ = ∑ name ∈ names, (host.recordedUnder name).length := by
        refine Finset.sum_congr rfl fun name _ => ?_
        rw [List.toFinset_card_of_nodup (hnodup name), List.length_map]

/-- The counted instances have their call loops. -/
theorem ActorsOk.countedIds_subset (h : ActorsOk host) : host.countedIds.toFinset ⊆ host.loops := by
  intro id hid
  obtain ⟨name, hid⟩ := h.mem_countedIds.mp (List.mem_toFinset.mp hid)
  obtain ⟨ref, hid⟩ := mem_idsAt_of_recorded hid
  exact h.alive ref name id hid

theorem ActorsOk.stats_le_loops (h : ActorsOk host) (hrefs : RefsApart host) :
    host.stats.actorInstanceCount ≤ host.loops.card := by
  rw [← length_countedIds, ← List.toFinset_card_of_nodup (h.nodup_countedIds hrefs)]
  exact Finset.card_le_card h.countedIds_subset

/-- The count is that of the running call loops just when each of them is that
of a recorded instance. -/
theorem ActorsOk.stats_eq_loops_iff (h : ActorsOk host) (hrefs : RefsApart host) :
    host.stats.actorInstanceCount = host.loops.card ↔
      ∀ id ∈ host.loops, ∃ name, id ∈ (host.recordedUnder name).map ActorInstance.id := by
  rw [← length_countedIds, ← List.toFinset_card_of_nodup (h.nodup_countedIds hrefs)]
  constructor
  · intro hcard id hid
    rw [← Finset.eq_of_subset_of_card_le h.countedIds_subset hcard.ge] at hid
    exact h.mem_countedIds.mp (List.mem_toFinset.mp hid)
  · intro hall
    have hsub : host.loops ⊆ host.countedIds.toFinset := fun id hid =>
      List.mem_toFinset.mpr (h.mem_countedIds.mpr (hall id hid))
    rw [Finset.Subset.antisymm h.countedIds_subset hsub]

end Counted

end KasmCloud
