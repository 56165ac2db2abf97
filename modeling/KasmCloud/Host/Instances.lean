/-
KasmCloud.Host.Instances — the ids of the instances in the groups.

`IdsApart` says that no id occurs twice and that all of them are used up;
`LoopsAlive` says that the call loop of every instance runs, `LoopsExact` that
no other one does. Changing the instances of one actor as `Resized` describes
keeps all three.
-/
import KasmCloud.Host.ActorsTheorems

namespace KasmCloud

open Lib

/-- The ids of the instances of a name in a group. -/
def Host.idsAt (host : Host) (ref : Ref) (name : String) : List Nat :=
  (host.instancesAt ref name).map ActorInstance.id

theorem idsAt_congr {host host' : Host} {ref : Ref} {name : String}
    (h : host'.actorAt ref name = host.actorAt ref name) :
    host'.idsAt ref name = host.idsAt ref name := by
  simp [Host.idsAt, Host.instancesAt, h]

/-- No id occurs twice, and none will be used again. -/
structure IdsApart (host : Host) : Prop where
  nodup : ∀ ref name, (host.idsAt ref name).Nodup
  apart : ∀ ref name ref' name' (id : Nat), id ∈ host.idsAt ref name → id ∈ host.idsAt ref' name' →
    ref = ref' ∧ name = name'
  bound : ∀ ref name (id : Nat), id ∈ host.idsAt ref name → id < host.nextId

/-- The call loop of every instance runs. -/
def LoopsAlive (host : Host) : Prop :=
  ∀ ref name (id : Nat), id ∈ host.idsAt ref name → id ∈ host.loops

theorem idsApart_new (latticePrefix : String) : IdsApart (.new latticePrefix) := by
  refine ⟨?_, ?_, ?_⟩
  · intro ref name
    exact List.nodup_nil
  · intro ref name ref' name' id hid
    cases hid
  · intro ref name id hid
    cases hid

/-! ## Nothing about the instances changes -/

section Congr

variable {host host' : Host} (hat : ∀ ref name, host'.actorAt ref name = host.actorAt ref name)

include hat

theorem IdsApart.congr (h : IdsApart host) (hnext : host.nextId ≤ host'.nextId) :
    IdsApart host' := by
  have hids : ∀ ref name, host'.idsAt ref name = host.idsAt ref name :=
    fun ref name => idsAt_congr (hat ref name)
  refine ⟨?_, ?_, ?_⟩
  · intro ref name
    rw [hids]
    exact h.nodup ref name
  · intro ref name ref' name' id
    rw [hids, hids]
    exact h.apart ref name ref' name' id
  · intro ref name id hid
    rw [hids] at hid
    exact lt_of_lt_of_le (h.bound ref name id hid) hnext

theorem LoopsAlive.congr (h : LoopsAlive host) (hloops : host.loops ⊆ host'.loops) :
    LoopsAlive host' := by
  intro ref name id hid
  rw [idsAt_congr (hat ref name)] at hid
  exact hloops (h ref name id hid)

end Congr

/-! ## The instances of one actor change -/

section Resized

variable {host host' : Host} {group : Ref} {name : String}
  {dropped kept fresh : List ActorInstance}

theorem Resized.idsAt_before (hr : Resized host host' group name dropped kept fresh) :
    host.idsAt group name = dropped.map ActorInstance.id ++ kept.map ActorInstance.id := by
  simp [Host.idsAt, hr.before]

theorem Resized.idsAt_after (hr : Resized host host' group name dropped kept fresh) :
    host'.idsAt group name = kept.map ActorInstance.id ++ fresh.map ActorInstance.id := by
  simp [Host.idsAt, hr.after]

theorem Resized.idsAt_ne (hr : Resized host host' group name dropped kept fresh) {ref : Ref}
    {m : String} (hne : ¬ (ref = group ∧ m = name)) : host'.idsAt ref m = host.idsAt ref m :=
  idsAt_congr (hr.others ref m hne)

/-- An id at a place was there before and is not dropped, or is new. -/
theorem Resized.mem_idsAt (hr : Resized host host' group name dropped kept fresh)
    (h : IdsApart host) {ref : Ref} {m : String} {id : Nat} (hid : id ∈ host'.idsAt ref m) :
    id ∈ host.idsAt ref m ∧ id ∉ dropped.map ActorInstance.id ∨
      (ref = group ∧ m = name) ∧ id ∈ fresh.map ActorInstance.id := by
  have hnodup := h.nodup group name
  rw [hr.idsAt_before, List.nodup_append] at hnodup
  obtain ⟨-, -, hdisjoint⟩ := hnodup
  by_cases hplace : ref = group ∧ m = name
  · obtain ⟨rfl, rfl⟩ := hplace
    rw [hr.idsAt_after] at hid
    rcases List.mem_append.mp hid with hid | hid
    · refine .inl ⟨?_, fun hd => hdisjoint id hd id hid rfl⟩
      rw [hr.idsAt_before]
      exact List.mem_append_right _ hid
    · exact .inr ⟨⟨rfl, rfl⟩, hid⟩
  · rw [hr.idsAt_ne hplace] at hid
    refine .inl ⟨hid, fun hd => hplace ?_⟩
    exact h.apart ref m group name id hid (by
      rw [hr.idsAt_before]
      exact List.mem_append_left _ hd)

theorem Resized.mem_fresh (hr : Resized host host' group name dropped kept fresh) {id : Nat}
    (hid : id ∈ fresh.map ActorInstance.id) : host.nextId ≤ id ∧ id < host'.nextId := by
  rw [hr.ids] at hid
  have hbounds := List.mem_range'_1.mp hid
  rw [hr.nextId]
  exact hbounds

theorem IdsApart.resized (h : IdsApart host)
    (hr : Resized host host' group name dropped kept fresh) : IdsApart host' := by
  have hgrows : host.nextId ≤ host'.nextId := by
    rw [hr.nextId]
    exact Nat.le_add_right _ _
  refine ⟨?_, ?_, ?_⟩
  · intro ref m
    by_cases hplace : ref = group ∧ m = name
    · obtain ⟨rfl, rfl⟩ := hplace
      have hnodup := h.nodup ref m
      rw [hr.idsAt_before, List.nodup_append] at hnodup
      rw [hr.idsAt_after, List.nodup_append, hr.ids]
      refine ⟨hnodup.2.1, List.nodup_range', fun id hid id' hid' heq => ?_⟩
      have hlt := h.bound ref m id (by rw [hr.idsAt_before]; exact List.mem_append_right _ hid)
      have hge := (List.mem_range'_1.mp hid').1
      omega
    · rw [hr.idsAt_ne hplace]
      exact h.nodup ref m
  · intro ref m ref' m' id hid hid'
    rcases hr.mem_idsAt h hid with ⟨h1, -⟩ | ⟨hp, h1⟩ <;>
      rcases hr.mem_idsAt h hid' with ⟨h2, -⟩ | ⟨hp', h2⟩
    · exact h.apart ref m ref' m' id h1 h2
    · have hlt := h.bound ref m id h1
      have hge := (hr.mem_fresh h2).1
      omega
    · have hlt := h.bound ref' m' id h2
      have hge := (hr.mem_fresh h1).1
      omega
    · exact ⟨hp.1.trans hp'.1.symm, hp.2.trans hp'.2.symm⟩
  · intro ref m id hid
    rcases hr.mem_idsAt h hid with ⟨hold, -⟩ | ⟨-, hnew⟩
    · exact lt_of_lt_of_le (h.bound ref m id hold) hgrows
    · exact (hr.mem_fresh hnew).2

theorem LoopsAlive.resized (h : LoopsAlive host) (hapart : IdsApart host)
    (hr : Resized host host' group name dropped kept fresh) : LoopsAlive host' := by
  intro ref m id hid
  rw [hr.loops, Finset.mem_union, Finset.mem_sdiff, List.mem_toFinset, List.mem_toFinset]
  rcases hr.mem_idsAt hapart hid with ⟨hold, hnot⟩ | ⟨-, hnew⟩
  · exact .inl ⟨h ref m id hold, hnot⟩
  · exact .inr hnew

end Resized

/-! ## No other loops run -/

/-- The loops running are those of the instances in the groups; no id occurs
twice. -/
structure LoopsExact (host : Host) : Prop extends IdsApart host where
  mem_iff : ∀ id : Nat, id ∈ host.loops ↔ ∃ ref name, id ∈ host.idsAt ref name

theorem LoopsExact.congr {host host' : Host} (h : LoopsExact host)
    (hat : ∀ ref name, host'.actorAt ref name = host.actorAt ref name)
    (hloops : host'.loops = host.loops) (hnext : host'.nextId = host.nextId) :
    LoopsExact host' where
  toIdsApart := h.toIdsApart.congr hat hnext.ge
  mem_iff id := by
    have hids : ∀ ref name, host'.idsAt ref name = host.idsAt ref name :=
      fun ref name => idsAt_congr (hat ref name)
    simp only [hloops, hids]
    exact h.mem_iff id

/-- Changing one actor's instances, with the loops that go with them, keeps
the loops exact. -/
theorem LoopsExact.resized {host host' : Host} {group : Ref} {name : String}
    {dropped kept fresh : List ActorInstance} (h : LoopsExact host)
    (hr : Resized host host' group name dropped kept fresh) : LoopsExact host' where
  toIdsApart := h.toIdsApart.resized hr
  mem_iff id := by
    rw [hr.loops, Finset.mem_union, Finset.mem_sdiff, List.mem_toFinset, List.mem_toFinset,
      h.mem_iff]
    constructor
    · rintro (⟨⟨ref, m, hid⟩, hnot⟩ | hid)
      · refine ⟨ref, m, ?_⟩
        by_cases hplace : ref = group ∧ m = name
        · obtain ⟨rfl, rfl⟩ := hplace
          rw [hr.idsAt_before] at hid
          rw [hr.idsAt_after]
          exact List.mem_append_left _ ((List.mem_append.mp hid).resolve_left hnot)
        · rw [hr.idsAt_ne hplace]
          exact hid
      · refine ⟨group, name, ?_⟩
        rw [hr.idsAt_after]
        exact List.mem_append_right _ hid
    · rintro ⟨ref, m, hid⟩
      rcases hr.mem_idsAt h.toIdsApart hid with ⟨hold, hnot⟩ | ⟨-, hfresh⟩
      · exact .inl ⟨⟨ref, m, hold⟩, hnot⟩
      · exact .inr hfresh

end KasmCloud
