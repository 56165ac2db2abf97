/-
KasmCloud.Controller.Replicas — the number of replicas from an Actor object to
the host (`src/main.rs`).

The host reads an `i32` and passes it on `as usize`, which extends the sign.
The number that `Host::reconcile_actor` is asked for is the one in the object
exactly where the ranges of the three declarations agree, or where the number
gets past none of them (`replicas_reach_host_iff`).
-/
import KasmCloud.Apis.Admission
import KasmCloud.Controller.Fixpoint

namespace KasmCloud

open Lib V1alpha1

/-- The number `reconcile_actor` asks `Host::reconcile_actor` for. -/
def requestedReplicas (actor : V1alpha1.Actor) : Nat := asUsize actor.spec.replicas

theorem reconcileActor_requests (host : Host) (actor : V1alpha1.Actor)
    (fetched : Except String WasmActor) (failAt : Option Nat) :
    (reconcileActor host actor fetched failAt).host =
      (host.reconcileActor actor.name actor.spec.image fetched (requestedReplicas actor)
        failAt).1 :=
  reconcileActor_host host actor fetched failAt

/-- The cast keeps the value of a number that is not negative, and of no
other. -/
theorem asUsize_eq_iff (n : Int32) : (asUsize n : Int) = n.toInt ↔ 0 ≤ n.toInt := by
  constructor
  · intro h
    rw [← h]
    exact Int.natCast_nonneg _
  · exact asUsize_of_nonneg

/-- An object with `r` replicas that is admitted is read by the host, which
asks for `r`; and whatever it reads, it asks for no other number. -/
structure ReachesHost (metav1 : MetaV1) (doc : Json) (r : Int) : Prop where
  admitted : Admitted doc →
    ∃ actor, readActor metav1 doc = some actor ∧ (requestedReplicas actor : Int) = r
  read : ∀ actor, readActor metav1 doc = some actor → (requestedReplicas actor : Int) = r

section Documents

variable {metav1 : MetaV1} {doc : Json} {r : Int}

theorem V1alpha1.ActorDocument.requested_iff (h : ActorDocument metav1 doc r) {actor : V1alpha1.Actor}
    (hread : readActor metav1 doc = some actor) :
    (requestedReplicas actor : Int) = r ↔ 0 ≤ r := by
  have hvalue := h.replicas_of_readActor hread
  rw [← hvalue]
  exact asUsize_eq_iff actor.spec.replicas

/-- Up to 2^31 - 1 the three declarations agree; below -2^31 and from 2^64 on
the object is neither admitted nor read. -/
theorem replicas_reach_host_iff (h : ActorDocument metav1 doc r) :
    ReachesHost metav1 doc r ↔ r < -2 ^ 31 ∨ (0 ≤ r ∧ r < 2 ^ 31) ∨ 2 ^ 64 ≤ r := by
  constructor
  · rintro ⟨hadmitted, hread⟩
    by_contra hrange
    have hcases : (-2 ^ 31 ≤ r ∧ r < 0) ∨ (2 ^ 31 ≤ r ∧ r < 2 ^ 64) := by omega
    rcases hcases with ⟨hlow, hneg⟩ | ⟨hhigh, hlt⟩
    · -- read by a host, and its sign extended
      obtain ⟨actor, hactor⟩ := Option.isSome_iff_exists.mp
        (h.readActor_isSome_iff.mpr ⟨hlow, by omega⟩)
      have hnonneg := (h.requested_iff hactor).mp (hread actor hactor)
      omega
    · -- let in as a `uint`, and no `i32`
      obtain ⟨actor, hactor, -⟩ := hadmitted (h.admitted_iff.mpr ⟨by omega, hlt⟩)
      have hint := h.readActor_isSome_iff.mp (Option.isSome_of_eq_some hactor)
      omega
  · intro hrange
    have hread (actor : V1alpha1.Actor) (hactor : readActor metav1 doc = some actor) :
        (requestedReplicas actor : Int) = r := by
      have hint := h.readActor_isSome_iff.mp (Option.isSome_of_eq_some hactor)
      exact (h.requested_iff hactor).mpr (by omega)
    refine ⟨fun hadmitted => ?_, hread⟩
    have huint := h.admitted_iff.mp hadmitted
    obtain ⟨actor, hactor⟩ := Option.isSome_iff_exists.mp
      (h.readActor_isSome_iff.mpr ⟨by omega, by omega⟩)
    exact ⟨actor, hactor, hread actor hactor⟩

/-- Where a number reaches the host, a successful run leaves as many
instances. -/
theorem V1alpha1.ActorDocument.instances (h : ActorDocument metav1 doc r) (hnonneg : 0 ≤ r)
    {actor : V1alpha1.Actor} (hread : readActor metav1 doc = some actor) {host : Host}
    (hok : ActorsOk host) {fetched : Except String WasmActor} {failAt : Option Nat}
    {claims : Jwt.Claims Jwt.Actor}
    (hcall : (host.reconcileActor actor.name actor.spec.image fetched (requestedReplicas actor)
      failAt).2 = .ok claims) :
    (((reconcileActor host actor fetched failAt).host.recordedUnder actor.name).length : Int) =
      r := by
  rw [reconcileActor_requests, ← (h.requested_iff hread).mpr hnonneg]
  obtain ⟨host', -, ⟨-, claims', -, -, -, hrun, hfilled⟩ | ⟨-, ⟨e, hrun⟩, -⟩⟩ :=
    reconcileActor_spec hok actor.name actor.spec.image fetched (requestedReplicas actor) failAt
  · rw [hrun, hfilled.length]
  · rw [hrun] at hcall
    cases hcall

end Documents

/-! ## An Actor and its number of replicas -/

/-- "echo" with `r` replicas. -/
def echoOf (r : Int) : Json := .obj
  [("metadata", .obj [("name", .str "echo")]),
    ("spec", .obj [("host", .str "host"), ("image", .str "echo:v1"), ("replicas", .num r)])]

theorem echoOf_document (r : Int) : ActorDocument epochTimes (echoOf r) r where
  typeMeta := by
    intro name hname value hvalue
    rcases List.mem_pair.mp hname with rfl | rfl <;> cases hvalue
  metadata := ⟨_, "echo", rfl, rfl⟩
  spec := ⟨_, rfl, ⟨"host", by decide, rfl⟩, ⟨"echo:v1", by decide, rfl⟩, rfl⟩
  status := ⟨none, rfl⟩

theorem echoOf_three_reaches : ReachesHost epochTimes (echoOf 3) 3 :=
  (replicas_reach_host_iff (echoOf_document 3)).mpr (.inr (.inl ⟨by decide, by decide⟩))

/-- One more than an `i32` holds is admitted and cannot be read; -1 is read,
and the host is asked for 2^64 - 1. -/
theorem echoOf_not_reaches :
    (Admitted (echoOf 2147483648) ∧ readActor epochTimes (echoOf 2147483648) = none ∧
        ¬ ReachesHost epochTimes (echoOf 2147483648) 2147483648) ∧
      ∃ actor, readActor epochTimes (echoOf (-1)) = some actor ∧
        requestedReplicas actor = 18446744073709551615 ∧
        ¬ ReachesHost epochTimes (echoOf (-1)) (-1) := by
  have hadmitted : Admitted (echoOf 2147483648) :=
    (echoOf_document 2147483648).admitted_iff.mpr ⟨by decide, by decide⟩
  refine ⟨⟨hadmitted, rfl, fun h => ?_⟩, _, rfl, rfl, fun h => ?_⟩
  · obtain ⟨actor, hactor, -⟩ := h.admitted hadmitted
    cases hactor
  · exact absurd (h.read _ rfl) (by decide)

end KasmCloud
