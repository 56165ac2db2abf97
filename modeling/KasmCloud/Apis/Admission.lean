/-
KasmCloud.Apis.Admission — an Actor object on its way into the API server, and
out of it to a host.

One field, `spec.replicas`, is declared three times: as an `integer` in the
schema of `deploy/crds`, as a `uint` in `api/v1alpha1` and as an `i32` in
`crates/apis`. An `ActorDocument` is an object in which nothing else stands in
the way of any of the three, and

* `admitted_iff` — the schema and the webhook let it in from 0 to 2^64 - 1;
* `readActor_isSome_iff` — a host can read it from -2^31 to 2^31 - 1.
-/
import KasmCloud.Apis.Documents
import KasmCloud.Apis.Labels
import KasmCloud.Lib.Schema

namespace KasmCloud

open Lib

namespace V1alpha1

/-! ## The schema -/

/-- `openAPIV3Schema` of Actors. The status is not here: what is written to an
Actor leaves it to its subresource. -/
def actorSchema : Schema :=
  .object
    [("apiVersion", .string 0), ("kind", .string 0), ("metadata", .object [] []),
      ("spec", .object [("host", .string 1), ("image", .string 1), ("replicas", .integer)]
        ["host", "image", "replicas"])]
    []

/-! ## The webhook -/

/-- A `uint` of Go, which has 64 bits; a number out of its range is refused. -/
def uint : Serde UInt64 where
  write n := .num n.toNat
  read
    | .num n => if 0 ≤ n ∧ n < 2 ^ 64 then some (.ofNat n.toNat) else none
    | _ => none

/-- A field of a Go struct: absent or null, it keeps its zero value. -/
def structField {α : Type} (c : Serde α) (zero : α) (doc : Json) (name : String) : Option α :=
  (c.optional doc name).map (·.getD zero)

/-- `ActorSpec` as the webhook server decodes it. -/
def readWebhookSpec : Json → Option Webhook.ActorSpec
  | .obj members => do
    let host ← structField Serde.string "" (.obj members) "host"
    let image ← structField Serde.string "" (.obj members) "image"
    let replicas ← structField uint 0 (.obj members) "replicas"
    return { host, image, replicas }
  | _ => none

/-- The spec of an Actor as the webhook server decodes it. -/
def decodeWebhookSpec (doc : Json) : Option Webhook.ActorSpec :=
  match doc.field? "spec" with
  | none | some .null => some ⟨"", "", 0⟩
  | some spec => readWebhookSpec spec

/-- The schema accepts the object, and the webhooks, which are called with
`failurePolicy: Fail`, can decode its spec. What the API server itself makes of
the `scale` subresource, which has `.spec.replicas` for its path and bounds the
number as well, is left out. -/
def Admitted (doc : Json) : Prop :=
  actorSchema.accepts doc = true ∧ (decodeWebhookSpec doc).isSome = true

/-! ## Actor objects -/

/-- The members of a spec with `r` replicas, where the strings are set. -/
structure ActorSpecMembers (members : List (String × Json)) (r : Int) : Prop where
  host : ∃ host : String, 1 ≤ host.length ∧ members.lookup "host" = some (.str host)
  image : ∃ image : String, 1 ≤ image.length ∧ members.lookup "image" = some (.str image)
  replicas : members.lookup "replicas" = some (.num r)

/-- An Actor object with `r` replicas: whether it is admitted and whether a
host can read it depends on `r` alone. -/
structure ActorDocument (metav1 : MetaV1) (doc : Json) (r : Int) : Prop where
  typeMeta : ∀ name ∈ ["apiVersion", "kind"], ∀ value, doc.field? name = some value →
    ∃ s, value = .str s
  metadata : ∃ members name, doc.field? "metadata" = some (.obj members) ∧
    members.lookup "name" = some (.str name)
  spec : ∃ members, doc.field? "spec" = some (.obj members) ∧ ActorSpecMembers members r
  status : ∃ status, (actorStatusSerde metav1).optional doc "status" = some status

/-! ### Admission -/

theorem uint_read_isSome_iff (r : Int) :
    (uint.read (.num r)).isSome = true ↔ 0 ≤ r ∧ r < 2 ^ 64 := by
  simp [uint, Option.isSome_iff_exists]

/-- A field that is there is read by the reader of its type. -/
theorem structField_eq {α : Type} (c : Serde α) (zero : α) {members : List (String × Json)}
    {name : String} {value : Json} (h : members.lookup name = some value)
    (hnull : value.isNull = false) : structField c zero (.obj members) name = c.read value := by
  have hfield : (Json.obj members).field? name = some value := h
  have hread : c.optional (.obj members) name = (c.read value).map some := by
    unfold Serde.optional
    rw [hfield]
    cases value with
    | null => cases hnull
    | bool _ | num _ | str _ | arr _ | obj _ => rfl
  rw [structField, hread, Option.map_map]
  cases c.read value <;> rfl

namespace ActorSpecMembers

variable {members : List (String × Json)} {r : Int}

/-- The schema has no bounds for the number. -/
theorem accepted (h : ActorSpecMembers members r) :
    (Schema.object [("host", .string 1), ("image", .string 1), ("replicas", .integer)]
      ["host", "image", "replicas"]).accepts (.obj members) = true := by
  obtain ⟨host, hhost, hhostmem⟩ := h.host
  obtain ⟨image, himage, himagemem⟩ := h.image
  rw [Schema.accepts_object_iff]
  simp only [List.forall_mem_cons, List.not_mem_nil, false_implies, implies_true, hhostmem,
    himagemem, h.replicas, Option.isSome_some, Option.some.injEq, forall_eq', and_true, true_and]
  exact ⟨Schema.accepts_string_iff.mpr hhost, Schema.accepts_string_iff.mpr himage,
    Schema.accepts_integer r⟩

/-- The webhook decodes the number as a `uint`. -/
theorem decoded_iff (h : ActorSpecMembers members r) :
    (readWebhookSpec (.obj members)).isSome = true ↔ 0 ≤ r ∧ r < 2 ^ 64 := by
  obtain ⟨host, -, hhost⟩ := h.host
  obtain ⟨image, -, himage⟩ := h.image
  rw [← uint_read_isSome_iff, readWebhookSpec, structField_eq _ _ hhost rfl,
    structField_eq _ _ himage rfl, structField_eq _ _ h.replicas rfl]
  cases uint.read (.num r) <;> rfl

end ActorSpecMembers

theorem required_eq {α : Type} (c : Serde α) {members : List (String × Json)} {name : String}
    {value : Json} (h : members.lookup name = some value) :
    c.required (.obj members) name = c.read value := by
  have hfield : (Json.obj members).field? name = some value := h
  rw [Serde.required, hfield, Option.bind_some]

theorem int32_read_isSome_iff (r : Int) :
    (Serde.int32.read (.num r)).isSome = true ↔ -2 ^ 31 ≤ r ∧ r < 2 ^ 31 := by
  have hmax : Int32.maxValue.toInt = 2 ^ 31 - 1 := rfl
  simp only [Serde.int32, hmax, Option.isSome_ite]
  exact and_congr_right fun _ => Int.le_sub_one_iff

theorem int32_read_eq_some {r : Int} {n : Int32} (h : Serde.int32.read (.num r) = some n) :
    n.toInt = r := by
  obtain ⟨hmin, hmax⟩ := (int32_read_isSome_iff r).mp (Option.isSome_of_eq_some h)
  simp only [Serde.int32, Option.ite_none_right_eq_some, Option.some.injEq] at h
  rw [← h.2, Int32.toInt_ofInt_of_le hmin hmax]

namespace ActorDocument

variable {metav1 : MetaV1} {doc : Json} {r : Int}

theorem eq_obj (h : ActorDocument metav1 doc r) : ∃ members, doc = .obj members := by
  obtain ⟨spec, hspec, -⟩ := h.spec
  cases doc with
  | obj members => exact ⟨members, rfl⟩
  | _ => cases hspec

theorem accepted (h : ActorDocument metav1 doc r) : actorSchema.accepts doc = true := by
  obtain ⟨members, rfl⟩ := h.eq_obj
  obtain ⟨metadata, -, hmetadata, -⟩ := h.metadata
  obtain ⟨spec, hspec, hmembers⟩ := h.spec
  have hstring (name : String) (hname : name ∈ ["apiVersion", "kind"]) (value : Json)
      (hvalue : members.lookup name = some value) : (Schema.string 0).accepts value = true := by
    obtain ⟨s, rfl⟩ := h.typeMeta name hname value hvalue
    exact Schema.accepts_string_iff.mpr (Nat.zero_le _)
  unfold actorSchema
  rw [Schema.accepts_object_iff]
  refine ⟨fun name hname => absurd hname List.not_mem_nil, ?_⟩
  simp only [List.forall_mem_cons]
  refine ⟨hstring "apiVersion" (by decide), hstring "kind" (by decide), fun value hvalue => ?_,
    fun value hvalue => ?_, fun p hp => absurd hp List.not_mem_nil⟩
  · cases hvalue.symm.trans hmetadata
    rw [Schema.accepts_object_iff]
    exact ⟨fun name hname => absurd hname List.not_mem_nil, fun p hp => absurd hp List.not_mem_nil⟩
  · cases hvalue.symm.trans hspec
    exact hmembers.accepted

theorem admitted_iff (h : ActorDocument metav1 doc r) : Admitted doc ↔ 0 ≤ r ∧ r < 2 ^ 64 := by
  obtain ⟨spec, hspec, hmembers⟩ := h.spec
  rw [Admitted, and_iff_right h.accepted, decodeWebhookSpec, hspec]
  exact hmembers.decoded_iff

/-! ### The host -/

/-- A host reads the object with any number that is an `i32`. -/
theorem readActor_eq (h : ActorDocument metav1 doc r) :
    ∃ name host image status, readActor metav1 doc =
      (Serde.int32.read (.num r)).map fun replicas => ⟨name, ⟨host, image, replicas⟩, status⟩ := by
  obtain ⟨metadata, name, hmetadata, hname⟩ := h.metadata
  obtain ⟨spec, hspec, hmembers⟩ := h.spec
  obtain ⟨host, -, hhost⟩ := hmembers.host
  obtain ⟨image, -, himage⟩ := hmembers.image
  obtain ⟨status, hstatus⟩ := h.status
  have hread : readActorSpec (.obj spec) =
      (Serde.int32.read (.num r)).map fun replicas => ⟨host, image, replicas⟩ := by
    rw [readActorSpec, required_eq Serde.string hhost, required_eq Serde.string himage,
      required_eq Serde.int32 hmembers.replicas]
    cases Serde.int32.read (.num r) <;> rfl
  refine ⟨name, host, image, status, ?_⟩
  rw [readActor, readObject, readName, hmetadata, Option.bind_some,
    required_eq Serde.string hname, hspec, Option.bind_some, hread, hstatus]
  cases Serde.int32.read (.num r) <;> rfl

theorem readActor_isSome_iff (h : ActorDocument metav1 doc r) :
    (readActor metav1 doc).isSome = true ↔ -2 ^ 31 ≤ r ∧ r < 2 ^ 31 := by
  obtain ⟨name, host, image, status, heq⟩ := h.readActor_eq
  rw [heq, Option.isSome_map, int32_read_isSome_iff]

/-- It reads the number that is there. -/
theorem replicas_of_readActor (h : ActorDocument metav1 doc r) {actor : Actor}
    (hread : readActor metav1 doc = some actor) : actor.spec.replicas.toInt = r := by
  obtain ⟨name, host, image, status, heq⟩ := h.readActor_eq
  rw [heq, Option.map_eq_some_iff] at hread
  obtain ⟨replicas, hreplicas, rfl⟩ := hread
  exact int32_read_eq_some hreplicas

end ActorDocument

end V1alpha1

end KasmCloud
