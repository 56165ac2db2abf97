/-
KasmCloud.Apis.Documents — the resources as the API server stores them.

`crates/apis` derives the writers and readers of the statuses and specs: the
members have camelCase names, no member of a status is skipped when it is
written, and an optional one may be absent when it is read. `read*` are the
readers of whole objects; a stored object has each member once.

`metav1.Time` and `metav1.Condition` come from another crate: `MetaV1` has
what they are written as. A time is written as an RFC 3339 text, which can be
read back in the years 0 to 9999 (`MetaV1.Documented`).

* `actorStatus_restores` and its two siblings — a merge patch with a status
  that shows representable times makes the status read as written;
* `readActor_merged` and its two siblings — and changes nothing else of the
  object.
-/
import KasmCloud.Apis.V1alpha1
import KasmCloud.Lib.Json

namespace KasmCloud

open Lib

namespace V1alpha1

/-! ## Types of apimachinery -/

structure MetaV1 where
  formatTime : DateTime → String
  parseTime : String → Option DateTime
  condition : Serde Condition

/-- 0000-01-01T00:00:00Z to 9999-12-31T23:59:59Z: RFC 3339 has four digits for
the year. -/
def InRfc3339 (t : DateTime) : Prop := -62167219200 ≤ t ∧ t ≤ 253402300799

/-- A time in that range is read as it was written. -/
def MetaV1.Documented (metav1 : MetaV1) : Prop :=
  ∀ t, InRfc3339 t → metav1.parseTime (metav1.formatTime t) = some t

def MetaV1.time (metav1 : MetaV1) : Serde DateTime where
  write t := .str (metav1.formatTime t)
  read
    | .str s => metav1.parseTime s
    | _ => none

theorem MetaV1.Documented.time_restores {metav1 : MetaV1} (h : metav1.Documented) {t : DateTime}
    (ht : InRfc3339 t) : metav1.time.Restores t :=
  ⟨rfl, fun _ => h t ht⟩

/-! ## Statuses -/

section Statuses

variable (metav1 : MetaV1)

def claimsSerde : Serde Claims where
  write c := .obj
    [("issuer", .str c.issuer),
      ("subject", .str c.subject),
      ("issuedAt", metav1.time.write c.issuedAt),
      ("notBefore", metav1.time.writeOption c.notBefore),
      ("expires", metav1.time.writeOption c.expires)]
  read doc := do
    let issuer ← Serde.string.required doc "issuer"
    let subject ← Serde.string.required doc "subject"
    let issuedAt ← metav1.time.required doc "issuedAt"
    let notBefore ← metav1.time.optional doc "notBefore"
    let expires ← metav1.time.optional doc "expires"
    return { issuer, subject, issuedAt, notBefore, expires }

def actorStatusSerde : Serde ActorStatus where
  write s := .obj
    [("publicKey", .str s.publicKey),
      ("descriptiveName", Serde.string.writeOption s.descriptiveName),
      ("caps", Serde.string.list.writeOption s.caps),
      ("capabilityProvider", Serde.string.list.writeOption s.capabilityProvider),
      ("callAlias", Serde.string.writeOption s.callAlias),
      ("claims", (claimsSerde metav1).write s.claims),
      ("version", Serde.string.writeOption s.version),
      ("reversion", Serde.int32.writeOption s.reversion),
      ("conditions", metav1.condition.list.write s.conditions),
      ("replicas", Serde.int32.write s.replicas),
      ("availableReplicas", Serde.int32.write s.availableReplicas)]
  read doc := do
    let publicKey ← Serde.string.required doc "publicKey"
    let descriptiveName ← Serde.string.optional doc "descriptiveName"
    let caps ← Serde.string.list.optional doc "caps"
    let capabilityProvider ← Serde.string.list.optional doc "capabilityProvider"
    let callAlias ← Serde.string.optional doc "callAlias"
    let claims ← (claimsSerde metav1).required doc "claims"
    let version ← Serde.string.optional doc "version"
    let reversion ← Serde.int32.optional doc "reversion"
    let conditions ← metav1.condition.list.required doc "conditions"
    let replicas ← Serde.int32.required doc "replicas"
    let availableReplicas ← Serde.int32.required doc "availableReplicas"
    return { publicKey, descriptiveName, caps, capabilityProvider, callAlias, claims, version,
             reversion, conditions, replicas, availableReplicas }

def providerStatusSerde : Serde ProviderStatus where
  write s := .obj
    [("publicKey", .str s.publicKey),
      ("contractId", .str s.contractId),
      ("descriptiveName", Serde.string.writeOption s.descriptiveName),
      ("claims", (claimsSerde metav1).write s.claims),
      ("architectureTargets", Serde.string.list.write s.architectureTargets),
      ("vendor", .str s.vendor),
      ("version", Serde.string.writeOption s.version),
      ("reversion", Serde.int32.writeOption s.reversion),
      ("conditions", metav1.condition.list.write s.conditions),
      ("instanceId", .str s.instanceId)]
  read doc := do
    let publicKey ← Serde.string.required doc "publicKey"
    let contractId ← Serde.string.required doc "contractId"
    let descriptiveName ← Serde.string.optional doc "descriptiveName"
    let claims ← (claimsSerde metav1).required doc "claims"
    let architectureTargets ← Serde.string.list.required doc "architectureTargets"
    let vendor ← Serde.string.required doc "vendor"
    let version ← Serde.string.optional doc "version"
    let reversion ← Serde.int32.optional doc "reversion"
    let conditions ← metav1.condition.list.required doc "conditions"
    let instanceId ← Serde.string.required doc "instanceId"
    return { publicKey, contractId, descriptiveName, claims, architectureTargets, vendor, version,
             reversion, conditions, instanceId }

def linkStatusSerde : Serde LinkStatus where
  write s := .obj
    [("providerKey", .str s.providerKey),
      ("actorKey", .str s.actorKey),
      ("linkName", .str s.linkName),
      ("conditions", metav1.condition.list.write s.conditions)]
  read doc := do
    let providerKey ← Serde.string.required doc "providerKey"
    let actorKey ← Serde.string.required doc "actorKey"
    let linkName ← Serde.string.required doc "linkName"
    let conditions ← metav1.condition.list.required doc "conditions"
    return { providerKey, actorKey, linkName, conditions }

/-! ### Merging a status -/

/-- The times of a status can be shown in RFC 3339. -/
structure Claims.Representable (c : Claims) : Prop where
  issuedAt : InRfc3339 c.issuedAt
  notBefore : ∀ t, c.notBefore = some t → InRfc3339 t
  expires : ∀ t, c.expires = some t → InRfc3339 t

variable {metav1}

theorem claims_restores (h : metav1.Documented) {c : Claims} (hc : c.Representable) :
    (claimsSerde metav1).Restores c := by
  refine ⟨rfl, fun target => ?_⟩
  have hnodup : (["issuer", "subject", "issuedAt", "notBefore", "expires"] : List String).Nodup := by
    decide
  dsimp only [claimsSerde]
  refine Serde.read_bind ((Serde.restores_string c.issuer).required hnodup rfl) ?_
  refine Serde.read_bind ((Serde.restores_string c.subject).required hnodup rfl) ?_
  refine Serde.read_bind ((h.time_restores hc.issuedAt).required hnodup rfl) ?_
  refine Serde.read_bind (Serde.restores_optional
    (fun t ht => h.time_restores (hc.notBefore t ht)) hnodup rfl) ?_
  refine Serde.read_bind (Serde.restores_optional
    (fun t ht => h.time_restores (hc.expires t ht)) hnodup rfl) ?_
  rfl

/-- A list that is empty is restored whatever its items are. -/
theorem restores_empty {α : Type} (c : Serde α) : c.list.Restores [] :=
  Serde.restores_list fun _ hmem => nomatch hmem

theorem actorStatus_restores (h : metav1.Documented) {s : ActorStatus}
    (hclaims : s.claims.Representable) (hconditions : s.conditions = []) :
    (actorStatusSerde metav1).Restores s := by
  refine ⟨rfl, fun target => ?_⟩
  have hnodup : (["publicKey", "descriptiveName", "caps", "capabilityProvider", "callAlias",
      "claims", "version", "reversion", "conditions", "replicas", "availableReplicas"] :
      List String).Nodup := by decide
  have hempty : metav1.condition.list.Restores s.conditions := by
    rw [hconditions]
    exact restores_empty _
  have hstring (o : Option String) : ∀ a, o = some a → Serde.string.Restores a :=
    fun a _ => Serde.restores_string a
  have hlist (o : Option (List String)) : ∀ as, o = some as → Serde.string.list.Restores as :=
    fun as _ => Serde.restores_list fun a _ => (Serde.restores_string a).read .null
  dsimp only [actorStatusSerde]
  refine Serde.read_bind ((Serde.restores_string s.publicKey).required hnodup rfl) ?_
  refine Serde.read_bind (Serde.restores_optional (hstring s.descriptiveName) hnodup rfl) ?_
  refine Serde.read_bind (Serde.restores_optional (hlist s.caps) hnodup rfl) ?_
  refine Serde.read_bind (Serde.restores_optional (hlist s.capabilityProvider) hnodup rfl) ?_
  refine Serde.read_bind (Serde.restores_optional (hstring s.callAlias) hnodup rfl) ?_
  refine Serde.read_bind ((claims_restores h hclaims).required hnodup rfl) ?_
  refine Serde.read_bind (Serde.restores_optional (hstring s.version) hnodup rfl) ?_
  refine Serde.read_bind (Serde.restores_optional
    (fun n _ => Serde.restores_int32 n) hnodup rfl) ?_
  refine Serde.read_bind (hempty.required hnodup rfl) ?_
  refine Serde.read_bind ((Serde.restores_int32 s.replicas).required hnodup rfl) ?_
  refine Serde.read_bind ((Serde.restores_int32 s.availableReplicas).required hnodup rfl) ?_
  rfl

theorem providerStatus_restores (h : metav1.Documented) {s : ProviderStatus}
    (hclaims : s.claims.Representable) (hconditions : s.conditions = []) :
    (providerStatusSerde metav1).Restores s := by
  refine ⟨rfl, fun target => ?_⟩
  have hnodup : (["publicKey", "contractId", "descriptiveName", "claims", "architectureTargets",
      "vendor", "version", "reversion", "conditions", "instanceId"] : List String).Nodup := by decide
  have hempty : metav1.condition.list.Restores s.conditions := by
    rw [hconditions]
    exact restores_empty _
  have hstring (o : Option String) : ∀ a, o = some a → Serde.string.Restores a :=
    fun a _ => Serde.restores_string a
  have htargets : Serde.string.list.Restores s.architectureTargets :=
    Serde.restores_list fun a _ => (Serde.restores_string a).read .null
  dsimp only [providerStatusSerde]
  refine Serde.read_bind ((Serde.restores_string s.publicKey).required hnodup rfl) ?_
  refine Serde.read_bind ((Serde.restores_string s.contractId).required hnodup rfl) ?_
  refine Serde.read_bind (Serde.restores_optional (hstring s.descriptiveName) hnodup rfl) ?_
  refine Serde.read_bind ((claims_restores h hclaims).required hnodup rfl) ?_
  refine Serde.read_bind (htargets.required hnodup rfl) ?_
  refine Serde.read_bind ((Serde.restores_string s.vendor).required hnodup rfl) ?_
  refine Serde.read_bind (Serde.restores_optional (hstring s.version) hnodup rfl) ?_
  refine Serde.read_bind (Serde.restores_optional
    (fun n _ => Serde.restores_int32 n) hnodup rfl) ?_
  refine Serde.read_bind (hempty.required hnodup rfl) ?_
  refine Serde.read_bind ((Serde.restores_string s.instanceId).required hnodup rfl) ?_
  rfl

/-- A Link status shows no times. -/
theorem linkStatus_restores {s : LinkStatus} (hconditions : s.conditions = []) :
    (linkStatusSerde metav1).Restores s := by
  refine ⟨rfl, fun target => ?_⟩
  have hnodup : (["providerKey", "actorKey", "linkName", "conditions"] : List String).Nodup := by
    decide
  have hempty : metav1.condition.list.Restores s.conditions := by
    rw [hconditions]
    exact restores_empty _
  dsimp only [linkStatusSerde]
  refine Serde.read_bind ((Serde.restores_string s.providerKey).required hnodup rfl) ?_
  refine Serde.read_bind ((Serde.restores_string s.actorKey).required hnodup rfl) ?_
  refine Serde.read_bind ((Serde.restores_string s.linkName).required hnodup rfl) ?_
  refine Serde.read_bind (hempty.required hnodup rfl) ?_
  rfl

end Statuses

/-! ## Objects -/

/-- `metadata.name`. -/
def readName (doc : Json) : Option String :=
  (doc.field? "metadata").bind fun metadata => Serde.string.required metadata "name"

def readActorSpec (doc : Json) : Option ActorSpec := do
  let host ← Serde.string.required doc "host"
  let image ← Serde.string.required doc "image"
  let replicas ← Serde.int32.required doc "replicas"
  return { host, image, replicas }

def readProviderSpec (doc : Json) : Option ProviderSpec := do
  let host ← Serde.string.required doc "host"
  let image ← Serde.string.required doc "image"
  let link ← Serde.string.required doc "link"
  return { host, image, link }

def readSource (doc : Json) : Option Source := do
  let key ← Serde.string.defaulted "" doc "key"
  let name ← Serde.string.defaulted "" doc "name"
  return { key, name }

/-- A map of strings; absent, it is empty. -/
def readValues : Option Json → Option Values
  | none => some ∅
  | some (.obj members) =>
    (members.mapM fun m => (Serde.string.read m.2).map fun value => ⟨m.1, value⟩).map List.toFinmap
  | some _ => none

def readLinkSpec (doc : Json) : Option LinkSpec := do
  let linkName ← Serde.string.defaulted "" doc "linkName"
  let provider ← (doc.field? "provider").bind readSource
  let actor ← (doc.field? "actor").bind readSource
  let contractId ← Serde.string.required doc "contractId"
  let values ← readValues (doc.field? "values")
  return { linkName, provider, actor, contractId, values }

/-- An object with a spec and, perhaps, a status. -/
def readObject {σ τ ω : Type} (readSpec : Json → Option σ) (status : Serde τ)
    (make : String → σ → Option τ → ω) (doc : Json) : Option ω := do
  let name ← readName doc
  let spec ← (doc.field? "spec").bind readSpec
  let status ← status.optional doc "status"
  return make name spec status

section Objects

variable (metav1 : MetaV1)

def readActor : Json → Option Actor :=
  readObject readActorSpec (actorStatusSerde metav1) .mk

def readProvider : Json → Option Provider :=
  readObject readProviderSpec (providerStatusSerde metav1) .mk

def readLink : Json → Option Link :=
  readObject readLinkSpec (linkStatusSerde metav1) .mk

/-! ### Merging a status into an object -/

/-- `serde_json::json!({ "status": status })`. -/
def statusPatch (status : Json) : Json := .obj [("status", status)]

theorem field?_statusPatch (doc status : Json) {name : String} (h : name ≠ "status") :
    (Json.mergePatch doc (statusPatch status)).field? name = doc.field? name :=
  Json.field?_mergePatch_absent (by simpa using h) doc

theorem readName_statusPatch (doc status : Json) :
    readName (.mergePatch doc (statusPatch status)) = readName doc := by
  unfold readName
  rw [field?_statusPatch doc status (by decide)]

theorem optional_statusPatch {α : Type} {c : Serde α} {a : α} (h : c.Restores a) (doc : Json) :
    c.optional (.mergePatch doc (statusPatch (c.write a))) "status" = some (some a) :=
  Serde.restores_optional (fun _ hb => Option.some.inj hb ▸ h) (List.nodup_singleton _) rfl

/-- The patch changes the status of the object and nothing else of it. -/
theorem readObject_merged {σ τ ω : Type} {readSpec : Json → Option σ} {status : Serde τ}
    {make : String → σ → Option τ → ω} {doc : Json} {object : ω}
    (h : readObject readSpec status make doc = some object) {s : τ} (hs : status.Restores s) :
    ∃ name spec old, object = make name spec old ∧
      readObject readSpec status make (.mergePatch doc (statusPatch (status.write s))) =
        some (make name spec (some s)) := by
  unfold readObject at h ⊢
  rw [readName_statusPatch, field?_statusPatch doc _ (by decide), optional_statusPatch hs doc]
  obtain ⟨name, hname, h⟩ := Option.bind_eq_some_iff.mp h
  obtain ⟨spec, hspec, h⟩ := Option.bind_eq_some_iff.mp h
  obtain ⟨old, -, h⟩ := Option.bind_eq_some_iff.mp h
  cases h
  refine ⟨name, spec, old, rfl, ?_⟩
  rw [hname, hspec]
  rfl

variable {metav1}

theorem readActor_merged {doc : Json} {actor : Actor} (h : readActor metav1 doc = some actor)
    {s : ActorStatus} (hs : (actorStatusSerde metav1).Restores s) :
    readActor metav1 (.mergePatch doc (statusPatch ((actorStatusSerde metav1).write s))) =
      some { actor with status := some s } := by
  obtain ⟨name, spec, old, rfl, hread⟩ := readObject_merged h hs
  exact hread

theorem readProvider_merged {doc : Json} {provider : Provider}
    (h : readProvider metav1 doc = some provider) {s : ProviderStatus}
    (hs : (providerStatusSerde metav1).Restores s) :
    readProvider metav1 (.mergePatch doc (statusPatch ((providerStatusSerde metav1).write s))) =
      some { provider with status := some s } := by
  obtain ⟨name, spec, old, rfl, hread⟩ := readObject_merged h hs
  exact hread

theorem readLink_merged {doc : Json} {link : Link} (h : readLink metav1 doc = some link)
    {s : LinkStatus} (hs : (linkStatusSerde metav1).Restores s) :
    readLink metav1 (.mergePatch doc (statusPatch ((linkStatusSerde metav1).write s))) =
      some { link with status := some s } := by
  obtain ⟨name, spec, old, rfl, hread⟩ := readObject_merged h hs
  exact hread

end Objects

end V1alpha1

end KasmCloud
