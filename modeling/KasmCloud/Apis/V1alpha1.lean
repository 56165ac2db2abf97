/-
KasmCloud.Apis.V1alpha1 — the custom resources (`crates/apis`) and the
image claims their statuses are filled from.

* `Jwt.Claims` and its two metadata records carry the fields the host reads
  from a signed image; the claim times are `u64` seconds.
* `Source`, `LinkSpec`, `LinkStatus`, `ActorSpec`, … follow
  `crates/apis/src/v1alpha1` field by field. A hash map in a spec is only
  passed on and compared, never iterated, so it is a `Finmap`.
* `claimTime` is the conversion `Utc.timestamp_opt(t as i64, 0)` with
  `MIN_UTC` in place of an instant outside chrono's range, which the two
  reconcilers write out six times.
* `Link.validate` and the three `validateUpdate` are the admission rules of the
  webhooks in `api/v1alpha1`.
-/
import Mathlib.Data.Finmap
import Mathlib.Tactic.Common

namespace KasmCloud

/-! ## Claims of an image -/

namespace Jwt

/-- The signed claims of an image; `α` is the metadata of its kind. -/
structure Claims (α : Type) where
  issuer : String
  subject : String
  issuedAt : UInt64
  notBefore : Option UInt64
  expires : Option UInt64
  metadata : Option α
  deriving DecidableEq, Repr

/-- Metadata of an actor image. -/
structure Actor where
  name : Option String
  caps : Option (List String)
  provider : Bool
  rev : Option Int32
  ver : Option String
  callAlias : Option String
  deriving DecidableEq, Repr

/-- Metadata of a capability provider image. -/
structure CapabilityProvider where
  name : Option String
  capid : String
  vendor : String
  rev : Option Int32
  ver : Option String
  /-- The keys of the `target_hashes` map, in iteration order. -/
  targetHashes : List String
  deriving DecidableEq, Repr

end Jwt

namespace V1alpha1

/-! ## Claim times -/

/-- A `DateTime<Utc>` with whole seconds, as seconds from the Unix epoch. -/
abbrev DateTime := Int

/-- `DateTime::<Utc>::MIN_UTC`: -262144-01-01T00:00:00Z. -/
def minUtc : DateTime := -8334632851200

/-- The last whole second of `DateTime::<Utc>::MAX_UTC`: 262143-12-31T23:59:59Z. -/
def maxUtc : DateTime := 8210298412799

/-- `Utc.timestamp_opt(secs, 0)`, where `none` stands for `LocalResult::None`. -/
def timestampOpt (secs : Int) : Option DateTime :=
  if minUtc ≤ secs ∧ secs ≤ maxUtc then some secs else none

/-- The time a status shows for a claim time: the `as i64` cast, then the
range check. -/
def claimTime (t : UInt64) : DateTime :=
  match timestampOpt t.toInt64.toInt with
  | some dt => dt
  | none => minUtc

/-! ## Resources -/

/-- `metav1.Condition`; the host writes none and only compares them. -/
structure Condition where
  type : String
  status : String
  reason : String
  message : String
  lastTransitionTime : String
  observedGeneration : Option Int
  deriving DecidableEq, Repr

structure Claims where
  issuer : String
  subject : String
  issuedAt : DateTime
  notBefore : Option DateTime
  expires : Option DateTime
  deriving DecidableEq, Repr

/-- The claims part of a status, with its times converted. -/
def Claims.ofJwt {α : Type} (claims : Jwt.Claims α) : Claims where
  issuer := claims.issuer
  subject := claims.subject
  issuedAt := claimTime claims.issuedAt
  notBefore := claims.notBefore.map claimTime
  expires := claims.expires.map claimTime

structure ActorSpec where
  host : String
  image : String
  replicas : Int32
  deriving DecidableEq, Repr

structure ActorStatus where
  publicKey : String
  descriptiveName : Option String
  caps : Option (List String)
  capabilityProvider : Option (List String)
  callAlias : Option String
  claims : Claims
  version : Option String
  reversion : Option Int32
  conditions : List Condition
  replicas : Int32
  availableReplicas : Int32
  deriving DecidableEq, Repr

structure Actor where
  name : String
  spec : ActorSpec
  status : Option ActorStatus
  deriving DecidableEq, Repr

structure ProviderSpec where
  host : String
  image : String
  link : String
  deriving DecidableEq, Repr

structure ProviderStatus where
  publicKey : String
  contractId : String
  descriptiveName : Option String
  claims : Claims
  architectureTargets : List String
  vendor : String
  version : Option String
  reversion : Option Int32
  conditions : List Condition
  instanceId : String
  deriving DecidableEq, Repr

structure Provider where
  name : String
  spec : ProviderSpec
  status : Option ProviderStatus
  deriving DecidableEq, Repr

/-- Configuration values of a link. -/
abbrev Values := Finmap fun _ : String => String

/-- One end of a link: a public key, the name of an object, or both. -/
structure Source where
  key : String
  name : String
  deriving DecidableEq, Repr

structure LinkSpec where
  linkName : String
  provider : Source
  actor : Source
  contractId : String
  values : Values
  deriving DecidableEq

structure LinkStatus where
  providerKey : String
  actorKey : String
  linkName : String
  conditions : List Condition
  deriving DecidableEq, Repr

structure Link where
  name : String
  spec : LinkSpec
  status : Option LinkStatus
  deriving DecidableEq

/-- The test `add_link` and `delete_link` make before they use a status. -/
def LinkStatus.complete (status : LinkStatus) : Bool :=
  status.providerKey != "" && status.actorKey != "" && status.linkName != ""

/-! ## Admission -/

/-- `field.Invalid`: the path of the field and the detail text. -/
structure FieldError where
  field : String
  detail : String
  deriving DecidableEq, Repr

/-- A field that an update must leave as it is. -/
def immutable (field : String) (new old : String) : List FieldError :=
  if new ≠ old then [⟨field, field ++ " could not be changed"⟩] else []

/-- `ValidateUpdate` of the Actor webhook. -/
def Actor.validateUpdate (r old : Actor) : List FieldError :=
  immutable "spec.host" r.spec.host old.spec.host

/-- `ValidateUpdate` of the Provider webhook. -/
def Provider.validateUpdate (r old : Provider) : List FieldError :=
  immutable "spec.host" r.spec.host old.spec.host ++
    immutable "spec.link" r.spec.link old.spec.link

theorem immutable_eq_nil {field new old : String} : immutable field new old = [] ↔ new = old := by
  simp [immutable]

/-- `(r *Link) validate()` of the webhook. -/
def Link.validate (r : Link) : List FieldError :=
  let actorErrs : List FieldError :=
    if r.spec.actor.key = "" ∧ r.spec.actor.name = "" then
      [⟨"spec.actor", "required .spec.actor.name or .spec.actor.key"⟩]
    else []
  let providerErrs : List FieldError :=
    if r.spec.provider.key = "" ∧ r.spec.provider.name = "" then
      [⟨"spec.provider", "required .spec.provider.name or .spec.provider.key"⟩]
    else if r.spec.provider.name = "" ∧ r.spec.linkName = "" then
      [⟨"spec.linkName", "must set spec.linkName, if only set spec.provider.key"⟩]
    else []
  actorErrs ++ providerErrs

/-- What an admitted spec is known to name: an actor, a provider, and a link
name unless the provider is named. -/
theorem Link.validate_eq_nil {r : Link} (h : r.validate = []) :
    (r.spec.actor.key ≠ "" ∨ r.spec.actor.name ≠ "") ∧
      (r.spec.provider.key ≠ "" ∨ r.spec.provider.name ≠ "") ∧
      (r.spec.provider.name ≠ "" ∨ r.spec.linkName ≠ "") := by
  simp only [Link.validate, List.append_eq_nil_iff] at h
  obtain ⟨hactor, hprovider⟩ := h
  split at hactor
  · cases hactor
  · split at hprovider
    · cases hprovider
    · split at hprovider
      · cases hprovider
      · rename_i h1 h2 h3
        refine ⟨?_, ?_, ?_⟩ <;> tauto

/-- `ValidateUpdate` of the Link webhook. -/
def Link.validateUpdate (r old : Link) : List FieldError :=
  if r.spec ≠ old.spec then [⟨"spec", "spec could not be changed"⟩] else r.validate

end V1alpha1

end KasmCloud
