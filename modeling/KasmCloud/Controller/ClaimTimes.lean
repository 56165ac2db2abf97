/-
KasmCloud.Controller.ClaimTimes — the times of an image's claims as the two
reconcilers publish them (`src/main.rs`).

A claim time is a `u64` of seconds, cast to `i64` before it is checked against
chrono's range. Three zones come out of it:

* `claimTime_exact` — a time in the range is published as it is;
* `claimTime_caught` — one above is published as `MIN_UTC`, also where the cast
  wraps it to a value below the range;
* `claimTime_wrapped` — after `lastCaught` the wrapped value is in the range
  and is published, as an instant before the epoch.

`reconcilers_publish_times_iff` says this of the statuses.
-/
import KasmCloud.Controller.Objects

namespace KasmCloud

open Lib V1alpha1

/-! ## One time -/

/-- The instant `secs` is a `DateTime<Utc>`. -/
def InChronoRange (secs : Int) : Prop := minUtc ≤ secs ∧ secs ≤ maxUtc

/-- What a claim time should be published as: itself, or `MIN_UTC` when it is
out of range; before the epoch there is nothing else. -/
structure PublishedAs (t : UInt64) (dt : Int) : Prop where
  exact : InChronoRange t.toNat → dt = t.toNat
  sentinel : ¬ InChronoRange t.toNat → dt = minUtc
  not_before_epoch : dt < 0 → dt = minUtc

/-- 2^64 + `minUtc`: the last time whose wrapped value is not above `MIN_UTC`. -/
def lastCaught : Nat := 18446735739076700416

/-! The bounds as integers. -/

theorem inChronoRange_iff {secs : Int} :
    InChronoRange secs ↔ -8334632851200 ≤ secs ∧ secs ≤ 8210298412799 := Iff.rfl

theorem minUtc_eq : (-8334632851200 : Int) = minUtc := rfl

theorem lastCaught_eq : (lastCaught : Int) = -8334632851200 + 2 ^ 64 := rfl

/-- `as i64` of a `u64`. -/
theorem toInt_toInt64 (t : UInt64) :
    t.toInt64.toInt = if t.toNat < 2 ^ 63 then (t.toNat : Int) else (t.toNat : Int) - 2 ^ 64 := by
  rw [← Int64.toInt_toBitVec, UInt64.toBitVec_toInt64, BitVec.toInt_eq_toNat_cond,
    UInt64.toNat_toBitVec]
  split <;> split <;> omega

theorem toInt_toInt64_of_lt {t : UInt64} (h : t.toNat < 2 ^ 63) : t.toInt64.toInt = t.toNat := by
  rw [toInt_toInt64, if_pos h]

theorem toInt_toInt64_of_le {t : UInt64} (h : 2 ^ 63 ≤ t.toNat) :
    t.toInt64.toInt = (t.toNat : Int) - 2 ^ 64 := by
  rw [toInt_toInt64, if_neg (by omega)]

theorem claimTime_of_some {t : UInt64} {dt : DateTime}
    (h : timestampOpt t.toInt64.toInt = some dt) : claimTime t = dt := by
  rw [claimTime, h]

theorem claimTime_of_none {t : UInt64} (h : timestampOpt t.toInt64.toInt = none) :
    claimTime t = minUtc := by
  rw [claimTime, h]

theorem timestampOpt_of_inRange {secs : Int} (h : InChronoRange secs) :
    timestampOpt secs = some secs := if_pos h

theorem timestampOpt_of_not_inRange {secs : Int} (h : ¬ InChronoRange secs) :
    timestampOpt secs = none := if_neg h

/-! The three zones. -/

theorem claimTime_exact {t : UInt64} (h : InChronoRange t.toNat) : claimTime t = t.toNat := by
  have hcast : t.toInt64.toInt = t.toNat :=
    toInt_toInt64_of_lt (by rw [inChronoRange_iff] at h; omega)
  exact claimTime_of_some (by rw [hcast, timestampOpt_of_inRange h])

theorem claimTime_caught {t : UInt64} (h : ¬ InChronoRange t.toNat) (hcaught : t.toNat ≤ lastCaught) :
    claimTime t = minUtc := by
  rcases Nat.lt_or_ge t.toNat (2 ^ 63) with hlow | hhigh
  · -- too late for chrono, and not wrapped
    rw [← toInt_toInt64_of_lt hlow] at h
    exact claimTime_of_none (timestampOpt_of_not_inRange h)
  · have hcast := toInt_toInt64_of_le hhigh
    by_cases hmin : t.toNat = lastCaught
    · -- wrapped to `MIN_UTC` itself
      rw [hmin] at hcast
      exact claimTime_of_some (by rw [hcast]; rfl)
    · -- wrapped, and too early for chrono
      refine claimTime_of_none (timestampOpt_of_not_inRange fun hrange => ?_)
      have hlast := lastCaught_eq
      rw [inChronoRange_iff] at hrange
      omega

theorem claimTime_wrapped {t : UInt64} (h : lastCaught < t.toNat) :
    claimTime t = (t.toNat : Int) - 2 ^ 64 := by
  have hlt : t.toNat < 2 ^ 64 := t.toNat_lt
  have hlast := lastCaught_eq
  have hcast : t.toInt64.toInt = (t.toNat : Int) - 2 ^ 64 := toInt_toInt64_of_le (by omega)
  refine claimTime_of_some ?_
  rw [hcast]
  exact timestampOpt_of_inRange (inChronoRange_iff.mpr (by omega))

/-- The cast and the check do what is asked for up to `lastCaught`. -/
theorem publishedAs_claimTime_iff (t : UInt64) :
    PublishedAs t (claimTime t) ↔ t.toNat ≤ lastCaught := by
  constructor
  · rintro ⟨-, -, hepoch⟩
    by_contra hlate
    -- the wrapped instant is before the epoch, and is not the sentinel
    have hlt : t.toNat < 2 ^ 64 := t.toNat_lt
    have hlast := lastCaught_eq
    have hmin := minUtc_eq
    rw [claimTime_wrapped (Nat.lt_of_not_le hlate)] at hepoch
    omega
  · intro hcaught
    by_cases hrange : InChronoRange t.toNat
    · rw [claimTime_exact hrange]
      exact ⟨fun _ => rfl, fun hout => absurd hrange hout, fun hneg => by omega⟩
    · rw [claimTime_caught hrange hcaught]
      exact ⟨fun hin => absurd hin hrange, fun _ => rfl, fun _ => rfl⟩

/-! ## The times of a status -/

/-- The times in the claims of an image. -/
def Jwt.Claims.times {α : Type} (claims : Jwt.Claims α) : List UInt64 :=
  claims.issuedAt :: (claims.notBefore.toList ++ claims.expires.toList)

/-- Each of the three times is published as it should be, and an absent one
stays absent. -/
structure ShowsTimes {α : Type} (claims : Jwt.Claims α) (shown : V1alpha1.Claims) : Prop where
  issuedAt : PublishedAs claims.issuedAt shown.issuedAt
  notBefore : Option.Rel PublishedAs claims.notBefore shown.notBefore
  expires : Option.Rel PublishedAs claims.expires shown.expires

theorem rel_map_claimTime_iff (time : Option UInt64) :
    Option.Rel PublishedAs time (time.map claimTime) ↔
      ∀ t ∈ time.toList, t.toNat ≤ lastCaught := by
  cases time with
  | none => simp
  | some t =>
    rw [Option.map_some, Option.rel_some_some, publishedAs_claimTime_iff]
    simp

theorem showsTimes_ofJwt_iff {α : Type} (claims : Jwt.Claims α) :
    ShowsTimes claims (.ofJwt claims) ↔ ∀ t ∈ claims.times, t.toNat ≤ lastCaught := by
  rw [Jwt.Claims.times, List.forall_mem_cons, List.forall_mem_append,
    ← publishedAs_claimTime_iff, ← rel_map_claimTime_iff, ← rel_map_claimTime_iff]
  exact ⟨fun ⟨h1, h2, h3⟩ => ⟨h1, h2, h3⟩, fun ⟨h1, h2, h3⟩ => ⟨h1, h2, h3⟩⟩

theorem actorStatus_claims (claims : Jwt.Claims Jwt.Actor) (replicas : Int32) :
    (actorStatus claims replicas).claims = .ofJwt claims := by
  unfold actorStatus
  cases claims.metadata <;> rfl

theorem providerStatus_claims (claims : Jwt.Claims Jwt.CapabilityProvider) :
    (providerStatus claims).claims = .ofJwt claims := by
  unfold providerStatus
  cases claims.metadata <;> rfl

/-- A status that `reconcile_actor` writes is made of the claims that the host
has returned. -/
theorem reconcileActor_patch {host : Host} {actor : V1alpha1.Actor}
    {fetched : Except String WasmActor} {failAt : Option Nat} {claims : Jwt.Claims Jwt.Actor}
    {status : ActorStatus}
    (hclaims : (host.reconcileActor actor.name actor.spec.image fetched
      (asUsize actor.spec.replicas) failAt).2 = .ok claims)
    (hpatch : (reconcileActor host actor fetched failAt).patch = some status) :
    status = actorStatus claims actor.spec.replicas := by
  rw [reconcileActor_of_ok (Prod.ext rfl hclaims), Option.ite_none_left_eq_some] at hpatch
  exact (Option.some.inj hpatch.2).symm

theorem reconcileProvider_patch {host : Host} {g : V1alpha1.Provider}
    {fetched : Except String ProviderImage} {failure : Option StartFailure}
    {claims : Jwt.Claims Jwt.CapabilityProvider} {status : ProviderStatus}
    (hclaims : (host.startProvider g.spec.link g.spec.image fetched failure).2 = .ok claims)
    (hpatch : (reconcileProvider host g fetched failure).patch = some status) :
    status = providerStatus claims := by
  rw [reconcileProvider_of_ok (Prod.ext rfl hclaims), Option.ite_none_left_eq_some] at hpatch
  exact (Option.some.inj hpatch.2).symm

/-- The statuses that the two reconcilers write show the times of an image as
they should be exactly when none of them is after `lastCaught`. -/
theorem reconcilers_publish_times_iff (host : Host) :
    (∀ actor fetched failAt claims status,
      (host.reconcileActor actor.name actor.spec.image fetched (asUsize actor.spec.replicas)
        failAt).2 = .ok claims →
      (reconcileActor host actor fetched failAt).patch = some status →
      (ShowsTimes claims status.claims ↔ ∀ t ∈ claims.times, t.toNat ≤ lastCaught)) ∧
    ∀ g fetched failure claims status,
      (host.startProvider g.spec.link g.spec.image fetched failure).2 = .ok claims →
      (reconcileProvider host g fetched failure).patch = some status →
      (ShowsTimes claims status.claims ↔ ∀ t ∈ claims.times, t.toNat ≤ lastCaught) := by
  constructor
  · intro actor fetched failAt claims status hclaims hpatch
    rw [reconcileActor_patch hclaims hpatch, actorStatus_claims]
    exact showsTimes_ofJwt_iff claims
  · intro g fetched failure claims status hclaims hpatch
    rw [reconcileProvider_patch hclaims hpatch, providerStatus_claims]
    exact showsTimes_ofJwt_iff claims

/-! ## Two images with an expiry time -/

/-- The claims of an image that expires at `expires`. -/
def expiringClaims (α : Type) (expires : UInt64) : Jwt.Claims α :=
  ⟨"A", "M", 1700000000, none, some expires, none⟩

def expiringActor : V1alpha1.Actor := ⟨"echo", ⟨"host-a", "echo:1", 1⟩, none⟩

def expiringProvider : V1alpha1.Provider := ⟨"kv", ⟨"host-a", "kv:1", "default"⟩, none⟩

theorem expiringClaims_times {α : Type} {expires : UInt64} (h : expires.toNat ≤ lastCaught) :
    ∀ t ∈ (expiringClaims α expires).times, t.toNat ≤ lastCaught := by
  intro t ht
  have hmem : t ∈ [1700000000, expires] := ht
  rcases List.mem_pair.mp hmem with rfl | rfl
  · decide
  · exact h

/-- An image that expires in 2100. -/
theorem expiring_shown :
    ShowsTimes (expiringClaims Jwt.Actor 4102444800)
        (actorStatus (expiringClaims Jwt.Actor 4102444800) 1).claims ∧
      ShowsTimes (expiringClaims Jwt.CapabilityProvider 4102444800)
        (providerStatus (expiringClaims Jwt.CapabilityProvider 4102444800)).claims := by
  have hbound : (4102444800 : UInt64).toNat ≤ lastCaught := by decide
  obtain ⟨hactor, hprovider⟩ := reconcilers_publish_times_iff (.new "default")
  exact ⟨(hactor expiringActor (.ok ⟨"echo", some (expiringClaims Jwt.Actor 4102444800)⟩) none
      _ _ rfl rfl).mpr (expiringClaims_times hbound),
    (hprovider expiringProvider (.ok ⟨"kv", expiringClaims Jwt.CapabilityProvider 4102444800⟩) none
      _ _ rfl rfl).mpr (expiringClaims_times hbound)⟩

/-- An image that never expires is shown as expired since 1969. -/
theorem neverExpires_not_shown :
    (∃ status, ((Host.new "default").reconcileActor "echo" "echo:1"
          (.ok ⟨"echo", some (expiringClaims Jwt.Actor 18446744073709551615)⟩) 1 none).2 =
        .ok (expiringClaims Jwt.Actor 18446744073709551615) ∧
      (reconcileActor (.new "default") expiringActor
          (.ok ⟨"echo", some (expiringClaims Jwt.Actor 18446744073709551615)⟩) none).patch =
        some status ∧
      status.claims.expires = some (-1) ∧
      ¬ ShowsTimes (expiringClaims Jwt.Actor 18446744073709551615) status.claims) ∧
    ∃ status, ((Host.new "default").startProvider "default" "kv:1"
          (.ok ⟨"kv", expiringClaims Jwt.CapabilityProvider 18446744073709551615⟩) none).2 =
        .ok (expiringClaims Jwt.CapabilityProvider 18446744073709551615) ∧
      (reconcileProvider (.new "default") expiringProvider
          (.ok ⟨"kv", expiringClaims Jwt.CapabilityProvider 18446744073709551615⟩) none).patch =
        some status ∧
      status.claims.expires = some (-1) ∧
      ¬ ShowsTimes (expiringClaims Jwt.CapabilityProvider 18446744073709551615) status.claims := by
  refine ⟨⟨_, rfl, rfl, rfl, fun h => ?_⟩, ⟨_, rfl, rfl, rfl, fun h => ?_⟩⟩
  all_goals
    have hexpires := Option.rel_some_some.mp h.expires
    exact absurd (hexpires.not_before_epoch (by decide)) (by decide)

end KasmCloud
