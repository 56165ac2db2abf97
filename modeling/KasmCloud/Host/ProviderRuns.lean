/-
KasmCloud.Host.ProviderRuns — the entries of `Host.providers` and the
processes behind them, over runs of the host.

`start_provider` makes the entry of a public key before it can fail and
looks only at the table, never at the process; `stop_provider` drops the
`Child` of an instance, which kills it, before it asks it to shut down.
-/
import KasmCloud.Host.Api

namespace KasmCloud

open Lib

/-! ## Entries -/

/-- Every entry has an instance. -/
def Host.EntriesFilled (host : Host) : Prop :=
  ∀ key, host.providers.lookup key ≠ none → ∃ linkName i, host.instance? key linkName = some i

/-- The public keys with a recorded instance. -/
def Host.recordedKeys (host : Host) : Finset String :=
  (host.providers.keys.filter fun key =>
    match host.providers.lookup key with
    | some provider => !HashMap.isEmpty provider.instances
    | none => false).toFinset

theorem mem_recordedKeys {host : Host} {key : String} :
    key ∈ host.recordedKeys ↔ ∃ linkName i, host.instance? key linkName = some i := by
  rw [Host.recordedKeys, List.mem_toFinset, List.mem_filter]
  cases hentry : host.providers.lookup key with
  | none =>
    simp [Host.instance?, hentry]
  | some provider =>
    have hmem : key ∈ host.providers.keys := by
      rw [← AList.mem_keys]
      exact AList.lookup_isSome.mp (by rw [hentry]; rfl)
    simp only [hmem, true_and, Bool.not_eq_true', Host.instance?, hentry, Option.bind_some]
    rw [← Bool.not_eq_true, HashMap.isEmpty_iff, not_forall]
    simp only [Option.ne_none_iff_exists', ← ne_eq]

/-- Without empty entries `stats` counts the keys that have an instance. -/
theorem Host.EntriesFilled.providerCount {host : Host} (h : host.EntriesFilled) :
    host.stats.providerCount = host.recordedKeys.card := by
  have hall : host.recordedKeys = host.providers.keys.toFinset := by
    ext key
    rw [mem_recordedKeys, List.mem_toFinset, ← AList.mem_keys]
    constructor
    · rintro ⟨linkName, i, hi⟩
      obtain ⟨provider, hentry, -⟩ := Option.bind_eq_some_iff.mp hi
      exact AList.lookup_isSome.mp (by rw [hentry]; rfl)
    · intro hmem
      refine h key fun hnone => ?_
      rw [AList.lookup_eq_none] at hnone
      exact hnone hmem
  rw [hall, List.card_toFinset, List.Nodup.dedup host.providers.keys_nodup]
  simp [Host.stats, AList.keys, List.keys]

/-! ## Starts that fail -/

/-- `Host.providers` is as before, and no process spawned between `host` and
`host'` is left. -/
structure ProvidersKept (host host' : Host) : Prop where
  providers : host'.providers = host.providers
  processes : ∀ pid, host.nextId ≤ pid → pid ∉ host'.processes

section Start

variable (host : Host) (linkName providerRef : String)

theorem launchProvider_failed_providers (provider : Provider) (image : ProviderImage)
    (f : StartFailure) :
    (host.launchProvider provider linkName image (some f)).1.providers = host.providers := by
  cases f <;> rfl

theorem enterProvider_entries (claims : Jwt.Claims Jwt.CapabilityProvider) (key : String) :
    (host.enterProvider claims providerRef).2.providers.lookup key ≠ none ↔
      host.providers.lookup key ≠ none ∨ key = claims.subject := by
  unfold Host.enterProvider
  cases hentry : host.providers.lookup claims.subject with
  | some provider =>
    refine ⟨.inl, ?_⟩
    rintro (h | rfl)
    · exact h
    · rw [hentry]
      simp
  | none =>
    dsimp only
    rw [HashMap.lookup_insert_if]
    by_cases hkey : key = claims.subject
    · simp [hkey]
    · simp [hkey]

/-- Making an entry is a change where there was none. -/
theorem enterProvider_kept_iff (claims : Jwt.Claims Jwt.CapabilityProvider) :
    (host.enterProvider claims providerRef).2.providers = host.providers ↔
      host.providers.lookup claims.subject ≠ none := by
  constructor
  · intro hsame
    rw [← hsame, enterProvider_entries]
    exact .inr rfl
  · intro hentry
    obtain ⟨provider, hentry⟩ := Option.ne_none_iff_exists'.mp hentry
    simp only [Host.enterProvider, hentry]

/-- A start that fails after the fetch leaves the entry it made. -/
theorem startProvider_failed_providers {image : ProviderImage} {failure : Option StartFailure}
    {e : String}
    (h : (host.startProvider linkName providerRef (.ok image) failure).2 = .error e) :
    (host.startProvider linkName providerRef (.ok image) failure).1.providers =
      (host.enterProvider image.claims providerRef).2.providers := by
  unfold Host.startProvider at h ⊢
  dsimp only at h ⊢
  generalize host.enterProvider image.claims providerRef = entry at h ⊢
  obtain ⟨provider, entered⟩ := entry
  dsimp only at h ⊢
  cases hat : provider.instances.lookup linkName with
  | some i => rfl
  | none =>
    rw [hat] at h
    cases failure with
    | none => cases h
    | some f => exact launchProvider_failed_providers entered linkName provider image f

/-- The entries after a start: those from before, and that of the image. -/
theorem startProvider_entries (fetched : Except String ProviderImage)
    (failure : Option StartFailure) (key : String) :
    (host.startProvider linkName providerRef fetched failure).1.providers.lookup key ≠ none ↔
      host.providers.lookup key ≠ none ∨
        ∃ image, fetched = .ok image ∧ key = image.claims.subject := by
  cases fetched with
  | error e => simp [Host.startProvider]
  | ok image =>
    have hentries := enterProvider_entries host providerRef image.claims key
    have himage : (∃ image', Except.ok (ε := String) image = .ok image' ∧
        key = image'.claims.subject) ↔ key = image.claims.subject := by simp
    rw [himage, ← hentries]
    unfold Host.startProvider
    dsimp only
    generalize host.enterProvider image.claims providerRef = entry at hentries ⊢
    obtain ⟨provider, entered⟩ := entry
    dsimp only at hentries ⊢
    cases provider.instances.lookup linkName with
    | some i => rfl
    | none =>
      cases failure with
      | some f =>
        dsimp only
        rw [launchProvider_failed_providers]
      | none =>
        rw [hentries]
        show (entered.providers.insert image.claims.subject _).lookup key ≠ none ↔ _
        rw [HashMap.lookup_insert_if]
        by_cases hkey : key = image.claims.subject
        · simp [hkey]
        · rw [if_neg hkey]
          exact hentries

end Start

/-- A start that returns an error has changed nothing exactly if the fetch
failed or the public key had its entry already. -/
theorem startProvider_error_clean_iff {host : Host} (hok : ProvidersOk host)
    {linkName providerRef : String} {fetched : Except String ProviderImage}
    {failure : Option StartFailure} {e : String}
    (h : (host.startProvider linkName providerRef fetched failure).2 = .error e) :
    ProvidersKept host (host.startProvider linkName providerRef fetched failure).1 ↔
      ∀ image, fetched = .ok image → host.providers.lookup image.claims.subject ≠ none := by
  have hprocesses : (host.startProvider linkName providerRef fetched failure).1.processes =
      host.processes := by
    rcases startProvider_cases host linkName providerRef hok.used fetched failure with
      ⟨_, -, -, hsame⟩ | ⟨image, -, ⟨i, -, hresult, -⟩ |
        ⟨-, ⟨f, -, -, hsame⟩ | ⟨-, hresult, -⟩⟩⟩
    · exact hsame.processes
    · cases h.symm.trans hresult
    · exact hsame.processes
    · cases h.symm.trans hresult
  have hleft : ∀ pid, host.nextId ≤ pid →
      pid ∉ (host.startProvider linkName providerRef fetched failure).1.processes := by
    intro pid hnew hpid
    rw [hprocesses] at hpid
    exact absurd (hok.used pid hpid) (not_lt.mpr hnew)
  cases fetched with
  | error e' =>
    constructor
    · rintro - image himage
      cases himage
    · intro _
      exact ⟨rfl, hleft⟩
  | ok image =>
    have hproviders := startProvider_failed_providers host linkName providerRef h
    constructor
    · rintro hkept image' himage
      cases himage
      rw [← enterProvider_kept_iff host providerRef, ← hproviders]
      exact hkept.providers
    · intro hentry
      refine ⟨?_, hleft⟩
      rw [hproviders, enterProvider_kept_iff]
      exact hentry image rfl

/-! ## Stops -/

section Stop

variable (host : Host) (linkName key : String) (shutdown : ShutdownOutcome)

theorem stopProvider_unknown (h : host.providers.lookup key = none) :
    host.stopProvider linkName key shutdown = host := by
  simp [Host.stopProvider, h]

theorem stopProvider_providers {provider : Provider}
    (h : host.providers.lookup key = some provider) :
    (host.stopProvider linkName key shutdown).providers =
      if HashMap.isEmpty (provider.instances.erase linkName) then host.providers.erase key
      else host.providers.insert key
        { provider with instances := provider.instances.erase linkName } := by
  simp only [Host.stopProvider, h]
  cases provider.instances.lookup linkName with
  | none => rfl
  | some found =>
    dsimp only
    rw [(requestShutdown_frame (host.killProcess found.child) key linkName shutdown).1]
    rfl

/-- The other keys keep their entries. -/
theorem stopProvider_lookup_ne {k : String} (hk : k ≠ key) :
    (host.stopProvider linkName key shutdown).providers.lookup k = host.providers.lookup k := by
  cases hentry : host.providers.lookup key with
  | none => rw [stopProvider_unknown host linkName key shutdown hentry]
  | some provider =>
    rw [stopProvider_providers host linkName key shutdown hentry]
    split <;> simp [hk]

/-- The entry goes with its last instance. -/
theorem stopProvider_removed_iff :
    (host.stopProvider linkName key shutdown).providers.lookup key = none ↔
      ∀ l, l ≠ linkName → host.instance? key l = none := by
  cases hentry : host.providers.lookup key with
  | none =>
    rw [stopProvider_unknown host linkName key shutdown hentry]
    simp [hentry, Host.instance?]
  | some provider =>
    rw [stopProvider_providers host linkName key shutdown hentry]
    have hempty : HashMap.isEmpty (provider.instances.erase linkName) = true ↔
        ∀ l, l ≠ linkName → host.instance? key l = none := by
      rw [HashMap.isEmpty_iff]
      simp only [HashMap.lookup_erase_if, Host.instance?, hentry, Option.bind_some]
      constructor
      · intro hall l hl
        simpa [hl] using hall l
      · intro hall l
        by_cases hl : l = linkName
        · simp [hl]
        · simpa [hl] using hall l hl
    rw [← hempty]
    split
    · simp_all
    · simp_all

/-- What a stop does to a process it finds: the kill comes first. -/
theorem stopProvider_effects {i : ProviderInstance} (h : host.instance? key linkName = some i) :
    (host.stopProvider linkName key shutdown).processEffects =
      host.processEffects ++ .kill i.child ::
        match shutdown with
        | .notEncoded => []
        | .answered =>
          [.shutdownRequest (shutdownTopic host.latticePrefix key linkName), .shutdownReply true]
        | .unanswered =>
          [.shutdownRequest (shutdownTopic host.latticePrefix key linkName),
            .shutdownReply false] := by
  obtain ⟨provider, hentry, hfound⟩ := Option.bind_eq_some_iff.mp h
  cases shutdown <;>
    simp [Host.stopProvider, hentry, hfound, Host.requestShutdown, Host.killProcess]

end Stop

/-! ## Every entry has an instance -/

/-- A start that fails after the fetch finds an entry for its key. -/
def Host.StartsOnEntry (host : Host) (call : HostCall) : Prop :=
  ∀ linkName providerRef image f, call = .startProvider linkName providerRef (.ok image) (some f) →
    host.providers.lookup image.claims.subject ≠ none

section Runs

variable {sha256 : String → String} {host : Host}

theorem Host.EntriesFilled.same {host' : Host} (h : host.EntriesFilled)
    (hsame : SameProviders host host') : host'.EntriesFilled := by
  intro key hentry
  rw [hsame.providers] at hentry
  obtain ⟨linkName, i, hi⟩ := h key hentry
  exact ⟨linkName, i, (instance?_congr hsame.providers key linkName).trans hi⟩

theorem Host.EntriesFilled.startProvider (h : host.EntriesFilled) (hok : ProvidersOk host)
    {linkName providerRef : String} {fetched : Except String ProviderImage}
    {failure : Option StartFailure}
    (hentries : host.StartsOnEntry (.startProvider linkName providerRef fetched failure)) :
    (host.startProvider linkName providerRef fetched failure).1.EntriesFilled := by
  intro key hkey
  have hkept : ∀ {host' : Host}, Unchanged host host' → host.providers.lookup key ≠ none →
      ∃ l i, host'.instance? key l = some i := by
    intro host' hsame hentry
    obtain ⟨l, i, hi⟩ := h key hentry
    exact ⟨l, i, (hsame.instances key l).trans hi⟩
  rw [startProvider_entries] at hkey
  rcases startProvider_cases host linkName providerRef hok.used fetched failure with
    ⟨_, rfl, -, hsame⟩ | ⟨image, rfl, ⟨i, hi, -, hsame⟩ |
      ⟨-, ⟨f, rfl, -, hsame⟩ | ⟨rfl, -, i, -, hnew⟩⟩⟩
  · rcases hkey with hentry | ⟨image, himage, -⟩
    · exact hkept hsame hentry
    · cases himage
  · rcases hkey with hentry | ⟨image', himage, rfl⟩
    · exact hkept hsame hentry
    · cases himage
      exact ⟨linkName, i, (hsame.instances _ _).trans hi⟩
  · rcases hkey with hentry | ⟨image', himage, rfl⟩
    · exact hkept hsame hentry
    · cases himage
      exact hkept hsame (hentries linkName providerRef image f rfl)
  · by_cases hhere : key = image.claims.subject
    · refine ⟨linkName, i, ?_⟩
      rw [hnew.instances, if_pos ⟨hhere, rfl⟩]
    · rcases hkey with hentry | ⟨image', himage, rfl⟩
      · obtain ⟨l, j, hj⟩ := h key hentry
        refine ⟨l, j, ?_⟩
        rw [hnew.instances, if_neg fun hplace => hhere hplace.1, hj]
      · cases himage
        exact absurd rfl hhere

theorem Host.EntriesFilled.stopProvider (h : host.EntriesFilled) (linkName key : String)
    (shutdown : ShutdownOutcome) :
    (host.stopProvider linkName key shutdown).EntriesFilled := by
  intro k hentry
  have hhalted := stopProvider_halted host linkName key shutdown
  by_cases hk : k = key
  · subst hk
    rw [ne_eq, stopProvider_removed_iff, not_forall] at hentry
    obtain ⟨l, hl⟩ := hentry
    rw [Classical.not_imp] at hl
    obtain ⟨i, hi⟩ := Option.ne_none_iff_exists'.mp hl.2
    refine ⟨l, i, ?_⟩
    rw [hhalted.instances, if_neg fun hplace => hl.1 hplace.2, hi]
  · rw [stopProvider_lookup_ne host linkName key shutdown hk] at hentry
    obtain ⟨l, i, hi⟩ := h k hentry
    refine ⟨l, i, ?_⟩
    rw [hhalted.instances, if_neg fun hplace => hk hplace.1, hi]

theorem Host.EntriesFilled.serve (h : host.EntriesFilled) (hok : ProvidersOk host) {call : HostCall}
    (hentries : host.StartsOnEntry call) : (host.serve sha256 call).EntriesFilled := by
  cases call with
  | reconcileActor name actorRef fetched replica failAt =>
    exact h.same (reconcileActor_sameProviders host name actorRef fetched replica failAt)
  | removeActor name => exact h.same (removeActor_sameProviders host name)
  | startProvider linkName providerRef fetched failure => exact h.startProvider hok hentries
  | stopProvider linkName key shutdown => exact h.stopProvider linkName key shutdown
  | addLinkdef ld outcome => exact h.same (addLinkdef_sameProviders sha256 host ld outcome)
  | deleteLinkdef ld outcome => exact h.same (deleteLinkdef_sameProviders sha256 host ld outcome)
  | processExit pid => exact h

/-- A failed start without an entry for its key leaves an empty one. -/
theorem Host.StartsOnEntry.of_filled (hok : ProvidersOk host) {call : HostCall}
    (hafter : (host.serve sha256 call).EntriesFilled) : host.StartsOnEntry call := by
  rintro linkName providerRef image f rfl hnone
  have hnoInstance : ∀ l, host.instance? image.claims.subject l = none := by
    intro l
    simp [Host.instance?, hnone]
  have hentry : (host.serve sha256 (.startProvider linkName providerRef (.ok image)
      (some f))).providers.lookup image.claims.subject ≠ none := by
    refine (startProvider_entries host linkName providerRef _ _ _).mpr (.inr ⟨image, rfl, rfl⟩)
  obtain ⟨l, i, hi⟩ := hafter _ hentry
  rcases startProvider_cases host linkName providerRef hok.used (.ok image) (some f) with
    ⟨_, himage, -⟩ | ⟨image', himage, ⟨j, hj, -⟩ | ⟨-, ⟨f', -, -, hsame⟩ | ⟨hfailure, -⟩⟩⟩
  · cases himage
  · cases himage
    rw [hnoInstance] at hj
    cases hj
  · have hi' := (hsame.instances image.claims.subject l).symm.trans hi
    rw [hnoInstance] at hi'
    cases hi'
  · cases hfailure

end Runs

section Sha256

variable (sha256 : String → String) (latticePrefix : String)

/-- Every entry has an instance, and is counted once, all along exactly in
the runs whose failed starts find an entry for their key. -/
theorem entriesFilled_iff (tr : List HostCall) (host : Host) :
    (apiMachine sha256 latticePrefix).RunWhen
          (fun (h : Host) _ => h.EntriesFilled ∧ h.stats.providerCount = h.recordedKeys.card) tr host ∧
        host.EntriesFilled ∧ host.stats.providerCount = host.recordedKeys.card ↔
      (apiMachine sha256 latticePrefix).RunWhen Host.StartsOnEntry tr host := by
  refine Machine.runWhen_always_iff
    (P := fun h : Host => h.EntriesFilled ∧ h.stats.providerCount = h.recordedKeys.card) ?_ ?_
  · intro tr host hrun
    have hfilled : host.EntriesFilled := by
      refine hrun.induction (I := fun _ h => Host.EntriesFilled h) ?_ ?_
      · intro key hentry
        exact absurd rfl hentry
      · intro tr host call host' hrun h hentries hs
        cases hs
        exact h.serve (providersOk_of_api hrun.reachable) hentries
    exact ⟨hfilled, hfilled.providerCount⟩
  · intro host call host' hreach _ hs hafter
    cases hs
    exact .of_filled (providersOk_of_api hreach) hafter.1

/-- A failed start has changed nothing exactly if its fetch failed or its key
had an entry; and every entry has an instance, and is counted, as long as the
other failed starts do not happen. -/
theorem startProvider_clean_iff :
    (∀ host, (apiMachine sha256 latticePrefix).Reachable host →
      ∀ linkName providerRef fetched failure e,
        (host.startProvider linkName providerRef fetched failure).2 = .error e →
        (ProvidersKept host (host.startProvider linkName providerRef fetched failure).1 ↔
          ∀ image, fetched = .ok image → host.providers.lookup image.claims.subject ≠ none)) ∧
    ∀ tr host,
      (apiMachine sha256 latticePrefix).RunWhen
            (fun (h : Host) _ => h.EntriesFilled ∧ h.stats.providerCount = h.recordedKeys.card) tr host ∧
          host.EntriesFilled ∧ host.stats.providerCount = host.recordedKeys.card ↔
        (apiMachine sha256 latticePrefix).RunWhen Host.StartsOnEntry tr host := by
  refine ⟨?_, entriesFilled_iff sha256 latticePrefix⟩
  intro host hreach linkName providerRef fetched failure e herror
  exact startProvider_error_clean_iff (providersOk_of_api hreach) herror

end Sha256

def redisImage : ProviderImage := ⟨"/providers/redis", ⟨"A", "VREDIS", 0, none, none, none⟩⟩

/-- The provider runs for link `default`. -/
def redisHost : Host := ((Host.new "default").startProvider "default" "redis:1" (.ok redisImage) none).1

theorem redisHost_reachable : (apiMachine id "default").Reachable redisHost := by
  have hrun : (apiMachine id "default").Run
      [.startProvider "default" "redis:1" (.ok redisImage) none] redisHost := Machine.run_of_exec rfl
  exact hrun.reachable

/-- A second link whose spawn fails leaves nothing behind. -/
theorem failedSecondLink_clean :
    ProvidersKept redisHost
      (redisHost.startProvider "cache" "redis:1" (.ok redisImage) (some .spawn)).1 := by
  refine ((startProvider_clean_iff id "default").1 redisHost redisHost_reachable "cache" "redis:1"
    (.ok redisImage) (some .spawn) _ rfl).mpr ?_
  rintro image himage
  cases himage
  decide

/-- The first start of a provider, with its spawn failing: the entry stays,
empty, and is counted. -/
theorem failedSpawn_not_clean :
    (¬ ∀ host, (apiMachine id "default").Reachable host →
      ∀ linkName providerRef fetched failure e,
        (host.startProvider linkName providerRef fetched failure).2 = .error e →
        ProvidersKept host (host.startProvider linkName providerRef fetched failure).1) ∧
    ¬ ∀ host, (apiMachine id "default").Reachable host →
      host.EntriesFilled ∧ host.stats.providerCount = host.recordedKeys.card := by
  constructor
  · intro hall
    have hkept := hall (.new "default") ⟨[], .nil⟩ "default" "redis:1" (.ok redisImage) (some .spawn)
      _ rfl
    have hentry : ((Host.new "default").startProvider "default" "redis:1" (.ok redisImage)
        (some .spawn)).1.providers.lookup "VREDIS" ≠ none := by decide
    rw [hkept.providers] at hentry
    exact hentry rfl
  · intro hall
    have hrun : (apiMachine id "default").Run
        [.startProvider "default" "redis:1" (.ok redisImage) (some .spawn)]
        ((Host.new "default").startProvider "default" "redis:1" (.ok redisImage) (some .spawn)).1 :=
      Machine.run_of_exec rfl
    exact absurd (hall _ hrun.reachable).2 (by decide)

/-! ## What a successful start promises -/

/-- The process recorded after the step for a public key and link was alive
before the step, or is newer. -/
def RecordsRunning (before after : Host) (key linkName : String) : Prop :=
  ∃ i, after.instance? key linkName = some i ∧
    (i.child ∈ before.processes ∨ before.nextId ≤ i.child)

/-- A start that returns claims leaves a process recorded that had not exited
before it began. -/
def Host.StartsTruly (host : Host) (call : HostCall) : Prop :=
  ∀ linkName providerRef image failure claims,
    call = .startProvider linkName providerRef (.ok image) failure →
    (host.startProvider linkName providerRef (.ok image) failure).2 = .ok claims →
    RecordsRunning host (host.startProvider linkName providerRef (.ok image) failure).1
      image.claims.subject linkName

/-- A start finds no instance, or one whose process is alive. -/
def Host.StartsOnLiving (host : Host) (call : HostCall) : Prop :=
  ∀ linkName providerRef image failure i,
    call = .startProvider linkName providerRef (.ok image) failure →
    host.instance? image.claims.subject linkName = some i → i.child ∈ host.processes

/-- The table alone decides whether a process is started, so a dead instance
is taken for running. -/
theorem startsTruly_iff {host : Host} (hok : ProvidersOk host) (call : HostCall) :
    host.StartsTruly call ↔ host.StartsOnLiving call := by
  constructor
  · rintro htruly linkName providerRef image failure i rfl hi
    have hcases := startProvider_cases host linkName providerRef hok.used (.ok image) failure
    rcases hcases with ⟨_, himage, -⟩ | ⟨image', himage, ⟨j, hj, hresult, hsame⟩ | ⟨hnone, -⟩⟩
    · cases himage
    · cases himage
      obtain ⟨k, hk, hruns⟩ := htruly linkName providerRef image failure _ rfl hresult
      rw [hsame.instances, hi] at hk
      cases hk
      rcases hruns with halive | hnew
      · exact halive
      · exact absurd (hok.recorded _ _ i hi) (not_lt.mpr hnew)
    · cases himage
      rw [hi] at hnone
      cases hnone
  · rintro hliving linkName providerRef image failure claims rfl hresult
    have hcases := startProvider_cases host linkName providerRef hok.used (.ok image) failure
    rcases hcases with ⟨_, himage, -⟩ | ⟨image', himage, ⟨i, hi, -, hsame⟩ |
      ⟨-, ⟨f, -, herror, -⟩ | ⟨-, -, i, -, hnew⟩⟩⟩
    · cases himage
    · cases himage
      refine ⟨i, (hsame.instances _ _).trans hi, .inl ?_⟩
      exact hliving linkName providerRef image failure i rfl hi
    · cases hresult.symm.trans herror
    · cases himage
      refine ⟨i, ?_, .inr hnew.new⟩
      rw [hnew.instances, if_pos ⟨rfl, rfl⟩]

/-- The runs in which every successful start leaves its provider running are
those in which no start finds the instance of an ended process. -/
theorem startProvider_running_iff (sha256 : String → String) (latticePrefix : String)
    (tr : List HostCall) (host : Host) :
    (apiMachine sha256 latticePrefix).RunWhen Host.StartsTruly tr host ↔
      (apiMachine sha256 latticePrefix).RunWhen Host.StartsOnLiving tr host :=
  Machine.runWhen_congr fun _ call hreach => startsTruly_iff (providersOk_of_api hreach) call

/-- The process ends, and the next start returns claims all the same. -/
theorem crashedProvider_not_restarted :
    ¬ ∀ tr host, (apiMachine id "default").Run tr host → ∀ call, host.StartsTruly call := by
  intro hall
  have hrun : (apiMachine id "default").Run
      [.startProvider "default" "redis:1" (.ok redisImage) none, .processExit 1]
      (redisHost.processExit 1) := Machine.run_of_exec rfl
  obtain ⟨i, hi, hruns⟩ := hall _ _ hrun (.startProvider "default" "redis:1" (.ok redisImage) none)
    "default" "redis:1" redisImage none _ rfl rfl
  have hrecorded : ((redisHost.processExit 1).startProvider "default" "redis:1" (.ok redisImage)
      none).1.instance? "VREDIS" "default" = some ⟨0, 1⟩ := by decide
  cases hi.symm.trans hrecorded
  revert hruns
  decide

/-! ## The order of a stop -/

/-- What a call does to processes, after what was done before it. -/
def newEffects (before after : Host) : List ProcessEffect :=
  after.processEffects.drop before.processEffects.length

/-- A request on the subject is sent, and answered or timed out, before the
process is killed. -/
def AskedBeforeKilled (effects : List ProcessEffect) (subject : String) (pid : Pid) : Prop :=
  ∃ before between rest answered,
    effects = before ++ .shutdownRequest subject ::
      (between ++ .shutdownReply answered :: rest) ∧ .kill pid ∈ rest

/-- Exactly one process is killed, the other instances and providers stay,
and the entry goes if and only if its last instance does. -/
structure StopsOnly (before after : Host) (key linkName : String) (i : ProviderInstance) :
    Prop where
  kills : ∀ pid, .kill pid ∈ newEffects before after ↔ pid = i.child
  processes : after.processes = before.processes.erase i.child
  instances : ∀ k l, after.instance? k l =
    if k = key ∧ l = linkName then none else before.instance? k l
  providers : ∀ k, k ≠ key → after.providers.lookup k = before.providers.lookup k
  removed : after.providers.lookup key = none ↔
    ∀ l, l ≠ linkName → before.instance? key l = none

section Stop

variable {host : Host} {linkName key : String} {i : ProviderInstance}

theorem stopProvider_newEffects (h : host.instance? key linkName = some i)
    (shutdown : ShutdownOutcome) :
    newEffects host (host.stopProvider linkName key shutdown) =
      .kill i.child ::
        match shutdown with
        | .notEncoded => []
        | .answered =>
          [.shutdownRequest (shutdownTopic host.latticePrefix key linkName), .shutdownReply true]
        | .unanswered =>
          [.shutdownRequest (shutdownTopic host.latticePrefix key linkName),
            .shutdownReply false] := by
  rw [newEffects, stopProvider_effects host linkName key shutdown h, List.drop_left]

theorem stopProvider_stopsOnly (h : host.instance? key linkName = some i)
    (shutdown : ShutdownOutcome) :
    StopsOnly host (host.stopProvider linkName key shutdown) key linkName i := by
  have hhalted := stopProvider_halted host linkName key shutdown
  refine ⟨?_, ?_, hhalted.instances, ?_, ?_⟩
  · intro pid
    rw [stopProvider_newEffects h]
    cases shutdown <;> simp
  · rw [hhalted.processes, h]
  · intro k hk
    exact stopProvider_lookup_ne host linkName key shutdown hk
  · exact stopProvider_removed_iff host linkName key shutdown

theorem stopProvider_not_asked (h : host.instance? key linkName = some i)
    (shutdown : ShutdownOutcome) :
    ¬ AskedBeforeKilled (newEffects host (host.stopProvider linkName key shutdown))
      (shutdownTopic host.latticePrefix key linkName) i.child := by
  rintro ⟨before, between, rest, answered, heffects, hkill⟩
  rw [stopProvider_newEffects h] at heffects
  -- the one kill is the first effect, and the request would have to precede it
  cases before with
  | nil => cases heffects
  | cons first before =>
    have hlater : ProcessEffect.kill i.child ∈ before ++ .shutdownRequest
        (shutdownTopic host.latticePrefix key linkName) ::
          (between ++ .shutdownReply answered :: rest) := by
      simp [hkill]
    rw [List.cons_append, List.cons.injEq] at heffects
    rw [← heffects.2] at hlater
    cases shutdown <;> simp at hlater

/-- Whatever becomes of the request, the process is dead before it is
sent. -/
theorem stopProvider_kills_first (h : host.instance? key linkName = some i)
    (shutdown : ShutdownOutcome) :
    ¬ AskedBeforeKilled (newEffects host (host.stopProvider linkName key shutdown))
        (shutdownTopic host.latticePrefix key linkName) i.child ∧
      StopsOnly host (host.stopProvider linkName key shutdown) key linkName i :=
  ⟨stopProvider_not_asked h shutdown, stopProvider_stopsOnly h shutdown⟩

end Stop

theorem stoppedRedis_killed_first :
    ¬ AskedBeforeKilled (newEffects redisHost (redisHost.stopProvider "default" "VREDIS" .answered))
        (shutdownTopic redisHost.latticePrefix "VREDIS" "default") 1 ∧
      StopsOnly redisHost (redisHost.stopProvider "default" "VREDIS" .answered) "VREDIS" "default"
        ⟨0, 1⟩ :=
  stopProvider_kills_first (show redisHost.instance? "VREDIS" "default" = some ⟨0, 1⟩ by decide)
    .answered

/-- The only instance of a provider is stopped, and would have answered. -/
theorem gracefulStop_killed_first :
    ¬ ∀ host, (apiMachine id "default").Reachable host → ∀ linkName key shutdown i,
      host.instance? key linkName = some i →
        AskedBeforeKilled (newEffects host (host.stopProvider linkName key shutdown))
            (shutdownTopic host.latticePrefix key linkName) i.child ∧
          StopsOnly host (host.stopProvider linkName key shutdown) key linkName i := by
  intro hall
  have hfound : redisHost.instance? "VREDIS" "default" = some ⟨0, 1⟩ := by decide
  exact stopProvider_not_asked hfound .answered
    (hall redisHost redisHost_reachable _ _ .answered _ hfound).1

end KasmCloud
