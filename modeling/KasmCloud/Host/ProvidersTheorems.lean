/-
KasmCloud.Host.ProvidersTheorems — what a start and a stop do to the
instances and to the processes.

`Host.instance?` is the view of `Host.providers` the results are stated in.
A start leaves it as it is (`Unchanged`) or adds one instance with a process
of its own (`Launched`); a stop takes one out (`Halted`). `ProvidersOk` is
kept by both.
-/
import KasmCloud.Host.Providers

namespace KasmCloud

open Lib

/-- The instance recorded for a public key and link. -/
def Host.instance? (host : Host) (key linkName : String) : Option ProviderInstance :=
  (host.providers.lookup key).bind (·.instances.lookup linkName)

/-! ## Three kinds of change -/

structure Unchanged (host host' : Host) : Prop where
  instances : ∀ key linkName, host'.instance? key linkName = host.instance? key linkName
  processes : host'.processes = host.processes
  nextId : host.nextId ≤ host'.nextId

structure Launched (host host' : Host) (key linkName : String) (i : ProviderInstance) : Prop where
  instances : ∀ k l, host'.instance? k l =
    if k = key ∧ l = linkName then some i else host.instance? k l
  processes : host'.processes = insert i.child host.processes
  new : host.nextId ≤ i.child
  nextId : i.child < host'.nextId

structure Halted (host host' : Host) (key linkName : String) : Prop where
  instances : ∀ k l, host'.instance? k l =
    if k = key ∧ l = linkName then none else host.instance? k l
  processes : host'.processes =
    match host.instance? key linkName with
    | some i => host.processes.erase i.child
    | none => host.processes
  nextId : host'.nextId = host.nextId

theorem Unchanged.refl (host : Host) : Unchanged host host :=
  ⟨fun _ _ => rfl, rfl, le_rfl⟩

theorem Unchanged.trans {host host₁ host₂ : Host} (h : Unchanged host host₁)
    (h' : Unchanged host₁ host₂) : Unchanged host host₂ where
  instances key linkName := (h'.instances key linkName).trans (h.instances key linkName)
  processes := h'.processes.trans h.processes
  nextId := h.nextId.trans h'.nextId

theorem Unchanged.launched {host host₁ host₂ : Host} {key linkName : String}
    {i : ProviderInstance} (h : Unchanged host host₁) (h' : Launched host₁ host₂ key linkName i) :
    Launched host host₂ key linkName i where
  instances k l := by rw [h'.instances, h.instances]
  processes := by rw [h'.processes, h.processes]
  new := h.nextId.trans h'.new
  nextId := h'.nextId

/-- What every start and stop keeps: process numbers are used once, and no
two instances share a process. -/
structure ProvidersOk (host : Host) : Prop where
  used : ∀ pid ∈ host.processes, pid < host.nextId
  recorded : ∀ key linkName i, host.instance? key linkName = some i → i.child < host.nextId
  distinct : ∀ key linkName i key' linkName' i', host.instance? key linkName = some i →
    host.instance? key' linkName' = some i' → i.child = i'.child →
    key = key' ∧ linkName = linkName'

/-- A new host has neither processes nor instances. -/
theorem providersOk_new (latticePrefix : String) : ProvidersOk (.new latticePrefix) := by
  refine ⟨?_, ?_, ?_⟩
  · intro pid hpid
    cases hpid
  · intro key linkName i hi
    cases hi
  · intro key linkName i key' linkName' i' hi
    cases hi

/-- Every recorded instance has its process. -/
def InstancesAlive (host : Host) : Prop :=
  ∀ key linkName i, host.instance? key linkName = some i → i.child ∈ host.processes

section Keeps

variable {host host' : Host} {key linkName : String} {i : ProviderInstance}

theorem ProvidersOk.unchanged (h : ProvidersOk host) (hsame : Unchanged host host') :
    ProvidersOk host' where
  used pid hpid := lt_of_lt_of_le (h.used pid (hsame.processes ▸ hpid)) hsame.nextId
  recorded k l j hj :=
    lt_of_lt_of_le (h.recorded k l j (hsame.instances k l ▸ hj)) hsame.nextId
  distinct k l j k' l' j' hj hj' hpid :=
    h.distinct k l j k' l' j' (hsame.instances k l ▸ hj) (hsame.instances k' l' ▸ hj') hpid

theorem ProvidersOk.launched (h : ProvidersOk host) (hnew : Launched host host' key linkName i) :
    ProvidersOk host' := by
  have hgrows : host.nextId ≤ host'.nextId := hnew.new.trans hnew.nextId.le
  have hold {k l : String} {j : ProviderInstance} (hj : host'.instance? k l = some j) :
      (k = key ∧ l = linkName) ∧ j = i ∨ host.instance? k l = some j := by
    rw [hnew.instances] at hj
    split at hj
    · rename_i hhere
      exact .inl ⟨hhere, (Option.some.inj hj).symm⟩
    · exact .inr hj
  refine ⟨fun pid hpid => ?_, fun k l j hj => ?_, fun k l j k' l' j' hj hj' hpid => ?_⟩
  · rw [hnew.processes, Finset.mem_insert] at hpid
    rcases hpid with rfl | hpid
    · exact hnew.nextId
    · exact lt_of_lt_of_le (h.used pid hpid) hgrows
  · rcases hold hj with ⟨-, rfl⟩ | hj
    · exact hnew.nextId
    · exact lt_of_lt_of_le (h.recorded k l j hj) hgrows
  · have hnot {k l : String} {j : ProviderInstance} (hj : host.instance? k l = some j) :
        j.child ≠ i.child := fun hpid =>
      absurd (h.recorded k l j hj) (not_lt.mpr (hpid ▸ hnew.new))
    rcases hold hj with ⟨⟨rfl, rfl⟩, rfl⟩ | hj <;> rcases hold hj' with ⟨⟨rfl, rfl⟩, rfl⟩ | hj'
    · exact ⟨rfl, rfl⟩
    · exact absurd hpid.symm (hnot hj')
    · exact absurd hpid (hnot hj)
    · exact h.distinct k l j k' l' j' hj hj' hpid

theorem ProvidersOk.halted (h : ProvidersOk host) (hgone : Halted host host' key linkName) :
    ProvidersOk host' := by
  have hold {k l : String} {j : ProviderInstance} (hj : host'.instance? k l = some j) :
      host.instance? k l = some j := by
    rw [hgone.instances] at hj
    split at hj
    · cases hj
    · exact hj
  refine ⟨fun pid hpid => ?_, fun k l j hj => ?_, fun k l j k' l' j' hj hj' hpid => ?_⟩
  · rw [hgone.nextId]
    refine h.used pid ?_
    rw [hgone.processes] at hpid
    split at hpid
    · exact Finset.mem_of_mem_erase hpid
    · exact hpid
  · rw [hgone.nextId]
    exact h.recorded k l j (hold hj)
  · exact h.distinct k l j k' l' j' (hold hj) (hold hj') hpid

theorem InstancesAlive.unchanged (h : InstancesAlive host) (hsame : Unchanged host host') :
    InstancesAlive host' := by
  intro k l j hj
  rw [hsame.processes]
  exact h k l j (hsame.instances k l ▸ hj)

theorem InstancesAlive.launched (h : InstancesAlive host)
    (hnew : Launched host host' key linkName i) : InstancesAlive host' := by
  intro k l j hj
  rw [hnew.processes, Finset.mem_insert]
  rw [hnew.instances] at hj
  split at hj
  · exact .inl (congrArg ProviderInstance.child (Option.some.inj hj).symm)
  · exact .inr (h k l j hj)

theorem InstancesAlive.halted (hok : ProvidersOk host) (h : InstancesAlive host)
    (hgone : Halted host host' key linkName) : InstancesAlive host' := by
  intro k l j hj
  rw [hgone.instances] at hj
  split at hj
  · cases hj
  · rename_i hother
    rw [hgone.processes]
    cases hat : host.instance? key linkName with
    | none => exact h k l j hj
    | some i =>
      refine Finset.mem_erase.mpr ⟨fun hpid => hother ?_, h k l j hj⟩
      exact hok.distinct k l j key linkName i hj hat hpid

end Keeps

/-! ## start_provider -/

section Start

variable (host : Host) (linkName providerRef : String)

theorem instance?_congr {host host' : Host} (h : host'.providers = host.providers)
    (key linkName : String) : host'.instance? key linkName = host.instance? key linkName := by
  simp [Host.instance?, h]

/-- The entry holds the instances of the key, and making it adds none. -/
theorem enterProvider_spec (claims : Jwt.Claims Jwt.CapabilityProvider) :
    (∀ l, (host.enterProvider claims providerRef).1.instances.lookup l =
        host.instance? claims.subject l) ∧
      (host.enterProvider claims providerRef).2.nextId = host.nextId ∧
      Unchanged host (host.enterProvider claims providerRef).2 := by
  unfold Host.enterProvider
  cases hentry : host.providers.lookup claims.subject with
  | some provider =>
    exact ⟨fun l => by simp [Host.instance?, hentry], rfl, .refl host⟩
  | none =>
    refine ⟨fun l => by simp [Host.instance?, hentry], rfl, fun k l => ?_, rfl, le_rfl⟩
    simp only [Host.instance?, HashMap.lookup_insert_if]
    by_cases hk : k = claims.subject
    · subst hk
      simp [hentry]
    · simp [hk]

theorem runProvider_failed {host : Host} (hused : ∀ pid ∈ host.processes, pid < host.nextId)
    (path : String) (data : HostData) (failure : StartFailure) :
    (host.runProvider path data (some failure)).2 = .error failure.message ∧
      Unchanged host (host.runProvider path data (some failure)).1 := by
  -- the process that is killed is the one spawned just before
  have hfresh : host.nextId ∉ host.processes := fun h => absurd (hused _ h) (lt_irrefl _)
  cases failure <;>
    exact ⟨rfl, fun _ _ => rfl, by first | rfl | exact Finset.erase_insert hfresh, by
      first | exact le_rfl | exact Nat.le_succ _⟩

theorem launchProvider_failed {host : Host} (hused : ∀ pid ∈ host.processes, pid < host.nextId)
    (provider : Provider) (linkName : String) (image : ProviderImage) (failure : StartFailure) :
    (host.launchProvider provider linkName image (some failure)).2 = .error failure.message ∧
      Unchanged host (host.launchProvider provider linkName image (some failure)).1 := by
  have htaken : ∀ pid ∈ host.takeId.2.processes, pid < host.takeId.2.nextId :=
    fun pid hpid => Nat.lt_succ_of_lt (hused pid hpid)
  unfold Host.launchProvider
  dsimp only
  obtain ⟨hresult, hsame⟩ := runProvider_failed htaken image.path
    ⟨linkName, host.takeId.1, image.claims.subject,
      host.takeId.2.providerLinks image.claims.subject linkName⟩ failure
  generalize Host.runProvider _ _ _ _ = run at hresult hsame ⊢
  obtain ⟨host', result⟩ := run
  dsimp only at hresult
  subst hresult
  exact ⟨rfl, hsame.instances, hsame.processes, (Nat.le_succ _).trans hsame.nextId⟩

/-- `provider` is what the table holds for the key. -/
theorem launchProvider_launched {host : Host} {provider : Provider} {image : ProviderImage}
    (hentry : ∀ l, provider.instances.lookup l = host.instance? image.claims.subject l)
    (linkName : String) :
    (host.launchProvider provider linkName image none).2 = .ok image.claims ∧
      ∃ i, i.child = host.nextId + 1 ∧
        Launched host (host.launchProvider provider linkName image none).1
          image.claims.subject linkName i := by
  refine ⟨rfl, ⟨host.nextId, host.nextId + 1⟩, rfl, fun k l => ?_, rfl, Nat.le_succ _,
    Nat.lt_succ_self _⟩
  simp only [Host.launchProvider, Host.instance?, Host.takeId, Host.runProvider,
    Host.spawnProcess, Host.writeHostData, HashMap.lookup_insert_if]
  by_cases hk : k = image.claims.subject
  · subst hk
    simp only [if_true, Option.bind_some, HashMap.lookup_insert_if, hentry, true_and]
    rfl
  · simp only [hk, if_false, false_and]

/-- What a start can do: nothing, or launch the instance that was missing. -/
theorem startProvider_cases (hused : ∀ pid ∈ host.processes, pid < host.nextId)
    (fetched : Except String ProviderImage) (failure : Option StartFailure) :
    (∃ e, fetched = .error e ∧
        (host.startProvider linkName providerRef fetched failure).2 =
          .error "failed to fetch provider" ∧
        Unchanged host (host.startProvider linkName providerRef fetched failure).1) ∨
      ∃ image, fetched = .ok image ∧
        ((∃ i, host.instance? image.claims.subject linkName = some i ∧
            (host.startProvider linkName providerRef fetched failure).2 = .ok image.claims ∧
            Unchanged host (host.startProvider linkName providerRef fetched failure).1) ∨
          host.instance? image.claims.subject linkName = none ∧
            ((∃ f, failure = some f ∧
                (host.startProvider linkName providerRef fetched failure).2 = .error f.message ∧
                Unchanged host (host.startProvider linkName providerRef fetched failure).1) ∨
              failure = none ∧
                (host.startProvider linkName providerRef fetched failure).2 = .ok image.claims ∧
                ∃ i, i.child = host.nextId + 1 ∧
                  Launched host (host.startProvider linkName providerRef fetched failure).1
                    image.claims.subject linkName i)) := by
  cases fetched with
  | error e => exact .inl ⟨e, rfl, rfl, .refl host⟩
  | ok image =>
    refine .inr ⟨image, rfl, ?_⟩
    obtain ⟨hentry, hnext, hentered⟩ := enterProvider_spec host providerRef image.claims
    unfold Host.startProvider
    dsimp only
    generalize host.enterProvider image.claims providerRef = entry at hentry hnext hentered ⊢
    obtain ⟨provider, entered⟩ := entry
    dsimp only at hentry hnext hentered ⊢
    rw [hentry]
    cases hat : host.instance? image.claims.subject linkName with
    | some i => exact .inl ⟨i, rfl, rfl, hentered⟩
    | none =>
      refine .inr ⟨rfl, ?_⟩
      cases failure with
      | some f =>
        have hstill : ∀ pid ∈ entered.processes, pid < entered.nextId := fun pid hpid =>
          lt_of_lt_of_le (hused pid (hentered.processes ▸ hpid)) hentered.nextId
        obtain ⟨hresult, hsame⟩ := launchProvider_failed hstill provider linkName image f
        exact .inl ⟨f, rfl, hresult, hentered.trans hsame⟩
      | none =>
        have hentry' : ∀ l, provider.instances.lookup l = entered.instance? image.claims.subject l :=
          fun l => (hentry l).trans (hentered.instances _ l).symm
        obtain ⟨hresult, i, hchild, hnew⟩ := launchProvider_launched hentry' linkName
        exact .inr ⟨rfl, hresult, i, hnext ▸ hchild, hentered.launched hnew⟩

end Start

/-! ## Effects on processes -/

/-- What a start does to processes when the instance is missing. -/
def Host.startEffects (host : Host) (linkName : String) (image : ProviderImage)
    (failure : Option StartFailure) : List ProcessEffect :=
  let pid : Pid := host.nextId + 1
  let key := image.claims.subject
  let data : HostData := ⟨linkName, host.nextId, key, host.providerLinks key linkName⟩
  match failure with
  | none => [.spawn pid image.path, .hostData pid data]
  | some failure =>
    if failure.spawned then
      .spawn pid image.path ::
        ((if failure.written then [.hostData pid data] else []) ++ [.kill pid])
    else []

theorem launchProvider_effects (host : Host) (provider : Provider) (linkName : String)
    (image : ProviderImage) (failure : Option StartFailure) :
    (host.launchProvider provider linkName image failure).1.processEffects =
      host.processEffects ++ host.startEffects linkName image failure := by
  cases failure with
  | none => simp [Host.launchProvider, Host.takeId, Host.runProvider, Host.spawnProcess,
      Host.writeHostData, Host.startEffects]; rfl
  | some f =>
    cases f <;>
      simp [Host.launchProvider, Host.takeId, Host.runProvider, Host.spawnProcess,
        Host.writeHostData, Host.killProcess, Host.startEffects, StartFailure.spawned,
        StartFailure.written] <;> rfl

theorem startProvider_effects (host : Host) (linkName providerRef : String)
    (fetched : Except String ProviderImage) (failure : Option StartFailure) :
    (host.startProvider linkName providerRef fetched failure).1.processEffects =
      host.processEffects ++
        match fetched with
        | .error _ => []
        | .ok image =>
          match host.instance? image.claims.subject linkName with
          | some _ => []
          | none => host.startEffects linkName image failure := by
  cases fetched with
  | error e => simp [Host.startProvider]
  | ok image =>
    have hentry := (enterProvider_spec host providerRef image.claims).1 linkName
    have hentered : ((host.enterProvider image.claims providerRef).2.processEffects =
          host.processEffects) ∧
        (host.enterProvider image.claims providerRef).2.startEffects linkName image failure =
          host.startEffects linkName image failure := by
      unfold Host.enterProvider
      split <;> exact ⟨rfl, rfl⟩
    unfold Host.startProvider
    dsimp only
    generalize host.enterProvider image.claims providerRef = entry at hentry hentered ⊢
    obtain ⟨provider, entered⟩ := entry
    dsimp only at hentry hentered ⊢
    rw [hentry]
    cases host.instance? image.claims.subject linkName with
    | some i => simpa using hentered.1
    | none =>
      dsimp only
      rw [launchProvider_effects, hentered.1, hentered.2]

/-- The processes that run after an effect. -/
def ProcessEffect.apply (running : Finset Pid) : ProcessEffect → Finset Pid
  | .spawn pid _ => insert pid running
  | .kill pid => running.erase pid
  | .hostData .. | .shutdownRequest _ | .shutdownReply _ => running

/-- The processes that run after some effects. -/
def runningAfter (running : Finset Pid) (effects : List ProcessEffect) : Finset Pid :=
  effects.foldl ProcessEffect.apply running

/-- At no time does more than one process run. -/
def SingleRunning (running : Finset Pid) : List ProcessEffect → Prop
  | [] => running.card ≤ 1
  | e :: effects => running.card ≤ 1 ∧ SingleRunning (e.apply running) effects

theorem singleRunning_append (running : Finset Pid) (effects effects' : List ProcessEffect) :
    SingleRunning running (effects ++ effects') ↔
      SingleRunning running effects ∧ SingleRunning (runningAfter running effects) effects' := by
  induction effects generalizing running with
  | nil =>
    refine ⟨fun h => ⟨?_, h⟩, fun h => h.2⟩
    cases effects' with
    | nil => exact h
    | cons e effects' => exact h.1
  | cons e effects ih =>
    show running.card ≤ 1 ∧ SingleRunning (e.apply running) (effects ++ effects') ↔
      (running.card ≤ 1 ∧ SingleRunning (e.apply running) effects) ∧
        SingleRunning (runningAfter (e.apply running) effects) effects'
    rw [ih, and_assoc]

/-- A start adds a process, which stays unless the start fails after it; with
it no other may run. -/
theorem startEffects_running {host : Host} {running : Finset Pid}
    (hused : ∀ pid ∈ running, pid < host.nextId) (linkName : String) (image : ProviderImage)
    (failure : Option StartFailure) :
    runningAfter running (host.startEffects linkName image failure) =
        (if failure = none then insert (host.nextId + 1) running else running) ∧
      (SingleRunning running (host.startEffects linkName image failure) ↔
        running.card ≤ 1 ∧
          ((∃ f, failure = some f ∧ f.spawned = false) ∨ running = ∅)) := by
  have hfresh : host.nextId + 1 ∉ running := fun h => by
    have hlt : host.nextId + 1 < host.nextId := hused _ h
    exact absurd hlt (by simp)
  have hcard : (insert (host.nextId + 1) running).card = running.card + 1 :=
    Finset.card_insert_of_notMem hfresh
  have hback : (insert (host.nextId + 1) running).erase (host.nextId + 1) = running :=
    Finset.erase_insert hfresh
  cases failure with
  | none =>
    simp [Host.startEffects, runningAfter, SingleRunning, ProcessEffect.apply, hcard]
  | some f =>
    cases f <;>
      simp [Host.startEffects, runningAfter, SingleRunning, ProcessEffect.apply, hcard, hback,
        StartFailure.spawned, StartFailure.written] <;>
      exact fun h _ => h

/-! ## stop_provider -/

theorem requestShutdown_frame (host : Host) (key linkName : String) (shutdown : ShutdownOutcome) :
    (host.requestShutdown key linkName shutdown).providers = host.providers ∧
      (host.requestShutdown key linkName shutdown).processes = host.processes ∧
      (host.requestShutdown key linkName shutdown).nextId = host.nextId := by
  cases shutdown <;> exact ⟨rfl, rfl, rfl⟩

theorem stopProvider_halted (host : Host) (linkName key : String) (shutdown : ShutdownOutcome) :
    Halted host (host.stopProvider linkName key shutdown) key linkName := by
  unfold Host.stopProvider
  cases hentry : host.providers.lookup key with
  | none =>
    have hnone : ∀ l, host.instance? key l = none := fun l => by simp [Host.instance?, hentry]
    refine ⟨fun k l => ?_, by rw [hnone], rfl⟩
    show host.instance? k l = _
    split
    · rename_i hhere
      rw [hhere.1, hnone]
    · rfl
  | some provider =>
    dsimp only
    have hat : ∀ l, host.instance? key l = provider.instances.lookup l := fun l => by
      simp [Host.instance?, hentry]
    have hstopped : ∀ stopped : Host, stopped.providers = host.providers →
        ∀ k l, Host.instance? { stopped with
          providers :=
            if HashMap.isEmpty (provider.instances.erase linkName) then stopped.providers.erase key
            else stopped.providers.insert key
              { provider with instances := provider.instances.erase linkName } } k l =
          if k = key ∧ l = linkName then none else host.instance? k l := by
      intro stopped hsame k l
      simp only [Host.instance?, hsame]
      by_cases hk : k = key
      · subst hk
        split
        · rename_i hempty
          have hleft := HashMap.isEmpty_iff.mp hempty l
          rw [HashMap.lookup_erase_if] at hleft
          simp only [HashMap.lookup_erase_if, hentry, if_true, true_and]
          split
          · rfl
          · rename_i hl
            rw [if_neg hl] at hleft
            exact hleft.symm
        · simp [HashMap.lookup_erase_if, hentry]
      · split <;> simp [hk]
    cases hfound : provider.instances.lookup linkName with
    | none =>
      refine ⟨hstopped host rfl, ?_, rfl⟩
      rw [hat, hfound]
    | some found =>
      obtain ⟨hproviders, hprocesses, hnext⟩ :=
        requestShutdown_frame (host.killProcess found.child) key linkName shutdown
      refine ⟨hstopped _ hproviders, ?_, hnext⟩
      rw [hat, hfound]
      exact hprocesses

end KasmCloud
