/-
KasmCloud.Controller.ProviderRemoval — what is left of a Provider when it is
deleted.

`delete_provider` stops the instance under the public key that the status
names, which is the key of the last image whose status could be stored. What
runs was decided by every image that could be started: a new key starts a
process beside the old one, and does so for a moment even if that start
fails after the spawn.

A history is a list of `ProviderEvent`s of one object. `Ledger` is an
account of it that looks at the answers of the surroundings only; `Tracks`
says that a world agrees with it, and every event keeps that. The object
leaves nothing behind exactly when its ledger is `Clean`
(`providerRemoved_iff`).
-/
import KasmCloud.Controller.WorldTheorems

namespace KasmCloud

open Lib V1alpha1

/-! ## Histories -/

/-- Something that happens to a Provider before it is deleted. -/
inductive ProviderEvent where
  | image (providerRef : String)
  | reconcile (fetched : Except String ProviderImage) (failure : Option StartFailure)
      (patched : Bool)

/-- The step it is for the Provider of a name and spec. Host and link cannot
be changed. -/
def ProviderEvent.step (name : String) (spec : ProviderSpec) : ProviderEvent → WorldStep
  | .image providerRef => .applyProvider name { spec with image := providerRef }
  | .reconcile fetched failure patched => .reconcileProvider name fetched failure patched

section Sha256

variable (sha256 : String → String)

/-- Take the events in order. -/
def World.events (w : World) (name : String) (spec : ProviderSpec) :
    List ProviderEvent → Option World
  | [] => some w
  | e :: es => (w.step sha256 (e.step name spec)).bind fun w' => w'.events name spec es

/-- The events `es` of the Provider `name`, from `w` on, and its deletion: at
no time do two of the processes they start run, not even within a run, and
afterwards none does and none is recorded. -/
structure NothingLeft (w : World) (name : String) (spec : ProviderSpec)
    (es : List ProviderEvent) (shutdown : ShutdownOutcome) : Prop where
  single : ∃ w₁ effects, w.events sha256 name spec es = some w₁ ∧
    w₁.host.processEffects = w.host.processEffects ++ effects ∧ SingleRunning ∅ effects
  gone : ∃ w₁ w₂, w.events sha256 name spec es = some w₁ ∧
    w₁.step sha256 (.deleteProvider name shutdown) = some w₂ ∧
    (∀ pid ∈ w₂.host.processes, pid ∈ w.host.processes) ∧
    ∀ key linkName i, w₂.host.instance? key linkName = some i →
      w.host.instance? key linkName = some i

end Sha256

/-! ## Ledgers -/

/-- The public keys a process was started for, latest first; whether a start
failed after the spawn while another process ran; and the key in the status
that is stored. -/
structure Ledger where
  started : List String
  crowded : Bool
  published : Option String
  deriving DecidableEq, Repr

/-- `taken` tells the keys that had an instance before. A start for a known
key needs nothing; for another it must not fail. Only a start that returned
`Ok` publishes. -/
def Ledger.note (taken : String → Bool) (l : Ledger) : ProviderEvent → Ledger
  | .image _ => l
  | .reconcile fetched failure patched =>
    match fetched with
    | .error _ => l
    | .ok image =>
      let key := image.claims.subject
      let published := if patched then some key else l.published
      if taken key || decide (key ∈ l.started) then { l with published }
      else
        match failure with
        | none => { l with started := key :: l.started, published }
        | some failure =>
          { l with crowded := l.crowded || (failure.spawned && !l.started.isEmpty) }

/-- The ledger of a history that starts in `w`. -/
def World.ledger (w : World) (p : V1alpha1.Provider) (es : List ProviderEvent) : Ledger :=
  es.foldl (Ledger.note fun key => (w.host.instance? key p.spec.link).isSome)
    ⟨[], false, p.status.map (·.publicKey)⟩

/-- No process was started, or one whose key is published, and none was
spawned beside it. -/
def Ledger.Clean (l : Ledger) : Prop :=
  l.crowded = false ∧
    (l.started = [] ∨ ∃ key, key ≠ "" ∧ l.started = [key] ∧ l.published = some key)

/-! ## The world agrees with the ledger -/

/-- The effects since `w₀`: one process runs for each started key, and the
ledger knows whether two ever ran at once. -/
def Accounted (w₀ : World) (l : Ledger) (w : World) : Prop :=
  ∃ new, w.host.processEffects = w₀.host.processEffects ++ new ∧
    (runningAfter ∅ new).card = l.started.length ∧
    (∀ pid ∈ runningAfter ∅ new, pid < w.host.nextId) ∧
    (SingleRunning ∅ new ↔ l.started.length ≤ 1 ∧ l.crowded = false)

theorem Accounted.same {w₀ w w' : World} {l l' : Ledger} (h : Accounted w₀ l w)
    (heffects : w'.host.processEffects = w.host.processEffects)
    (hnext : w.host.nextId ≤ w'.host.nextId) (hstarted : l'.started = l.started)
    (hcrowded : l'.crowded = l.crowded) : Accounted w₀ l' w' := by
  obtain ⟨new, hnew, hcard, hused, hsingle⟩ := h
  rw [Accounted, heffects, hstarted, hcrowded]
  exact ⟨new, hnew, hcard, fun pid hpid => lt_of_lt_of_le (hused pid hpid) hnext, hsingle⟩

/-- A start whose instance is missing. -/
theorem Accounted.start {w₀ w w' : World} {l l' : Ledger} (h : Accounted w₀ l w)
    {linkName : String} {image : ProviderImage} {failure : Option StartFailure}
    (heffects : w'.host.processEffects =
      w.host.processEffects ++ w.host.startEffects linkName image failure)
    (hnext : w.host.nextId ≤ w'.host.nextId)
    (hchild : failure = none → w.host.nextId + 1 < w'.host.nextId)
    (hlength : l'.started.length = if failure = none then l.started.length + 1 else l.started.length)
    (hsingle : l'.started.length ≤ 1 ∧ l'.crowded = false ↔
      (l.started.length ≤ 1 ∧ l.crowded = false) ∧
        ((∃ f, failure = some f ∧ f.spawned = false) ∨ l.started = [])) :
    Accounted w₀ l' w' := by
  obtain ⟨new, hnew, hcard, hused, hbefore⟩ := h
  obtain ⟨hafter, hstart⟩ := startEffects_running hused linkName image failure
  have hrunning : runningAfter ∅ (new ++ w.host.startEffects linkName image failure) =
      if failure = none then insert (w.host.nextId + 1) (runningAfter ∅ new)
      else runningAfter ∅ new := by
    rw [← hafter]
    exact List.foldl_append
  have hempty : runningAfter ∅ new = ∅ ↔ l.started = [] := by
    rw [← Finset.card_eq_zero, hcard, List.length_eq_zero_iff]
  refine ⟨new ++ w.host.startEffects linkName image failure, ?_, ?_, ?_, ?_⟩
  · rw [heffects, hnew, List.append_assoc]
  · have hfresh : w.host.nextId + 1 ∉ runningAfter ∅ new := fun hin =>
      absurd (hused _ hin) (Nat.not_lt.mpr (Nat.le_succ w.host.nextId))
    rw [hrunning, hlength]
    by_cases hlaunched : failure = none
    · rw [if_pos hlaunched, if_pos hlaunched, Finset.card_insert_of_notMem hfresh, hcard]
    · rw [if_neg hlaunched, if_neg hlaunched, hcard]
  · intro pid hpid
    rw [hrunning] at hpid
    split at hpid
    · rename_i hlaunched
      rcases Finset.mem_insert.mp hpid with rfl | hpid
      · exact hchild hlaunched
      · exact lt_of_lt_of_le (hused pid hpid) hnext
    · exact lt_of_lt_of_le (hused pid hpid) hnext
  · rw [singleRunning_append, hstart, hbefore, hsingle, hcard, hempty]
    exact and_congr_right fun hb => and_iff_right hb.1

/-- `w` was reached from `w₀` by events of the Provider `name` (whose host and
link are those of `spec`) that the ledger `l` accounts for. -/
structure Tracks (w₀ : World) (name : String) (spec : ProviderSpec) (l : Ledger) (w : World) :
    Prop where
  object : ∃ p, w.providers.lookup name = some p ∧ p.spec.host = spec.host ∧
    p.spec.link = spec.link ∧ p.status.map (·.publicKey) = l.published
  ok : ProvidersOk w.host
  later : w₀.host.nextId ≤ w.host.nextId
  nodup : l.started.Nodup
  own : ∀ key ∈ l.started, w₀.host.instance? key spec.link = none ∧
    ∃ i, w.host.instance? key spec.link = some i ∧ i.child ∈ w.host.processes ∧
      w₀.host.nextId ≤ i.child
  rest : ∀ key linkName, ¬ (linkName = spec.link ∧ key ∈ l.started) →
    w.host.instance? key linkName = w₀.host.instance? key linkName
  processes : ∀ pid ∈ w.host.processes, pid ∈ w₀.host.processes ∨
    ∃ key ∈ l.started, ∃ i, w.host.instance? key spec.link = some i ∧ i.child = pid
  effects : Accounted w₀ l w

section Tracks

variable {w₀ w : World} {name : String} {spec : ProviderSpec} {l : Ledger}

/-- A key has an instance if it had one before or was started. -/
theorem Tracks.known (h : Tracks w₀ name spec l w) (key : String) :
    ((w₀.host.instance? key spec.link).isSome || decide (key ∈ l.started)) =
      (w.host.instance? key spec.link).isSome := by
  by_cases hkey : key ∈ l.started
  · obtain ⟨-, i, hi, -⟩ := h.own key hkey
    simp [hkey, hi]
  · rw [h.rest key spec.link fun hin => hkey hin.2]
    simp [hkey]

theorem Tracks.unchanged (h : Tracks w₀ name spec l w) {w' : World} {crowded : Bool}
    {published : Option String}
    (hobject : ∃ p, w'.providers.lookup name = some p ∧ p.spec.host = spec.host ∧
      p.spec.link = spec.link ∧ p.status.map (·.publicKey) = published)
    (hsame : Unchanged w.host w'.host)
    (heffects : Accounted w₀ ⟨l.started, crowded, published⟩ w') :
    Tracks w₀ name spec ⟨l.started, crowded, published⟩ w' where
  object := hobject
  ok := h.ok.unchanged hsame
  later := h.later.trans hsame.nextId
  nodup := h.nodup
  own key hkey := by
    rw [hsame.instances, hsame.processes]
    exact h.own key hkey
  rest key linkName hnot := by
    rw [hsame.instances]
    exact h.rest key linkName hnot
  processes pid hpid := by
    rw [hsame.processes] at hpid
    simp only [hsame.instances]
    exact h.processes pid hpid
  effects := heffects

theorem Tracks.launched (h : Tracks w₀ name spec l w) {w' : World} {key : String}
    {published : Option String}
    (hobject : ∃ p, w'.providers.lookup name = some p ∧ p.spec.host = spec.host ∧
      p.spec.link = spec.link ∧ p.status.map (·.publicKey) = published)
    (hfree : w.host.instance? key spec.link = none) {i : ProviderInstance}
    (hnew : Launched w.host w'.host key spec.link i)
    (heffects : Accounted w₀ ⟨key :: l.started, l.crowded, published⟩ w') :
    Tracks w₀ name spec ⟨key :: l.started, l.crowded, published⟩ w' := by
  have hunknown : w₀.host.instance? key spec.link = none ∧ key ∉ l.started := by
    have hknown := h.known key
    rw [hfree] at hknown
    simpa using hknown
  have hold {k lk : String} {j : ProviderInstance} (hj : w.host.instance? k lk = some j) :
      w'.host.instance? k lk = some j := by
    rw [hnew.instances, if_neg]
    · exact hj
    · rintro ⟨rfl, rfl⟩
      rw [hfree] at hj
      cases hj
  have hhere : w'.host.instance? key spec.link = some i := by rw [hnew.instances]; simp
  refine ⟨hobject, h.ok.launched hnew, ?_, ?_, fun k hk => ?_, fun k lk hnot => ?_,
    fun pid hpid => ?_, heffects⟩
  · exact h.later.trans (hnew.new.trans hnew.nextId.le)
  · exact List.nodup_cons.mpr ⟨hunknown.2, h.nodup⟩
  · rcases List.mem_cons.mp hk with rfl | hk
    · refine ⟨hunknown.1, i, hhere, ?_, h.later.trans hnew.new⟩
      rw [hnew.processes]
      exact Finset.mem_insert_self _ _
    · obtain ⟨hnone, j, hj, halive, hnewer⟩ := h.own k hk
      refine ⟨hnone, j, hold hj, ?_, hnewer⟩
      rw [hnew.processes]
      exact Finset.mem_insert_of_mem halive
  · rw [hnew.instances, if_neg]
    · exact h.rest k lk fun hin => hnot ⟨hin.1, List.mem_cons_of_mem _ hin.2⟩
    · rintro ⟨rfl, rfl⟩
      exact hnot ⟨rfl, List.mem_cons_self⟩
  · rw [hnew.processes, Finset.mem_insert] at hpid
    rcases hpid with rfl | hpid
    · exact .inr ⟨key, List.mem_cons_self, i, hhere, rfl⟩
    · refine (h.processes pid hpid).imp_right ?_
      rintro ⟨k, hk, j, hj, rfl⟩
      exact ⟨k, List.mem_cons_of_mem _ hk, j, hold hj, rfl⟩

variable (sha256 : String → String)

/-- The note of one event. -/
theorem Tracks.step (h : Tracks w₀ name spec l w) (e : ProviderEvent) :
    ∃ w', w.step sha256 (e.step name spec) = some w' ∧
      Tracks w₀ name spec
        (l.note (fun key => (w₀.host.instance? key spec.link).isSome) e) w' := by
  obtain ⟨p, hp, hhost, hlink, hpublished⟩ := h.object
  cases e with
  | image providerRef =>
    have hadmitted : V1alpha1.Provider.validateUpdate
        { p with spec := { spec with image := providerRef } } p = [] := by
      simp [V1alpha1.Provider.validateUpdate, immutable, hhost, hlink]
    refine ⟨{ w with
      providers := w.providers.insert name { p with spec := { spec with image := providerRef } } },
      ?_, ?_⟩
    · simp only [ProviderEvent.step, World.step, World.applyProvider, hp, if_pos hadmitted]
    · exact h.unchanged ⟨_, AList.lookup_insert .., rfl, rfl, hpublished⟩ (.refl w.host)
        (h.effects.same rfl le_rfl rfl rfl)
  | reconcile fetched failure patched =>
    have hstep : ∃ w', w.step sha256 (.reconcileProvider name fetched failure patched) = some w' := by
      simp [World.step, hp]
    obtain ⟨w', hs⟩ := hstep
    refine ⟨w', hs, ?_⟩
    obtain ⟨g, hg, hhost', hproviders⟩ := step_reconcileProvider hs
    cases hp.symm.trans hg
    have hobject {patch : Option ProviderStatus} {published : Option String}
        (hpatch : (reconcileProvider w.host p fetched failure).patch = patch)
        (hkey : (patchStatus p.status patch patched).map (·.publicKey) = published) :
        ∃ p', w'.providers.lookup name = some p' ∧ p'.spec.host = spec.host ∧
          p'.spec.link = spec.link ∧ p'.status.map (·.publicKey) = published := by
      rw [hpatch] at hproviders
      rw [hproviders]
      exact ⟨_, AList.lookup_insert .., hhost, hlink, hkey⟩
    have hpublishes (status : ProviderStatus) :
        (patchStatus p.status (if p.status = some status then none else some status) patched).map
          (·.publicKey) = if patched then some status.publicKey else l.published := by
      rw [patchStatus_unless]
      split
      · rfl
      · exact hpublished
    have heffects : w'.host.processEffects =
        (w.host.startProvider p.spec.link p.spec.image fetched failure).1.processEffects := by
      rw [hhost', reconcileProvider_host]
    rw [startProvider_effects, hlink] at heffects
    rcases reconcileProvider_cases h.ok.used p fetched failure with
      ⟨e, rfl, hpatch, hsame⟩ | ⟨image, rfl, ⟨hnone, hfailed, hpatch, hsame⟩ |
        ⟨hpatch, ⟨⟨i, hi⟩, hsame⟩ | ⟨hnone, rfl, i, hchild, hnew⟩⟩⟩
    · rw [← hhost'] at hsame
      rw [List.append_nil] at heffects
      exact h.unchanged (hobject hpatch hpublished) hsame
        (h.effects.same heffects hsame.nextId rfl rfl)
    · have hknown := h.known image.claims.subject
      rw [hlink] at hnone
      dsimp only at heffects
      rw [hnone] at hknown heffects
      rw [← hhost'] at hsame
      obtain ⟨f, rfl⟩ := Option.ne_none_iff_exists'.mp hfailed
      simp only [Ledger.note, hknown]
      refine h.unchanged (hobject hpatch hpublished) hsame
        (h.effects.start heffects hsame.nextId (by simp) rfl ?_)
      cases hspawned : f.spawned <;> simp [hspawned, and_assoc]
    · have hknown := h.known image.claims.subject
      rw [hlink] at hi
      dsimp only at heffects
      rw [hi] at hknown heffects
      rw [← hhost'] at hsame
      rw [List.append_nil] at heffects
      simp only [Ledger.note, hknown]
      refine h.unchanged (hobject hpatch ?_) hsame (h.effects.same heffects hsame.nextId rfl rfl)
      simpa using hpublishes (providerStatus image.claims)
    · have hknown := h.known image.claims.subject
      rw [hlink] at hnone
      dsimp only at heffects
      rw [hnone] at hknown heffects
      rw [← hhost', hlink] at hnew
      simp only [Ledger.note, hknown]
      refine h.launched (hobject hpatch ?_) hnone hnew
        (h.effects.start heffects (hnew.new.trans hnew.nextId.le) (fun _ => hchild ▸ hnew.nextId)
          rfl ?_)
      · simpa using hpublishes (providerStatus image.claims)
      · cases l.started <;> simp

/-- The ledger of a history. -/
theorem Tracks.events (h : Tracks w₀ name spec l w) (es : List ProviderEvent) :
    ∃ w', w.events sha256 name spec es = some w' ∧
      Tracks w₀ name spec
        (es.foldl (Ledger.note fun key => (w₀.host.instance? key spec.link).isSome) l) w' := by
  induction es generalizing w l with
  | nil => exact ⟨w, rfl, h⟩
  | cons e es ih =>
    obtain ⟨w₁, hs, h₁⟩ := h.step sha256 e
    obtain ⟨w', hrest, h'⟩ := ih h₁
    refine ⟨w', ?_, h'⟩
    rw [World.events, hs, Option.bind_some]
    exact hrest

/-- A Provider at the start of its history. -/
theorem Tracks.start (hok : ProvidersOk w.host) {p : V1alpha1.Provider}
    (hp : w.providers.lookup name = some p) :
    Tracks w name p.spec ⟨[], false, p.status.map (·.publicKey)⟩ w where
  object := ⟨p, hp, rfl, rfl, rfl⟩
  ok := hok
  later := le_rfl
  nodup := List.nodup_nil
  own key hkey := by cases hkey
  rest key linkName _ := rfl
  processes pid hpid := .inl hpid
  effects := ⟨[], (List.append_nil _).symm, rfl, by simp [runningAfter], by simp [SingleRunning]⟩

end Tracks

/-! ## The deletion -/

section Deletion

variable {sha256 : String → String} {w₀ w w' : World} {name : String} {spec : ProviderSpec}
  {l : Ledger} {shutdown : ShutdownOutcome}

/-- The deletion of a clean ledger leaves nothing. -/
theorem Tracks.delete_clean (h : Tracks w₀ name spec l w) (hclean : l.Clean)
    (hs : w.step sha256 (.deleteProvider name shutdown) = some w') :
    (∀ pid ∈ w'.host.processes, pid ∈ w₀.host.processes) ∧
      ∀ key linkName i, w'.host.instance? key linkName = some i →
        w₀.host.instance? key linkName = some i := by
  obtain ⟨p, hp, -, hlink, hpublished⟩ := h.object
  obtain ⟨g, hg, -, hdeleted⟩ := step_deleteProvider hs
  cases hp.symm.trans hg
  -- what is there afterwards was there before, but not at a key and link that was stopped
  have hfewer : (∀ pid ∈ w'.host.processes, pid ∈ w.host.processes) ∧
      ∀ key linkName i, w'.host.instance? key linkName = some i →
        w.host.instance? key linkName = some i := by
    rcases hdeleted with ⟨-, hhost⟩ | ⟨status, -, -, hgone⟩
    · rw [hhost]
      exact ⟨fun _ h => h, fun _ _ _ h => h⟩
    · refine ⟨fun pid hpid => ?_, fun key linkName i hi => ?_⟩
      · rw [hgone.processes] at hpid
        split at hpid
        · exact Finset.mem_of_mem_erase hpid
        · exact hpid
      · rw [hgone.instances] at hi
        split at hi
        · cases hi
        · exact hi
  rcases hclean.2 with hnone | ⟨key, hkey, hone, hkeypub⟩
  · refine ⟨fun pid hpid => ?_, fun key linkName i hi => ?_⟩
    · refine (h.processes pid (hfewer.1 pid hpid)).resolve_right ?_
      rintro ⟨k, hk, -⟩
      rw [hnone] at hk
      cases hk
    · rw [← h.rest key linkName (by simp [hnone])]
      exact hfewer.2 key linkName i hi
  · have hstatus : ∃ status, p.status = some status ∧ status.publicKey = key :=
      Option.map_eq_some_iff.mp (hpublished.trans hkeypub)
    obtain ⟨status, hstatus, rfl⟩ := hstatus
    have hgone : Halted w.host w'.host status.publicKey spec.link := by
      rcases hdeleted with ⟨hempty, -⟩ | ⟨status', hstatus', -, hgone⟩
      · exact absurd (hempty status hstatus) hkey
      · cases hstatus.symm.trans hstatus'
        rwa [hlink] at hgone
    obtain ⟨-, i, hi, -⟩ := h.own status.publicKey (by simp [hone])
    have hprocesses := hgone.processes
    rw [hi] at hprocesses
    refine ⟨fun pid hpid => ?_, fun k lk j hj => ?_⟩
    · rw [hprocesses, Finset.mem_erase] at hpid
      refine (h.processes pid hpid.2).resolve_right ?_
      rintro ⟨k, hk, j, hj, rfl⟩
      rw [hone] at hk
      cases List.mem_singleton.mp hk
      cases hi.symm.trans hj
      exact hpid.1 rfl
    · rw [hgone.instances] at hj
      split at hj
      · cases hj
      · rename_i hother
        rw [← h.rest k lk fun hin => hother ?_]
        · exact hj
        · rw [hone] at hin
          exact ⟨List.mem_singleton.mp hin.2, hin.1⟩

/-- A deletion that leaves no instance of a started key stopped that key. -/
theorem Tracks.delete_gone (h : Tracks w₀ name spec l w)
    (hs : w.step sha256 (.deleteProvider name shutdown) = some w')
    (hgone : ∀ key linkName i, w'.host.instance? key linkName = some i →
      w₀.host.instance? key linkName = some i) {key : String} (hkey : key ∈ l.started) :
    key ≠ "" ∧ l.published = some key := by
  obtain ⟨p, hp, -, hlink, hpublished⟩ := h.object
  obtain ⟨hnone, i, hi, -⟩ := h.own key hkey
  have hstopped : w'.host.instance? key spec.link = none := by
    cases hat : w'.host.instance? key spec.link with
    | none => rfl
    | some j =>
      have hbefore := hgone key spec.link j hat
      rw [hnone] at hbefore
      cases hbefore
  obtain ⟨g, hg, -, ⟨-, hhost⟩ | ⟨status, hstatus, hne, hhalted⟩⟩ := step_deleteProvider hs
  · rw [hhost, hi] at hstopped
    cases hstopped
  · cases hp.symm.trans hg
    have hsame : key = status.publicKey := by
      by_contra hother
      rw [hhalted.instances, if_neg (fun hin => hother hin.1), hi] at hstopped
      cases hstopped
    rw [hsame]
    exact ⟨hne, by rw [← hpublished, hstatus]; rfl⟩

end Deletion

/-- A Provider leaves nothing behind exactly when all its runs that started a
process started it for one public key, and this key is in the status that is
stored when it is deleted. -/
theorem providerRemoved_iff {sha256 : String → String} {latticePrefix : String} {w : World}
    (hw : (worldMachine sha256 latticePrefix).Reachable w) {name : String}
    {p : V1alpha1.Provider} (hp : w.providers.lookup name = some p) (es : List ProviderEvent)
    (shutdown : ShutdownOutcome) :
    NothingLeft sha256 w name p.spec es shutdown ↔ (w.ledger p es).Clean := by
  obtain ⟨w₁, hes, htracks⟩ :=
    (Tracks.start (providersOk_of_reachable hw) hp).events sha256 es
  change Tracks w name p.spec (w.ledger p es) w₁ at htracks
  obtain ⟨new, hnew, -, -, hsingle⟩ := htracks.effects
  constructor
  · intro hleft
    obtain ⟨w₁', effects, hes', heffects, hone⟩ := hleft.single
    cases hes.symm.trans hes'
    cases List.append_cancel_left (hnew.symm.trans heffects)
    obtain ⟨hshort, hcrowded⟩ := hsingle.mp hone
    obtain ⟨w₁', w₂, hes', hs, -, hgone⟩ := hleft.gone
    cases hes.symm.trans hes'
    refine ⟨hcrowded, ?_⟩
    match hstarted : (w.ledger p es).started with
    | [] => exact .inl rfl
    | [key] =>
      have hkey : key ∈ (w.ledger p es).started := by simp [hstarted]
      obtain ⟨hne, hpublished⟩ := htracks.delete_gone hs hgone hkey
      exact .inr ⟨key, hne, rfl, hpublished⟩
    | key :: key' :: keys =>
      rw [hstarted] at hshort
      simp at hshort
  · intro hclean
    have hshort : (w.ledger p es).started.length ≤ 1 := by
      rcases hclean.2 with hnone | ⟨key, -, hkey, -⟩
      · simp [hnone]
      · simp [hkey]
    have hdelete : ∃ w₂, w₁.step sha256 (.deleteProvider name shutdown) = some w₂ := by
      obtain ⟨q, hq, -⟩ := htracks.object
      simp [World.step, hq]
    obtain ⟨w₂, hs⟩ := hdelete
    exact ⟨⟨w₁, new, hes, hnew, hsingle.mpr ⟨hshort, hclean.1⟩⟩,
      w₁, w₂, hes, hs, htracks.delete_clean hclean hs⟩

/-! ## A Provider whose image changes -/

/-- An image of the provider of a public key. -/
def keyedImage (key : String) : ProviderImage where
  path := "/providers/" ++ key
  claims := ⟨"A", key, 0, none, none, none⟩

def changingProvider : V1alpha1.Provider := ⟨"provider", ⟨"host", "image", "default"⟩, none⟩

/-- The object is created. -/
def createdWorld : World :=
  { World.new "default" with
    providers := (∅ : HashMap String V1alpha1.Provider).insert "provider" changingProvider }

theorem createdWorld_reachable : (worldMachine id "default").Reachable createdWorld :=
  ⟨[.applyProvider "provider" changingProvider.spec], Machine.run_of_exec rfl⟩

/-- Its image is replaced by one of another key. -/
def changedImage : List ProviderEvent :=
  [.reconcile (.ok (keyedImage "V")) none true, .image "other",
    .reconcile (.ok (keyedImage "W")) none true]

/-- The first process and its instance are left. -/
theorem changedImage_left :
    ∃ w p, (worldMachine id "default").Reachable w ∧ w.providers.lookup "provider" = some p ∧
      ¬ NothingLeft id w "provider" p.spec changedImage .answered := by
  refine ⟨createdWorld, changingProvider, createdWorld_reachable, by decide, fun hleft => ?_⟩
  have hbefore : createdWorld.host.instance? "V" "default" = none := by decide
  have hafter : ((createdWorld.events id "provider" changingProvider.spec changedImage).bind
      fun w => w.step id (.deleteProvider "provider" .answered)).map
        (fun w => (w.host.instance? "V" "default").isSome) = some true := by decide
  obtain ⟨w₁, w₂, hes, hs, -, hgone⟩ := hleft.gone
  rw [hes, Option.bind_some, hs, Option.map_some, Option.some.injEq,
    Option.isSome_iff_exists] at hafter
  obtain ⟨i, hi⟩ := hafter
  rw [hgone "V" "default" i hi] at hbefore
  cases hbefore

/-- With one image nothing is left. -/
theorem singleImage_removed :
    NothingLeft id createdWorld "provider" changingProvider.spec
      [.reconcile (.ok (keyedImage "V")) none true] .answered := by
  have hledger : createdWorld.ledger changingProvider
      [.reconcile (.ok (keyedImage "V")) none true] = ⟨["V"], false, some "V"⟩ := by decide
  refine (providerRemoved_iff createdWorld_reachable (by decide) _ _).mpr ?_
  rw [hledger]
  exact ⟨rfl, .inr ⟨"V", by decide, rfl, rfl⟩⟩

end KasmCloud
