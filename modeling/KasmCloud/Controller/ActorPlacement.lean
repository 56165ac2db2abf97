/-
KasmCloud.Controller.ActorPlacement — a host keeps an actor only while an
Actor object of that name assigns it to the host and waits for the cleanup.

The patch that removes a finalizer names an object and no version, so that of
a run on an old version may hit a newer object, of which another host is in
charge. `ownPatches` is the condition that it does not. Under it, in every
interleaving of any number of hosts, watches and restarts,

* every name a host keeps has a live object (`kept_of_live`), and
* where nothing fails either, every call loop serves one (`loops_of_live`).

`Controller/SingleHost.lean` has the case of one host.
-/
import KasmCloud.Controller.ActorFleet
import KasmCloud.Host.Names
import KasmCloud.Host.Presence

namespace KasmCloud

open Lib V1alpha1

/-! ## The condition and the invariant -/

section Definitions

variable {η : Type}

/-- A finalizer is removed from the object that the run was on. -/
def ownPatches (s : ActorFleet η) : ActorFleetStep η → Bool
  | .finish h name patched =>
    match (s.hosts h).runs.lookup name, s.objects.lookup name with
    | some seen, some o =>
      decide (patched = true → seen.event = .cleanup → o.finalizer = true → o.uid = seen.uid)
    | _, _ => true
  | _ => true

/-- The object of a name assigns it to this host, which is to clean up. -/
def ActorFleet.Assigned (s : ActorFleet η) (hostName name : String) : Prop :=
  ∃ o, s.objects.lookup name = some o ∧ o.spec.host = hostName ∧ o.finalizer = true

/-- A version of an object, of which the present one may be a later version. -/
structure ActorFleet.Version (s : ActorFleet η) (name : String) (seen : ActorObject) : Prop where
  issued : seen.uid < s.nextUid
  later : ∀ o, s.objects.lookup name = some o → o.uid = seen.uid →
    o.spec.host = seen.spec.host ∧ (seen.deleting = true → o.deleting = true)

/-- A cleanup in progress: the name goes, and the watch has no version from
before the deletion. -/
structure ActorHost.Cleans (v : ActorHost) (name : String) (seen : ActorObject) : Prop where
  removes : v.system.Removes name
  store : ∀ w, v.store.lookup name = some w → w.uid = seen.uid → w.deleting = true

/-- What holds of a run in progress. -/
structure ActorFleet.Runs (s : ActorFleet η) (hostName : String) (v : ActorHost) (name : String)
    (seen : ActorObject) : Prop where
  version : s.Version name seen
  own : seen.spec.host = hostName
  cleans : seen.event = .cleanup → v.Cleans name seen

/-- A host whose names are assigned to it, and whose watch agrees with the
objects as far as it would apply them. -/
structure ActorFleet.HostOk (s : ActorFleet η) (hostName : String) (v : ActorHost) : Prop where
  stored : ∀ name seen, v.store.lookup name = some seen → s.Version name seen
  awaits : ∀ name seen, v.store.lookup name = some seen → seen.event = .apply →
    seen.spec.host = hostName →
      ∃ o, s.objects.lookup name = some o ∧ o.uid = seen.uid ∧ o.finalizer = true
  runs : ∀ name seen, v.runs.lookup name = some seen → s.Runs hostName v name seen
  kept : ∀ name, v.system.Keeps name → s.Assigned hostName name

structure ActorFleetOk (hostName : η → String) (s : ActorFleet η) : Prop where
  issued : ∀ name o, s.objects.lookup name = some o → o.uid < s.nextUid
  hosts : ∀ h, s.HostOk (hostName h) (s.hosts h)

end Definitions

/-! ## The events -/

theorem ActorObject.event_apply {o : ActorObject} :
    o.event = .apply ↔ o.deleting = false ∧ o.finalizer = true := by
  unfold ActorObject.event
  cases o.deleting <;> cases o.finalizer <;> simp

theorem ActorObject.event_cleanup {o : ActorObject} :
    o.event = .cleanup ↔ o.deleting = true ∧ o.finalizer = true := by
  unfold ActorObject.event
  cases o.deleting <;> cases o.finalizer <;> simp

theorem ActorObject.event_addFinalizer {o : ActorObject} :
    o.event = .addFinalizer ↔ o.deleting = false ∧ o.finalizer = false := by
  unfold ActorObject.event
  cases o.deleting <;> cases o.finalizer <;> simp

theorem ownPatches_finish {η : Type} {s : ActorFleet η} {h : η} {name : String} {patched : Bool} :
    ownPatches s (.finish h name patched) = true ↔
      ∀ seen o, (s.hosts h).runs.lookup name = some seen → s.objects.lookup name = some o →
        patched = true → seen.event = .cleanup → o.finalizer = true → o.uid = seen.uid := by
  cases hseen : (s.hosts h).runs.lookup name with
  | none => simp [ownPatches, hseen]
  | some seen =>
    cases ho : s.objects.lookup name with
    | none => simp [ownPatches, hseen, ho]
    | some o =>
      simp only [ownPatches, hseen, ho, decide_eq_true_eq]
      constructor
      · rintro h _ _ ⟨⟩ ⟨⟩
        exact h
      · exact fun h => h seen o rfl rfl

/-! ## The objects change -/

section Objects

variable {η : Type} {hostName : η → String} {s s' : ActorFleet η}

/-- What becomes of an object: a later version of it, or a new one where
there was none. -/
def ActorFleet.Follows (s s' : ActorFleet η) (name : String) : Option ActorObject → Prop
  | some o' =>
    (∃ o, s.objects.lookup name = some o ∧ o'.uid = o.uid ∧ o'.spec.host = o.spec.host ∧
      (o.deleting = true → o'.deleting = true)) ∨
    s.objects.lookup name = none ∧ o'.uid = s.nextUid ∧ s.nextUid < s'.nextUid
  | none => True

/-- No host keeps the name, or is yet to apply its object. -/
def ActorFleet.Unheld (s : ActorFleet η) (hostName : η → String) (name : String) : Prop :=
  ∀ h, ¬ (s.hosts h).system.Keeps name ∧
    ∀ seen, (s.hosts h).store.lookup name = some seen → seen.event = .apply →
      seen.spec.host ≠ hostName h

/-- One object changes, and keeps its finalizer or is nobody's. -/
structure ActorFleet.Changes (s s' : ActorFleet η) (hostName : η → String) (name : String) :
    Prop where
  hosts : s'.hosts = s.hosts
  nextUid : s.nextUid ≤ s'.nextUid
  others : ∀ n, n ≠ name → s'.objects.lookup n = s.objects.lookup n
  follows : s.Follows s' name (s'.objects.lookup name)
  held : ∀ o, s.objects.lookup name = some o → o.finalizer = true →
    (∃ o', s'.objects.lookup name = some o' ∧ o'.uid = o.uid ∧ o'.spec.host = o.spec.host ∧
      o'.finalizer = true) ∨ s.Unheld hostName name

theorem ActorFleet.Changes.version {name n : String} (hc : s.Changes s' hostName name)
    {seen : ActorObject} (hseen : s.Version n seen) : s'.Version n seen := by
  refine ⟨lt_of_lt_of_le hseen.issued hc.nextUid, fun o' ho' huid => ?_⟩
  by_cases hn : n = name
  · subst hn
    have hfollows := hc.follows
    rw [ho'] at hfollows
    rcases hfollows with ⟨o, ho, hsame, hhost, hdeleting⟩ | ⟨-, hfresh, -⟩
    · obtain ⟨hhost', hdeleting'⟩ := hseen.later o ho (hsame ▸ huid)
      exact ⟨hhost.trans hhost', fun h => hdeleting (hdeleting' h)⟩
    · -- an object created now has a `uid` that no version has
      have hissued := hseen.issued
      omega
  · rw [hc.others n hn] at ho'
    exact hseen.later o' ho' huid

theorem actorFleetOk_changes (hok : ActorFleetOk hostName s) (name : String)
    (hc : s.Changes s' hostName name) : ActorFleetOk hostName s' := by
  refine ⟨fun n o' ho' => ?_, fun h => ?_⟩
  · by_cases hn : n = name
    · subst hn
      have hfollows := hc.follows
      rw [ho'] at hfollows
      rcases hfollows with ⟨o, ho, hsame, -, -⟩ | ⟨-, hfresh, hlt⟩
      · have hissued := hok.issued n o ho
        have hle := hc.nextUid
        omega
      · omega
    · rw [hc.others n hn] at ho'
      exact lt_of_lt_of_le (hok.issued n o' ho') hc.nextUid
  · have hhost := hok.hosts h
    rw [hc.hosts]
    refine ⟨fun n seen hseen => hc.version (hhost.stored n seen hseen),
      fun n seen hseen hevent hown => ?_, fun n seen hseen => ?_, fun n hkeeps => ?_⟩
    · obtain ⟨o, ho, huid, hfinalizer⟩ := hhost.awaits n seen hseen hevent hown
      by_cases hn : n = name
      · subst hn
        rcases hc.held o ho hfinalizer with ⟨o', ho', huid', -, hfinalizer'⟩ | hnobody
        · exact ⟨o', ho', huid'.trans huid, hfinalizer'⟩
        · exact absurd hown ((hnobody h).2 seen hseen hevent)
      · exact ⟨o, by rwa [hc.others n hn], huid, hfinalizer⟩
    · have hruns := hhost.runs n seen hseen
      exact ⟨hc.version hruns.version, hruns.own, hruns.cleans⟩
    · obtain ⟨o, ho, hown, hfinalizer⟩ := hhost.kept n hkeeps
      by_cases hn : n = name
      · subst hn
        rcases hc.held o ho hfinalizer with ⟨o', ho', -, hhost', hfinalizer'⟩ | hnobody
        · exact ⟨o', ho', hhost'.trans hown, hfinalizer'⟩
        · exact absurd hkeeps (hnobody h).1
      · exact ⟨o, by rwa [hc.others n hn], hown, hfinalizer⟩

/-- A later version takes the place of an object. -/
theorem actorFleetOk_replace (hok : ActorFleetOk hostName s) {name : String} {o o' : ActorObject}
    (ho : s.objects.lookup name = some o) (huid : o'.uid = o.uid)
    (hhost : o'.spec.host = o.spec.host) (hdeleting : o.deleting = true → o'.deleting = true)
    (hheld : o.finalizer = true → o'.finalizer = true ∨ s.Unheld hostName name) :
    ActorFleetOk hostName { s with objects := s.objects.insert name o' } := by
  refine actorFleetOk_changes hok name ⟨rfl, le_refl _, fun n hn => ?_, ?_, ?_⟩
  · simp [hn]
  · simp only [HashMap.lookup_insert_if, if_pos]
    exact .inl ⟨o, ho, huid, hhost, hdeleting⟩
  · intro o₀ ho₀ hfinalizer
    cases ho.symm.trans ho₀
    exact (hheld hfinalizer).imp_left fun hfinalizer' => ⟨o', by simp, huid, hhost, hfinalizer'⟩

theorem actorFleetOk_erase (hok : ActorFleetOk hostName s) {name : String} {o : ActorObject}
    (ho : s.objects.lookup name = some o)
    (hheld : o.finalizer = true → s.Unheld hostName name) :
    ActorFleetOk hostName { s with objects := s.objects.erase name } := by
  refine actorFleetOk_changes hok name ⟨rfl, le_refl _, fun n hn => ?_, ?_, ?_⟩
  · simp [hn]
  · simp [ActorFleet.Follows]
  · intro o₀ ho₀ hfinalizer
    cases ho.symm.trans ho₀
    exact .inr (hheld hfinalizer)

/-- A patch that keeps what a later version keeps. -/
theorem actorFleetOk_patch (hok : ActorFleetOk hostName s) {name : String} {patched : Bool}
    {f : ActorObject → Option ActorObject}
    (hsame : ∀ o o', f o = some o' → o'.uid = o.uid ∧ o'.spec = o.spec ∧ o'.deleting = o.deleting)
    (hheld : ∀ o, s.objects.lookup name = some o → o.finalizer = true → patched = true →
      (∃ o', f o = some o' ∧ o'.finalizer = true) ∨ s.Unheld hostName name) :
    ActorFleetOk hostName (s.patch name patched f) := by
  unfold ActorFleet.patch
  split
  · rename_i o ho
    split
    · rename_i hpatched
      have hheld := fun hfinalizer => hheld o ho hfinalizer hpatched
      split
      · rename_i o' ho'
        obtain ⟨huid, hspec, hdeleting⟩ := hsame o o' ho'
        refine actorFleetOk_replace hok ho huid (by rw [hspec]) (fun h => by rw [hdeleting, h])
          fun hfinalizer => (hheld hfinalizer).imp_left ?_
        rintro ⟨o₁, ho₁, hfinalizer₁⟩
        cases ho'.symm.trans ho₁
        exact hfinalizer₁
      · rename_i hgone
        refine actorFleetOk_erase hok ho fun hfinalizer => (hheld hfinalizer).resolve_left ?_
        rintro ⟨o₁, ho₁, -⟩
        rw [hgone] at ho₁
        cases ho₁
    · exact hok
  · exact hok

end Objects

/-! ## A host changes -/

section Hosts

variable {η : Type} {hostName : η → String} {s s' : ActorFleet η} {v v' : ActorHost}
  {host : String}

theorem ActorFleet.Version.congr (hobjects : s'.objects = s.objects)
    (hnext : s'.nextUid = s.nextUid) {name : String} {seen : ActorObject}
    (h : s.Version name seen) : s'.Version name seen :=
  ⟨hnext ▸ h.issued, hobjects ▸ h.later⟩

theorem ActorFleet.HostOk.congr (hobjects : s'.objects = s.objects)
    (hnext : s'.nextUid = s.nextUid) (h : s.HostOk host v) : s'.HostOk host v where
  stored n seen hseen := (h.stored n seen hseen).congr hobjects hnext
  awaits := by
    rw [hobjects]
    exact h.awaits
  runs n seen hseen :=
    have hruns := h.runs n seen hseen
    ⟨hruns.version.congr hobjects hnext, hruns.own, hruns.cleans⟩
  kept := by
    intro n hkeeps
    rw [ActorFleet.Assigned, hobjects]
    exact h.kept n hkeeps

@[simp] theorem ActorFleet.setHost_self [DecidableEq η] (s : ActorFleet η) (h : η)
    (v : ActorHost) : (s.setHost h v).hosts h = v := by
  simp [ActorFleet.setHost]

theorem ActorFleet.setHost_ne [DecidableEq η] (s : ActorFleet η) {h h' : η} (hne : h' ≠ h)
    (v : ActorHost) : (s.setHost h v).hosts h' = s.hosts h' := by
  simp [ActorFleet.setHost, Function.update_of_ne hne]

theorem actorFleetOk_setHost [DecidableEq η] (hok : ActorFleetOk hostName s) {h : η}
    (hv : s.HostOk (hostName h) v) : ActorFleetOk hostName (s.setHost h v) := by
  refine ⟨hok.issued, fun h' => ?_⟩
  by_cases heq : h' = h
  · subst heq
    rw [ActorFleet.setHost_self]
    exact ActorFleet.HostOk.congr (s := s) rfl rfl hv
  · rw [ActorFleet.setHost_ne s heq]
    exact ActorFleet.HostOk.congr (s := s) rfl rfl (hok.hosts h')

/-- What is delivered is as the objects are, and what is kept now was kept
before or is assigned. -/
theorem ActorFleet.HostOk.next (hissued : ∀ name o, s.objects.lookup name = some o →
      o.uid < s.nextUid) (h : s.HostOk host v)
    (hstore : ∀ n w, v'.store.lookup n = some w →
      v.store.lookup n = some w ∨ s.objects.lookup n = some w)
    (hruns : ∀ n w, v'.runs.lookup n = some w → s.Runs host v' n w)
    (hkeeps : ∀ n, v'.system.Keeps n → v.system.Keeps n ∨ s.Assigned host n) :
    s.HostOk host v' where
  stored n w hw := by
    rcases hstore n w hw with hold | hnow
    · exact h.stored n w hold
    · refine ⟨hissued n w hnow, fun o ho _ => ?_⟩
      cases hnow.symm.trans ho
      exact ⟨rfl, id⟩
  awaits n w hw hevent hown := by
    rcases hstore n w hw with hold | hnow
    · exact h.awaits n w hold hevent hown
    · exact ⟨w, hnow, rfl, (ActorObject.event_apply.mp hevent).2⟩
  runs := hruns
  kept n hn := (hkeeps n hn).elim (h.kept n) id

theorem hostOk_new (s : ActorFleet η) (host latticePrefix : String) :
    s.HostOk host (.new latticePrefix) where
  stored := by rintro name seen ⟨⟩
  awaits := by rintro name seen ⟨⟩
  runs := by rintro name seen ⟨⟩
  kept := by
    rintro name (hkey | ⟨key, ref, hreg, -⟩ | ⟨call, hcall, -⟩)
    · exact absurd rfl hkey
    · cases hreg
    · cases hcall

/-- A cleanup goes on while the watch delivers what there is. -/
theorem ActorHost.Cleans.observe {name : String} {seen : ActorObject} (h : v.Cleans name seen)
    (hversion : s.Version name seen) (hdeleting : seen.deleting = true)
    (hremoves : v'.system.Removes name)
    (hstore : ∀ w, v'.store.lookup name = some w →
      v.store.lookup name = some w ∨ s.objects.lookup name = some w) : v'.Cleans name seen := by
  refine ⟨hremoves, fun w hw huid => ?_⟩
  rcases hstore w hw with hold | hnow
  · exact h.store w hold huid
  · exact (hversion.later w hnow huid).2 hdeleting

/-- The runs that are in progress go on. -/
theorem ActorFleet.HostOk.runs_of (h : s.HostOk host v)
    (hruns : ∀ n w, v'.runs.lookup n = some w → v.runs.lookup n = some w)
    (hstore : ∀ n w, v'.store.lookup n = some w →
      v.store.lookup n = some w ∨ s.objects.lookup n = some w)
    (hremoves : ∀ n w, v'.runs.lookup n = some w → v.system.Removes n → v'.system.Removes n)
    (n : String) (w : ActorObject) (hw : v'.runs.lookup n = some w) : s.Runs host v' n w := by
  have hold := h.runs n w (hruns n w hw)
  refine ⟨hold.version, hold.own, fun hevent => ?_⟩
  have hcleans := hold.cleans hevent
  exact hcleans.observe hold.version (ActorObject.event_cleanup.mp hevent).1
    (hremoves n w hw hcleans.removes) fun w' => hstore n w'

end Hosts

/-! ## Steps keep the invariant -/

section Steps

variable {sha256 : String → String} {η : Type} {hostName : η → String} {latticePrefix : String}
  {s s' : ActorFleet η} {v v' : ActorHost}

theorem start_cases {host name : String} {fetched : Except String WasmActor}
    (hs : v.start sha256 host name fetched = some v') :
    v' = v ∨ ∃ seen, v.runs.lookup name = none ∧ v.store.lookup name = some seen ∧
      seen.spec.host = host ∧ seen.event ≠ .ignore ∧
      ((seen.call name fetched = none ∧ v' = { v with runs := v.runs.insert name seen }) ∨
        ∃ call system, seen.call name fetched = some call ∧
          v.system.step sha256 call = some system ∧
          v' = { v with system, runs := v.runs.insert name seen }) := by
  simp only [ActorHost.start] at hs
  split at hs
  · rename_i seen hfree hseen
    split at hs
    · exact .inl (Option.some.inj hs).symm
    · rename_i hown
      simp only [ActorHost.begin] at hs
      split at hs
      · exact .inl (Option.some.inj hs).symm
      · rename_i call hcall hevent
        obtain ⟨system, hsystem, rfl⟩ := Option.map_eq_some_iff.mp hs
        exact .inr ⟨seen, hfree, hseen, not_not.mp hown, hevent,
          .inr ⟨call, system, hcall, hsystem, rfl⟩⟩
      · rename_i hcall hevent
        exact .inr ⟨seen, hfree, hseen, not_not.mp hown, hevent,
          .inl ⟨hcall, (Option.some.inj hs).symm⟩⟩
  · cases hs

/-- Nothing but a call that begins brings a host to keep a name. -/
theorem hostOk_system {host : String} (hissued : ∀ name o, s.objects.lookup name = some o →
      o.uid < s.nextUid) (hrouted : Routed sha256 v.system) (hplaced : KeysPlaced v.system)
    (hok : s.HostOk host v) {step : SystemStep} {system : System}
    (hs : v.system.step sha256 step = some system)
    (hne : ∀ name actorRef fetched replica, step ≠ .reconcileActor name actorRef fetched replica) :
    s.HostOk host { v with system } := by
  refine hok.next hissued (fun n w hw => .inl hw) (hok.runs_of (fun n w hw => hw)
    (fun n w hw => .inl hw) fun n w _ hremoves => ?_) fun n hkeeps => ?_
  · exact removes_step hrouted hplaced (hne n) hs hremoves
  · rcases keeps_step hrouted hplaced hs hkeeps with hold | ⟨actorRef, fetched, replica, hstep⟩
    · exact .inl hold
    · exact absurd hstep (hne n actorRef fetched replica)

theorem hostOk_start {host : String} (hissued : ∀ name o, s.objects.lookup name = some o →
      o.uid < s.nextUid) (hrouted : Routed sha256 v.system) (hplaced : KeysPlaced v.system)
    (hok : s.HostOk host v) {name : String} {fetched : Except String WasmActor}
    (hs : v.start sha256 host name fetched = some v') : s.HostOk host v' := by
  obtain rfl | ⟨seen, hfree, hseen, hown, hevent, hbegun⟩ := start_cases hs
  · exact hok
  -- the other runs go on, and the one on `name` begins
  have hruns : ∀ system, (∀ n, n ≠ name → v.system.Removes n → system.Removes n) →
      (seen.event = .cleanup → system.Removes name) →
      ∀ n w, (v.runs.insert name seen).lookup n = some w →
        s.Runs host { v with system, runs := v.runs.insert name seen } n w := by
    intro system hothers hself n w hw
    rw [HashMap.lookup_insert_if] at hw
    split at hw
    · rename_i hn
      cases hw
      subst hn
      refine ⟨hok.stored n seen hseen, hown, fun hcleanup => ⟨hself hcleanup, fun w hw _ => ?_⟩⟩
      cases hseen.symm.trans hw
      exact (ActorObject.event_cleanup.mp hcleanup).1
    · rename_i hn
      have hold := hok.runs n w hw
      exact ⟨hold.version, hold.own, fun hcleanup =>
        ⟨hothers n hn (hold.cleans hcleanup).removes, (hold.cleans hcleanup).store⟩⟩
  rcases hbegun with ⟨hcall, rfl⟩ | ⟨call, system, hcall, hsystem, rfl⟩
  · refine hok.next hissued (fun n w hw => .inl hw) (hruns v.system (fun _ _ h => h) ?_)
      fun n hn => .inl hn
    intro hcleanup
    simp [ActorObject.call, hcleanup] at hcall
  · unfold ActorObject.call at hcall
    split at hcall
    · -- the call is one of `reconcile_actor`
      rename_i happly
      cases hcall
      refine hok.next hissued (fun n w hw => .inl hw) (hruns system (fun n hn => ?_) ?_)
        fun n hn => ?_
      · refine removes_step hrouted hplaced (fun actorRef fetched' replica heq => hn ?_) hsystem
        cases heq
        rfl
      · intro hcleanup
        rw [happly] at hcleanup
        cases hcleanup
      · rcases keeps_step hrouted hplaced hsystem hn with hold | ⟨actorRef, fetched', replica, heq⟩
        · exact .inl hold
        · cases heq
          obtain ⟨o, ho, huid, hfinalizer⟩ := hok.awaits name seen hseen happly hown
          have hsame := ((hok.stored name seen hseen).later o ho huid).1
          exact .inr ⟨o, ho, hsame.trans hown, hfinalizer⟩
    · -- the call is one of `remove_actor`
      cases hcall
      refine hok.next hissued (fun n w hw => .inl hw) (hruns system (fun n _ => ?_) fun _ =>
        removes_removeActor hsystem) fun n hn => ?_
      · exact removes_step hrouted hplaced (by intros; nofun) hsystem
      · rcases keeps_step hrouted hplaced hsystem hn with hold | ⟨actorRef, fetched', replica, heq⟩
        · exact .inl hold
        · cases heq
    · cases hcall
    · cases hcall

theorem removeFinalizer_same {o o' : ActorObject} (h : o.removeFinalizer = some o') :
    o'.uid = o.uid ∧ o'.spec = o.spec ∧ o'.deleting = o.deleting := by
  unfold ActorObject.removeFinalizer at h
  split at h
  · split at h
    · cases h
    · cases h
      exact ⟨rfl, rfl, rfl⟩
  · cases h
    exact ⟨rfl, rfl, rfl⟩

/-- The object that a cleanup was on is nobody's when the call has returned. -/
theorem unheld_of_cleaned (hinj : Function.Injective hostName) (hok : ActorFleetOk hostName s)
    {h : η} (hplaced : KeysPlaced (s.hosts h).system) {name : String} {seen o : ActorObject}
    (hseen : (s.hosts h).runs.lookup name = some seen)
    (hfree : (s.hosts h).system.actorCalls.lookup name = none) (hevent : seen.event = .cleanup)
    (ho : s.objects.lookup name = some o) (huid : o.uid = seen.uid) :
    s.Unheld hostName name := by
  have hrun := (hok.hosts h).runs name seen hseen
  have hcleans := hrun.cleans hevent
  have hown : o.spec.host = hostName h := (hrun.version.later o ho huid).1.trans hrun.own
  intro h'
  refine ⟨fun hkeeps => ?_, fun w hw happly hown' => ?_⟩
  · obtain ⟨o', ho', hown', -⟩ := (hok.hosts h').kept name hkeeps
    cases ho.symm.trans ho'
    cases hinj (hown'.symm.trans hown)
    exact hcleans.removes.not_keeps hplaced hfree hkeeps
  · obtain ⟨o', ho', huid', -⟩ := (hok.hosts h').awaits name w hw happly hown'
    cases ho.symm.trans ho'
    have hsame := (((hok.hosts h').stored name w hw).later o ho huid').1
    cases hinj ((hown'.symm.trans hsame.symm).trans hown)
    have hdeleting := hcleans.store w hw (huid'.symm.trans huid)
    rw [(ActorObject.event_apply.mp happly).1] at hdeleting
    cases hdeleting

variable [DecidableEq η]

theorem actorFleetOk_finish (hinj : Function.Injective hostName) (hok : ActorFleetOk hostName s)
    {h : η} (hplaced : KeysPlaced (s.hosts h).system) {name : String} {seen : ActorObject}
    {patched : Bool} (hseen : (s.hosts h).runs.lookup name = some seen)
    (hfree : (s.hosts h).system.actorCalls.lookup name = none)
    (hpatch : ownPatches s (.finish h name patched) = true) :
    ActorFleetOk hostName (s.finish h name seen patched) := by
  have hended : s.HostOk (hostName h)
      { s.hosts h with runs := (s.hosts h).runs.erase name } := by
    refine (hok.hosts h).next hok.issued (fun n w hw => .inl hw)
      ((hok.hosts h).runs_of (fun n w hw => ?_) (fun n w hw => .inl hw) fun n w _ hr => hr)
      fun n hn => .inl hn
    rw [HashMap.lookup_erase_if] at hw
    split at hw
    · cases hw
    · exact hw
  have hokay := actorFleetOk_setHost hok hended
  unfold ActorFleet.finish
  simp only
  split
  · refine actorFleetOk_patch hokay ?_ fun o ho hfinalizer _ => .inl ⟨_, rfl, ?_⟩
    · rintro o _ ⟨⟩
      unfold ActorObject.addFinalizer
      split <;> exact ⟨rfl, rfl, rfl⟩
    · unfold ActorObject.addFinalizer
      split
      · exact hfinalizer
      · rfl
  · rename_i hevent
    refine actorFleetOk_patch hokay (fun o o' => removeFinalizer_same) fun o ho hfinalizer hp => ?_
    have huid := ownPatches_finish.mp hpatch seen o hseen ho hp hevent hfinalizer
    have hunheld := unheld_of_cleaned hinj hok hplaced hseen hfree hevent ho huid
    refine .inr fun h' => ?_
    by_cases heq : h' = h
    · subst heq
      rw [ActorFleet.setHost_self]
      exact hunheld h'
    · rw [ActorFleet.setHost_ne s heq]
      exact hunheld h'
  · exact hokay
  · exact hokay

theorem actorFleetOk_step (hinj : Function.Injective hostName)
    (hrouted : ∀ h, Routed sha256 (s.hosts h).system) (hplaced : ∀ h, KeysPlaced (s.hosts h).system)
    (hok : ActorFleetOk hostName s) {step : ActorFleetStep η} (hpatch : ownPatches s step = true)
    (hs : s.step sha256 hostName latticePrefix step = some s') : ActorFleetOk hostName s' := by
  cases step with
  | create name spec =>
    simp only [ActorFleet.step] at hs
    split at hs
    · rename_i hnone
      split at hs
      · cases hs
        refine actorFleetOk_changes hok name ⟨rfl, Nat.le_succ _, fun n hn => ?_, ?_, ?_⟩
        · simp [hn]
        · simp only [HashMap.lookup_insert_if, if_pos]
          exact .inr ⟨hnone, rfl, Nat.lt_succ_self _⟩
        · intro o ho
          rw [hnone] at ho
          cases ho
      · cases hs
    · cases hs
  | update name spec =>
    simp only [ActorFleet.step] at hs
    split at hs
    · rename_i o ho
      split at hs
      · rename_i hadmits
        cases hs
        have hsame : spec.host = o.spec.host := by
          simp only [ActorObject.admits, Actor.validateUpdate, immutable_eq_nil,
            decide_eq_true_eq] at hadmits
          exact hadmits.2
        exact actorFleetOk_replace hok ho rfl hsame id .inl
      · cases hs
    · cases hs
  | delete name =>
    simp only [ActorFleet.step] at hs
    split at hs
    · rename_i o ho
      split at hs
      · cases hs
        exact actorFleetOk_replace hok ho rfl rfl (fun _ => rfl) .inl
      · rename_i hfinalizer
        cases hs
        exact actorFleetOk_erase hok ho fun hfinalizer' => absurd hfinalizer' hfinalizer
    · cases hs
  | observe h name =>
    simp only [ActorFleet.step] at hs
    have hstored : ∀ store : HashMap String ActorObject,
        (∀ n w, store.lookup n = some w →
          (s.hosts h).store.lookup n = some w ∨ s.objects.lookup n = some w) →
        ActorFleetOk hostName (s.setHost h { s.hosts h with store }) := fun store hstore =>
      actorFleetOk_setHost hok ((hok.hosts h).next hok.issued hstore
        ((hok.hosts h).runs_of (fun n w hw => hw) hstore fun n w _ hr => hr) fun n hn => .inl hn)
    split at hs
    · rename_i o ho
      cases hs
      refine hstored _ fun n w hw => ?_
      rw [HashMap.lookup_insert_if] at hw
      split at hw
      · rename_i hn
        cases hw
        exact .inr (hn ▸ ho)
      · exact .inl hw
    · cases hs
      refine hstored _ fun n w hw => ?_
      rw [HashMap.lookup_erase_if] at hw
      split at hw
      · cases hw
      · exact .inl hw
  | start h name fetched =>
    obtain ⟨v', hstart, rfl⟩ := Option.map_eq_some_iff.mp hs
    exact actorFleetOk_setHost hok
      (hostOk_start hok.issued (hrouted h) (hplaced h) (hok.hosts h) hstart)
  | actorSection h name failAt =>
    obtain ⟨system, hsystem, rfl⟩ := Option.map_eq_some_iff.mp hs
    exact actorFleetOk_setHost hok
      (hostOk_system hok.issued (hrouted h) (hplaced h) (hok.hosts h) hsystem (by intros; nofun))
  | finish h name patched =>
    simp only [ActorFleet.step] at hs
    split at hs
    · rename_i seen hseen hfree
      cases hs
      exact actorFleetOk_finish hinj hok (hplaced h) hseen hfree hpatch
    · cases hs
  | links h step =>
    simp only [ActorFleet.step] at hs
    split at hs
    · rename_i hlinks
      obtain ⟨system, hsystem, rfl⟩ := Option.map_eq_some_iff.mp hs
      refine actorFleetOk_setHost hok
        (hostOk_system hok.issued (hrouted h) (hplaced h) (hok.hosts h) hsystem ?_)
      rintro name actorRef fetched replica rfl
      cases hlinks
    · cases hs
  | restart h =>
    cases hs
    exact actorFleetOk_setHost hok (hostOk_new s _ latticePrefix)

end Steps

/-! ## The systems of the hosts -/

section Systems

variable {sha256 : String → String} {η : Type} [DecidableEq η] {hostName : η → String}
  {latticePrefix : String} {s s' : ActorFleet η}

/-- The step that a step of the fleet is for the tables of a host. -/
def ActorFleet.systemStep (hostName : η → String) (s : ActorFleet η) :
    ActorFleetStep η → Option (η × SystemStep)
  | .start h name fetched =>
    match (s.hosts h).runs.lookup name, (s.hosts h).store.lookup name with
    | none, some seen =>
      if seen.spec.host ≠ hostName h then none else (seen.call name fetched).map (h, ·)
    | _, _ => none
  | .actorSection h name failAt => some (h, .actorSection name failAt)
  | .links h step => some (h, step)
  | _ => none

omit [DecidableEq η] in
theorem patch_system (s : ActorFleet η) (name : String) (patched : Bool)
    (f : ActorObject → Option ActorObject) (h : η) :
    (s.patch name patched f).hosts h = s.hosts h := by
  unfold ActorFleet.patch
  split
  · split
    · split <;> rfl
    · rfl
  · rfl

theorem finish_system (s : ActorFleet η) (h h' : η) (name : String) (seen : ActorObject)
    (patched : Bool) : ((s.finish h name seen patched).hosts h').system = (s.hosts h').system := by
  have hset : ((s.setHost h { s.hosts h with runs := (s.hosts h).runs.erase name }).hosts
      h').system = (s.hosts h').system := by
    by_cases heq : h' = h
    · subst heq
      rw [ActorFleet.setHost_self]
    · rw [ActorFleet.setHost_ne s heq]
  unfold ActorFleet.finish
  simp only
  split
  · rwa [patch_system]
  · rwa [patch_system]
  · exact hset
  · exact hset

/-- Setting one host moves its system by a step and leaves the others. -/
theorem setHost_system {h h' : η} {v : ActorHost} {call : SystemStep}
    (hv : (s.hosts h).system.step sha256 call = some v.system) :
    ((s.setHost h v).hosts h').system = (s.hosts h').system ∨
      h' = h ∧ (s.hosts h').system.step sha256 call = some ((s.setHost h v).hosts h').system := by
  by_cases heq : h' = h
  · subst heq
    rw [ActorFleet.setHost_self]
    exact .inr ⟨rfl, hv⟩
  · rw [ActorFleet.setHost_ne s heq]
    exact .inl rfl

/-- A step of the fleet leaves the tables of a host alone, makes one step of
them, or starts the host again. -/
theorem system_of_step {step : ActorFleetStep η}
    (hs : s.step sha256 hostName latticePrefix step = some s') (h : η) :
    (s'.hosts h).system = (s.hosts h).system ∨ (s'.hosts h).system = .new latticePrefix ∨
      ∃ call, s.systemStep hostName step = some (h, call) ∧
        (s.hosts h).system.step sha256 call = some (s'.hosts h).system := by
  cases step with
  | create name spec =>
    simp only [ActorFleet.step] at hs
    split at hs
    · split at hs <;> cases hs
      exact .inl rfl
    · cases hs
  | update name spec =>
    simp only [ActorFleet.step] at hs
    split at hs
    · split at hs <;> cases hs
      exact .inl rfl
    · cases hs
  | delete name =>
    simp only [ActorFleet.step] at hs
    split at hs
    · split at hs <;> cases hs <;> exact .inl rfl
    · cases hs
  | observe i name =>
    have hset : ∀ store : HashMap String ActorObject,
        ((s.setHost i { s.hosts i with store }).hosts h).system = (s.hosts h).system := by
      intro store
      by_cases heq : h = i
      · subst heq
        rw [ActorFleet.setHost_self]
      · rw [ActorFleet.setHost_ne s heq]
    simp only [ActorFleet.step] at hs
    split at hs <;> cases hs <;> exact .inl (hset _)
  | start i name fetched =>
    obtain ⟨v', hstart, rfl⟩ := Option.map_eq_some_iff.mp hs
    have hnone : v'.system = (s.hosts i).system →
        ((s.setHost i v').hosts h).system = (s.hosts h).system := by
      intro hsame
      by_cases heq : h = i
      · subst heq
        rw [ActorFleet.setHost_self, hsame]
      · rw [ActorFleet.setHost_ne s heq]
    obtain rfl | ⟨seen, hfree, hseen, hown, -, ⟨-, rfl⟩ | ⟨call, system, hcall, hsystem, rfl⟩⟩ :=
      start_cases hstart
    · exact .inl (hnone rfl)
    · exact .inl (hnone rfl)
    · refine (setHost_system hsystem).imp_right fun ⟨heq, hstep⟩ => .inr ⟨call, ?_, hstep⟩
      simp [ActorFleet.systemStep, hfree, hseen, hown, hcall, heq]
  | actorSection i name failAt =>
    obtain ⟨system, hsystem, rfl⟩ := Option.map_eq_some_iff.mp hs
    exact (setHost_system hsystem).imp_right fun ⟨heq, hstep⟩ =>
      .inr ⟨_, by rw [heq, ActorFleet.systemStep], hstep⟩
  | finish i name patched =>
    simp only [ActorFleet.step] at hs
    split at hs <;> cases hs
    exact .inl (finish_system s i h name _ patched)
  | links i step =>
    simp only [ActorFleet.step] at hs
    split at hs
    · obtain ⟨system, hsystem, rfl⟩ := Option.map_eq_some_iff.mp hs
      exact (setHost_system hsystem).imp_right fun ⟨heq, hstep⟩ =>
        .inr ⟨_, by rw [heq, ActorFleet.systemStep], hstep⟩
    · cases hs
  | restart i =>
    cases hs
    by_cases heq : h = i
    · subst heq
      rw [ActorFleet.setHost_self]
      exact .inr (.inl rfl)
    · rw [ActorFleet.setHost_ne s heq]
      exact .inl rfl

/-- Every host runs as `hostMachine` does, and under the same condition. -/
theorem hosts_run {ok : System → SystemStep → Prop} {tr : List (ActorFleetStep η)}
    (h : (actorFleetMachine sha256 hostName latticePrefix).RunWhen
      (fun s step => ∀ i call, s.systemStep hostName step = some (i, call) →
        ok (s.hosts i).system call) tr s) (i : η) :
    ∃ tr', (hostMachine sha256 latticePrefix).RunWhen ok tr' (s.hosts i).system := by
  refine h.invariant (I := fun s =>
    ∃ tr', (hostMachine sha256 latticePrefix).RunWhen ok tr' (s.hosts i).system) ⟨[], .nil⟩ ?_
  rintro s step s' ⟨tr', hrun⟩ hok hs
  rcases system_of_step hs i with hsame | hnew | ⟨call, hcall, hstep⟩
  · exact ⟨tr', hsame ▸ hrun⟩
  · exact ⟨[], hnew ▸ .nil⟩
  · exact ⟨_, hrun.snoc (hok i call hcall) hstep⟩

theorem hosts_reachable
    (h : (actorFleetMachine sha256 hostName latticePrefix).Reachable s) (i : η) :
    (hostMachine sha256 latticePrefix).Reachable (s.hosts i).system := by
  obtain ⟨tr, hrun⟩ := h
  exact hosts_run (hrun.mono fun _ _ _ _ _ _ => trivial) i

theorem actorFleetOk_of_run (hinj : Function.Injective hostName) {tr : List (ActorFleetStep η)}
    (h : (actorFleetMachine sha256 hostName latticePrefix).RunWhen
      (fun s step => ownPatches s step = true) tr s) :
    ActorFleetOk hostName s := by
  refine h.induction (I := fun _ => ActorFleetOk hostName) ?_ ?_
  · exact ⟨by rintro name o ⟨⟩, fun i => hostOk_new _ _ latticePrefix⟩
  · intro tr s step s' hrun hok hpatch hs
    have hreach := hosts_reachable hrun.reachable
    exact actorFleetOk_step hinj (fun i => routed_of_reachable (hreach i))
      (fun i => keysPlaced_of_reachable (hreach i)) hok hpatch hs

end Systems

/-! ## Results -/

/-- **Kept names have live objects**: whatever is in a table of a host, or on
its way there, is the name of an Actor object that is assigned to the host and
still waits for its cleanup. -/
theorem kept_of_live (sha256 : String → String) {η : Type} [DecidableEq η]
    (hostName : η → String) (hinj : Function.Injective hostName) (latticePrefix : String)
    {tr : List (ActorFleetStep η)} {s : ActorFleet η}
    (h : (actorFleetMachine sha256 hostName latticePrefix).RunWhen
      (fun s step => ownPatches s step = true) tr s) :
    ∀ i name, (s.hosts i).system.Keeps name → s.Assigned (hostName i) name :=
  fun i => ((actorFleetOk_of_run hinj h).hosts i).kept

/-- A host adds the finalizer to an object, and applies it. -/
def applied {η : Type} (h : η) (name : String) : List (ActorFleetStep η) :=
  [.observe h name, .start h name (.ok imageM), .finish h name true,
    .observe h name, .start h name (.ok imageM), .actorSection h name none,
    .actorSection h name none, .actorSection h name none, .actorSection h name none,
    .finish h name true]

def placementHosts (h : Bool) : String := if h then "a" else "b"

/-- A host cleans up a deleted object that it has applied. -/
def cleaned {η : Type} (h : η) (name : String) : List (ActorFleetStep η) :=
  [.observe h name, .start h name (.ok imageM), .actorSection h name none,
    .actorSection h name none, .actorSection h name none, .finish h name true]

/-- An Actor is created and applied, deleted and cleaned up, and another one of
its name is created and applied. -/
def placementRun : List (ActorFleetStep Bool) :=
  .create "one" ⟨"a", "image", 1⟩ :: applied true "one" ++
    .delete "one" :: cleaned true "one" ++
    .create "one" ⟨"a", "image", 1⟩ :: applied true "one"

theorem placementRun_kept :
    ∃ s, (actorFleetMachine id placementHosts "default").RunWhen
        (fun s step => ownPatches s step = true) placementRun s ∧
      (s.hosts true).system.Keeps "one" ∧ s.Assigned "a" "one" ∧ s.nextUid = 2 := by
  have hboth : ((actorFleetMachine id placementHosts "default").execWhen ownPatches
      (.new "default") placementRun).map (fun s =>
        (((s.hosts true).system.host.actorKeys.lookup "one").isSome, s.nextUid)) =
      some (true, 2) := by decide
  obtain ⟨s, hexec, hboth⟩ := Option.map_eq_some_iff.mp hboth
  obtain ⟨hkey, huid⟩ := Prod.mk.injEq .. ▸ hboth
  have hrun := Machine.runWhen_of_execWhen hexec
  have hkeeps : (s.hosts true).system.Keeps "one" := .inl (Option.isSome_iff_ne_none.mp hkey)
  exact ⟨s, hrun, hkeeps,
    kept_of_live id placementHosts (by decide) "default" hrun true "one" hkeeps, huid⟩

/-- Host `a` cleans up once more what it has cleaned up already; meanwhile an
Actor of the name is created for host `b`, and applied there. Then the patch
of host `a` goes through, and the Actor is deleted. -/
def stalePatchRun : List (ActorFleetStep Bool) :=
  [.create "one" ⟨"a", "image", 1⟩, .observe true "one", .start true "one" (.ok imageM),
    .finish true "one" true, .delete "one", .observe true "one",
    .start true "one" (.ok imageM), .actorSection true "one" none, .finish true "one" true,
    .start true "one" (.ok imageM), .actorSection true "one" none,
    .create "one" ⟨"b", "image", 1⟩] ++ applied false "one" ++
  [.finish true "one" true, .delete "one"]

/-- Host `b` keeps an actor of which there is no object. -/
theorem stalePatchRun_kept :
    ∃ s, (actorFleetMachine id placementHosts "default").Run stalePatchRun s ∧
      (s.hosts false).system.Keeps "one" ∧ s.objects.lookup "one" = none := by
  have hkey : ((actorFleetMachine id placementHosts "default").exec (.new "default")
      stalePatchRun).map (fun s => (((s.hosts false).system.host.actorKeys.lookup "one").isSome,
        (s.objects.lookup "one").isNone)) = some (true, true) := by decide
  obtain ⟨s, hexec, hboth⟩ := Option.map_eq_some_iff.mp hkey
  obtain ⟨hkey, hgone⟩ := Prod.mk.injEq .. ▸ hboth
  exact ⟨s, Machine.run_of_exec hexec, .inl (Option.isSome_iff_ne_none.mp hkey),
    Option.isNone_iff_eq_none.mp hgone⟩

/-- The condition of the run, and that nothing fails in the step of a host and
no group is unregistered under a call. -/
def ActorFleet.settlingStep {η : Type} (hostName : η → String) (s : ActorFleet η)
    (step : ActorFleetStep η) : Bool :=
  ownPatches s step &&
    match s.systemStep hostName step with
    | some (i, call) => KasmCloud.settlingStep (s.hosts i).system call
    | none => true

/-- **Call loops have live objects**: where moreover nothing fails and no
group is unregistered under a call, every call loop that runs on a host is one
of an actor in a registered group whose object is live. -/
theorem loops_of_live (sha256 : String → String) {η : Type} [DecidableEq η] (hostName : η → String)
    (hinj : Function.Injective hostName) (latticePrefix : String)
    {tr : List (ActorFleetStep η)} {s : ActorFleet η}
    (h : (actorFleetMachine sha256 hostName latticePrefix).RunWhen
      (fun s step => s.settlingStep hostName step = true) tr s) :
    ∀ i id, id ∈ (s.hosts i).system.host.loops → ∃ key g name a inst,
      (s.hosts i).system.host.group? key = some g ∧ g.actors.lookup name = some a ∧
        inst ∈ a.instances ∧ inst.id = id ∧ s.Assigned (hostName i) name := by
  intro i id hloop
  have hown := actorFleetOk_of_run hinj (h.mono fun _ _ hok => (Bool.and_eq_true_iff.mp hok).1)
  have hrun : ∃ tr', (hostMachine sha256 latticePrefix).RunWhen
      (fun s call => KasmCloud.settlingStep s call = true) tr' (s.hosts i).system := by
    refine hosts_run (h.mono fun s step hok j call hcall => ?_) i
    have hsettling := (Bool.and_eq_true_iff.mp hok).2
    rwa [hcall] at hsettling
  obtain ⟨tr', hrun⟩ := hrun
  have hsteady := steady_of_run hrun
  obtain ⟨ref, name, hid⟩ := (hsteady.loops.mem_iff id).mp hloop
  obtain ⟨inst, hinst, hid⟩ := List.mem_map.mp hid
  cases ha : (s.hosts i).system.host.actorAt ref name with
  | none =>
    rw [instancesAt_of_none ha] at hinst
    cases hinst
  | some a =>
    rw [instancesAt_of_some ha] at hinst
    obtain ⟨key, hkey, hreg⟩ := hsteady.placed.member ref name a ha
    obtain ⟨g, hg, hmem⟩ := Option.bind_eq_some_iff.mp ha
    have hkept := (hown.hosts i).kept name (.inl (by simp [hkey]))
    exact ⟨key, g, name, a, inst, by simp [Host.group?, hreg, hg], hmem, hinst, hid, hkept⟩

theorem placementRun_loops :
    ∃ s, (actorFleetMachine id placementHosts "default").RunWhen
        (fun s step => s.settlingStep placementHosts step = true) placementRun s ∧
      0 ∉ (s.hosts true).system.host.loops ∧ 1 ∈ (s.hosts true).system.host.loops ∧
      s.Assigned "a" "one" := by
  have hrun : ((actorFleetMachine id placementHosts "default").execWhen
      (ActorFleet.settlingStep placementHosts) (.new "default") placementRun).map (fun s =>
        (decide (0 ∉ (s.hosts true).system.host.loops),
          decide (1 ∈ (s.hosts true).system.host.loops), s.objects.keys)) =
      some (true, true, ["one"]) := by decide
  obtain ⟨s, hexec, hall⟩ := Option.map_eq_some_iff.mp hrun
  obtain ⟨hgone, hboth⟩ := Prod.mk.injEq .. ▸ hall
  obtain ⟨hloop, hkeys⟩ := Prod.mk.injEq .. ▸ hboth
  have hrun := Machine.runWhen_of_execWhen hexec
  obtain ⟨-, -, name, -, -, -, -, -, -, o, ho, hassigned⟩ := loops_of_live id placementHosts
    (by decide) "default" hrun true 1 (of_decide_eq_true hloop)
  have hname : name ∈ s.objects.keys := AList.mem_keys.mp (AList.lookup_isSome.mp (by simp [ho]))
  rw [hkeys, List.mem_singleton] at hname
  subst hname
  exact ⟨s, hrun, of_decide_eq_true hgone, of_decide_eq_true hloop, o, ho, hassigned⟩

end KasmCloud
