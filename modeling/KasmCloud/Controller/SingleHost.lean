/-
KasmCloud.Controller.SingleHost — a cluster with one host.

With no other host about, no patch hits an object of which another is in
charge, and the host itself adds no finalizer while it removes one. So
`ownPatches` holds of every run: old versions in the watch, failing patches
and restarts do no harm (`single_host_kept`).
-/
import KasmCloud.Controller.ActorPlacement

namespace KasmCloud

open Lib V1alpha1

/-! ## One host -/

section OneHost

variable {sha256 : String → String} {hostName : Unit → String} {latticePrefix : String}
  {s s' : ActorFleet Unit}

/-- No finalizer is there yet, or none any more, that the watch has seen. -/
def ActorFleet.Bare (s : ActorFleet Unit) (name : String) : Prop :=
  (∀ o, s.objects.lookup name = some o → o.finalizer = false) ∧
    ∀ seen, (s.hosts ()).runs.lookup name = some seen → seen.event ≠ .addFinalizer

/-- With one host, a finalizer that the watch has seen is that of the object,
or has been removed and not added again; so a cleanup is on its object. -/
structure OneHostOk (s : ActorFleet Unit) : Prop where
  stored : ∀ name seen, (s.hosts ()).store.lookup name = some seen → seen.finalizer = true →
    (∃ o, s.objects.lookup name = some o ∧ o.uid = seen.uid ∧ o.finalizer = true) ∨ s.Bare name
  cleanups : ∀ name seen, (s.hosts ()).runs.lookup name = some seen → seen.event = .cleanup →
    ∀ o, s.objects.lookup name = some o → o.finalizer = true → o.uid = seen.uid

theorem OneHostOk.ownPatches (h : OneHostOk s) (step : ActorFleetStep Unit) :
    ownPatches s step = true := by
  cases step with
  | finish i name patched =>
    exact ownPatches_finish.mpr fun seen o hseen ho _ hevent hfinalizer =>
      h.cleanups name seen hseen hevent o ho hfinalizer
  | _ => rfl

/-- The objects change, and the finalizers stay where they are. -/
theorem OneHostOk.objects (h : OneHostOk s) (hhosts : s'.hosts = s.hosts)
    (hstays : ∀ name o, s.objects.lookup name = some o → o.finalizer = true →
      ∃ o', s'.objects.lookup name = some o' ∧ o'.uid = o.uid ∧ o'.finalizer = true)
    (hthere : ∀ name o', s'.objects.lookup name = some o' → o'.finalizer = true →
      ∃ o, s.objects.lookup name = some o ∧ o'.uid = o.uid ∧ o.finalizer = true) :
    OneHostOk s' where
  stored := by
    intro name seen hseen hfinalizer
    rw [hhosts] at hseen
    rcases h.stored name seen hseen hfinalizer with ⟨o, ho, huid, hf⟩ | ⟨hbare, hruns⟩
    · obtain ⟨o', ho', huid', hf'⟩ := hstays name o ho hf
      exact .inl ⟨o', ho', huid'.trans huid, hf'⟩
    · refine .inr ⟨fun o' ho' => Bool.eq_false_iff.mpr fun hf' => ?_, by rwa [hhosts]⟩
      obtain ⟨o, ho, -, hf⟩ := hthere name o' ho' hf'
      rw [hbare o ho] at hf
      cases hf
  cleanups := by
    intro name seen hseen hevent o' ho' hf'
    rw [hhosts] at hseen
    obtain ⟨o, ho, huid, hf⟩ := hthere name o' ho' hf'
    exact huid.trans (h.cleanups name seen hseen hevent o ho hf)

/-- An object is as it was, but for its spec and the deletion. -/
theorem OneHostOk.replaced (h : OneHostOk s) {name : String} {o o' : ActorObject}
    (ho : s.objects.lookup name = some o) (huid : o'.uid = o.uid)
    (hfinalizer : o'.finalizer = o.finalizer) :
    OneHostOk { s with objects := s.objects.insert name o' } := by
  refine h.objects rfl (fun n w hw hf => ?_) fun n w hw hf => ?_
  · by_cases hn : n = name
    · subst hn
      cases ho.symm.trans hw
      exact ⟨o', by simp, huid, hfinalizer.trans hf⟩
    · exact ⟨w, by simpa [hn] using hw, rfl, hf⟩
  · rw [HashMap.lookup_insert_if] at hw
    split at hw
    · rename_i hn
      cases hw
      exact ⟨o, hn ▸ ho, huid, hfinalizer.symm.trans hf⟩
    · exact ⟨w, hw, rfl, hf⟩

/-- A run in progress was there before, or has begun on what was delivered. -/
theorem lookup_insert_cases {v : ActorHost} {name n : String} {seen w : ActorObject}
    (hseen : v.store.lookup name = some seen)
    (hw : (v.runs.insert name seen).lookup n = some w) :
    v.runs.lookup n = some w ∨ v.store.lookup n = some w ∧ v.store.lookup n = some w := by
  rw [HashMap.lookup_insert_if] at hw
  split at hw
  · rename_i hn
    cases hw
    rw [hn]
    exact .inr ⟨hseen, hseen⟩
  · exact .inl hw

/-- The host changes, and no run that adds a finalizer begins. -/
theorem OneHostOk.host (h : OneHostOk s) {v : ActorHost}
    (hstore : ∀ n w, v.store.lookup n = some w →
      (s.hosts ()).store.lookup n = some w ∨ s.objects.lookup n = some w)
    (hruns : ∀ n w, v.runs.lookup n = some w → (s.hosts ()).runs.lookup n = some w ∨
      (s.hosts ()).store.lookup n = some w ∧ v.store.lookup n = some w) :
    OneHostOk (s.setHost () v) where
  stored := by
    intro name seen hseen hfinalizer
    rw [ActorFleet.setHost_self] at hseen
    rcases hstore name seen hseen with hold | hnow
    · refine (h.stored name seen hold hfinalizer).imp_right fun ⟨hbare, hadds⟩ => ⟨hbare, ?_⟩
      intro w hw hadd
      rw [ActorFleet.setHost_self] at hw
      rcases hruns name w hw with hbefore | ⟨-, hw'⟩
      · exact hadds w hbefore hadd
      · -- the version it would be on has the finalizer
        cases hseen.symm.trans hw'
        rw [(ActorObject.event_addFinalizer.mp hadd).2] at hfinalizer
        cases hfinalizer
    · exact .inl ⟨seen, hnow, rfl, hfinalizer⟩
  cleanups := by
    intro name seen hseen hevent o ho hf
    rw [ActorFleet.setHost_self] at hseen
    rcases hruns name seen hseen with hbefore | ⟨hw, -⟩
    · exact h.cleanups name seen hbefore hevent o ho hf
    · have hfinalizer := (ActorObject.event_cleanup.mp hevent).2
      rcases h.stored name seen hw hfinalizer with ⟨o', ho', huid, -⟩ | ⟨hbare, -⟩
      · cases ho'.symm.trans ho
        exact huid
      · rw [hbare o ho] at hf
        cases hf

theorem patch_lookup (s : ActorFleet Unit) (name n : String) (patched : Bool)
    (f : ActorObject → Option ActorObject) :
    (s.patch name patched f).objects.lookup n =
      if n = name ∧ patched = true then (s.objects.lookup name).bind f
      else s.objects.lookup n := by
  unfold ActorFleet.patch
  by_cases hn : n = name
  · subst hn
    cases ho : s.objects.lookup n with
    | none => simp [ho]
    | some o => cases patched <;> cases hf : f o <;> simp [ho, hf]
  · cases s.objects.lookup name with
    | none => simp [hn]
    | some o => cases patched <;> cases hf : f o <;> simp [hn, hf]

/-- A run ends: its object has the finalizer that the watch has seen, or none. -/
theorem OneHostOk.ended (h : OneHostOk s) (name : String)
    (hstore : (s'.hosts ()).store = (s.hosts ()).store)
    (hruns : (s'.hosts ()).runs = (s.hosts ()).runs.erase name)
    (hothers : ∀ n, n ≠ name → s'.objects.lookup n = s.objects.lookup n)
    (hname : ∀ w, (s.hosts ()).store.lookup name = some w → w.finalizer = true →
      (∃ o, s'.objects.lookup name = some o ∧ o.uid = w.uid ∧ o.finalizer = true) ∨
        ∀ o, s'.objects.lookup name = some o → o.finalizer = false) : OneHostOk s' where
  stored := by
    intro n w hw hfinalizer
    rw [hstore] at hw
    by_cases hn : n = name
    · subst hn
      refine (hname w hw hfinalizer).imp_right fun hbare => ⟨hbare, ?_⟩
      intro seen hseen
      rw [hruns] at hseen
      simp at hseen
    · rcases h.stored n w hw hfinalizer with ⟨o, ho, hsame⟩ | ⟨hbare, hadds⟩
      · exact .inl ⟨o, by rwa [hothers n hn], hsame⟩
      · refine .inr ⟨by rwa [hothers n hn], fun seen hseen => hadds seen ?_⟩
        rwa [hruns, HashMap.lookup_erase_if, if_neg hn] at hseen
  cleanups := by
    intro n seen hseen hevent
    rw [hruns, HashMap.lookup_erase_if] at hseen
    split at hseen
    · cases hseen
    · rename_i hn
      rw [hothers n hn]
      exact h.cleanups n seen hseen hevent

theorem oneHostOk_finish (h : OneHostOk s) {name : String} {seen : ActorObject}
    (hseen : (s.hosts ()).runs.lookup name = some seen) (patched : Bool) :
    OneHostOk (s.finish () name seen patched) := by
  -- where the patch leaves the object alone
  have hsame : ∀ w, (s.hosts ()).store.lookup name = some w → w.finalizer = true →
      (∃ o, s.objects.lookup name = some o ∧ o.uid = w.uid ∧ o.finalizer = true) ∨
        ∀ o, s.objects.lookup name = some o → o.finalizer = false :=
    fun w hw hfinalizer => (h.stored name w hw hfinalizer).imp_right And.left
  unfold ActorFleet.finish
  simp only
  split
  · rename_i hevent
    refine h.ended name ?_ ?_ (fun n hn => ?_) fun w hw hfinalizer => ?_
    · rw [patch_system, ActorFleet.setHost_self]
    · rw [patch_system, ActorFleet.setHost_self]
    · rw [patch_lookup, if_neg (by simp [hn])]
      rfl
    · rcases h.stored name w hw hfinalizer with ⟨o, ho, huid, hf⟩ | ⟨-, hadds⟩
      · rw [patch_lookup]
        split
        · refine .inl ⟨o.addFinalizer, ?_, ?_⟩
          · simp [ActorFleet.setHost, ho]
          · unfold ActorObject.addFinalizer
            split
            · exact ⟨huid, hf⟩
            · exact ⟨huid, rfl⟩
        · exact .inl ⟨o, ho, huid, hf⟩
      · exact absurd hevent (hadds seen hseen)
  · refine h.ended name ?_ ?_ (fun n hn => ?_) fun w hw hfinalizer => ?_
    · rw [patch_system, ActorFleet.setHost_self]
    · rw [patch_system, ActorFleet.setHost_self]
    · rw [patch_lookup, if_neg (by simp [hn])]
      rfl
    · rw [patch_lookup]
      split
      · refine .inr fun o' ho' => ?_
        obtain ⟨o, -, ho'⟩ := Option.bind_eq_some_iff.mp ho'
        unfold ActorObject.removeFinalizer at ho'
        split at ho'
        · split at ho' <;> cases ho'
          rfl
        · rename_i hf
          cases ho'
          exact Bool.eq_false_iff.mpr hf
      · exact hsame w hw hfinalizer
  · refine h.ended name ?_ ?_ (fun n _ => rfl) hsame <;> rw [ActorFleet.setHost_self]
  · refine h.ended name ?_ ?_ (fun n _ => rfl) hsame <;> rw [ActorFleet.setHost_self]

theorem oneHostOk_step (h : OneHostOk s) {step : ActorFleetStep Unit}
    (hs : s.step sha256 hostName latticePrefix step = some s') : OneHostOk s' := by
  cases step with
  | create name spec =>
    simp only [ActorFleet.step] at hs
    split at hs
    · rename_i hnone
      split at hs
      · cases hs
        refine h.objects rfl (fun n o ho hf => ⟨o, ?_, rfl, hf⟩) fun n o' ho' hf => ?_
        · rw [HashMap.lookup_insert_if, if_neg, ho]
          rintro rfl
          rw [hnone] at ho
          cases ho
        · rw [HashMap.lookup_insert_if] at ho'
          split at ho'
          · cases ho'
            cases hf
          · exact ⟨o', ho', rfl, hf⟩
      · cases hs
    · cases hs
  | update name spec =>
    simp only [ActorFleet.step] at hs
    split at hs
    · rename_i o ho
      split at hs
      · cases hs
        exact h.replaced ho rfl rfl
      · cases hs
    · cases hs
  | delete name =>
    simp only [ActorFleet.step] at hs
    split at hs
    · rename_i o ho
      split at hs
      · cases hs
        exact h.replaced ho rfl rfl
      · rename_i hfinalizer
        cases hs
        refine h.objects rfl (fun n o' ho' hf => ⟨o', ?_, rfl, hf⟩) fun n o' ho' hf => ?_
        · rw [HashMap.lookup_erase_if, if_neg, ho']
          rintro rfl
          cases ho.symm.trans ho'
          exact hfinalizer hf
        · rw [HashMap.lookup_erase_if] at ho'
          split at ho'
          · cases ho'
          · exact ⟨o', ho', rfl, hf⟩
    · cases hs
  | observe i name =>
    simp only [ActorFleet.step] at hs
    split at hs
    · rename_i o ho
      cases hs
      refine h.host (fun n w hw => ?_) fun n w hw => .inl hw
      rw [HashMap.lookup_insert_if] at hw
      split at hw
      · rename_i hn
        cases hw
        exact .inr (hn ▸ ho)
      · exact .inl hw
    · cases hs
      refine h.host (fun n w hw => ?_) fun n w hw => .inl hw
      rw [HashMap.lookup_erase_if] at hw
      split at hw
      · cases hw
      · exact .inl hw
  | start i name fetched =>
    obtain ⟨v', hstart, rfl⟩ := Option.map_eq_some_iff.mp hs
    obtain rfl | ⟨seen, hfree, hseen, -, -, ⟨-, rfl⟩ | ⟨call, system, -, -, rfl⟩⟩ :=
      start_cases hstart
    · exact h.host (fun n w hw => .inl hw) fun n w hw => .inl hw
    · exact h.host (fun n w hw => .inl hw) fun n w hw => lookup_insert_cases hseen hw
    · exact h.host (fun n w hw => .inl hw) fun n w hw => lookup_insert_cases hseen hw
  | actorSection i name failAt =>
    obtain ⟨system, hsystem, rfl⟩ := Option.map_eq_some_iff.mp hs
    exact h.host (fun n w hw => .inl hw) fun n w hw => .inl hw
  | finish i name patched =>
    simp only [ActorFleet.step] at hs
    split at hs
    · rename_i seen hseen hfree
      cases hs
      exact oneHostOk_finish h hseen patched
    · cases hs
  | links i step =>
    simp only [ActorFleet.step] at hs
    split at hs
    · obtain ⟨system, hsystem, rfl⟩ := Option.map_eq_some_iff.mp hs
      exact h.host (fun n w hw => .inl hw) fun n w hw => .inl hw
    · cases hs
  | restart i =>
    cases hs
    refine h.host (fun n w hw => ?_) fun n w hw => ?_
    · cases hw
    · cases hw

theorem ownPatches_of_reachable
    (h : (actorFleetMachine sha256 hostName latticePrefix).Reachable s)
    (step : ActorFleetStep Unit) : ownPatches s step = true := by
  refine (h.invariant (I := OneHostOk) ⟨?_, ?_⟩ fun s step s' hI hs =>
    oneHostOk_step hI hs).ownPatches step
  · rintro name seen ⟨⟩
  · rintro name seen ⟨⟩

end OneHost

/-! ## The result -/

/-- **One host needs no condition**: in every run, and however stale what its
watch delivers, the names it keeps are those of objects assigned to it. -/
theorem single_host_kept (sha256 : String → String) (hostName : Unit → String)
    (latticePrefix : String) {s : ActorFleet Unit}
    (h : (actorFleetMachine sha256 hostName latticePrefix).Reachable s) :
    ∀ name, (s.hosts ()).system.Keeps name → s.Assigned (hostName ()) name := by
  obtain ⟨tr, hrun⟩ := h
  have hall : (actorFleetMachine sha256 hostName latticePrefix).RunWhen
      (fun s step => ownPatches s step = true) tr s :=
    (Machine.runWhen_congr fun s step hs =>
      ⟨fun _ => ownPatches_of_reachable hs step, fun _ => trivial⟩).mp hrun
  exact ((actorFleetOk_of_run (fun _ _ _ => rfl) hall).hosts ()).kept

theorem singleHost_applied_kept :
    ∃ s, (actorFleetMachine id (fun () => "a") "default").Reachable s ∧
      (s.hosts ()).system.Keeps "one" ∧ s.Assigned "a" "one" := by
  have hkey : ((actorFleetMachine id (fun () => "a") "default").exec (.new "default")
      (.create "one" ⟨"a", "image", 1⟩ :: applied () "one")).map (fun s =>
        ((s.hosts ()).system.host.actorKeys.lookup "one").isSome) = some true := by decide
  obtain ⟨s, hexec, hkey⟩ := Option.map_eq_some_iff.mp hkey
  have hreach := (Machine.run_of_exec hexec).reachable
  have hkeeps : (s.hosts ()).system.Keeps "one" := .inl (Option.isSome_iff_ne_none.mp hkey)
  exact ⟨s, hreach, hkeeps, single_host_kept id (fun () => "a") "default" hreach "one" hkeeps⟩

end KasmCloud
