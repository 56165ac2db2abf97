/-
KasmCloud.Controller.ProviderSharing — whether Providers are independent of
each other.

`Host.providers` keys an instance by public key and link, and counts no
references. Two Providers whose images carry one key and that name one link
share an instance, and the first of them to be deleted takes it away.

`Served` says that every Provider with a status has the instance its status
names, with its process. Among the runs in which nothing fails
(`undisturbed`) it holds throughout exactly when no Provider is deleted that
shares its instance (`unshared`): `providers_served_iff`.
-/
import KasmCloud.Controller.WorldTheorems

namespace KasmCloud

open Lib V1alpha1

/-- The instance a Provider's status names: its public key and link. -/
def World.instanceOf (w : World) (name : String) : Option (String × String) :=
  (w.providers.lookup name).bind fun p =>
    p.status.map fun status => (status.publicKey, p.spec.link)

/-- Every Provider that was reconciled and not deleted has its instance. -/
def Served (w : World) : Prop :=
  ∀ name key linkName, w.instanceOf name = some (key, linkName) →
    ∃ i, w.host.instance? key linkName = some i ∧ i.child ∈ w.host.processes

/-- The Provider runs succeed, and no process ends by itself. -/
def undisturbed (_ : World) : WorldStep → Bool
  | .reconcileProvider _ fetched failure patched =>
    fetched.toBool && failure.isNone && patched
  | .processExit _ => false
  | _ => true

/-- A deleted Provider shares its instance with no other. Where the status
names no key nothing is stopped. -/
def unshared (w : World) : WorldStep → Bool
  | .deleteProvider name _ =>
    match w.instanceOf name with
    | none => true
    | some (key, linkName) =>
      key = "" || w.providers.keys.all fun other =>
        other = name || w.instanceOf other ≠ some (key, linkName)
  | _ => true

section Instances

variable {w w' : World} {name : String}

theorem instanceOf_eq_some {key linkName : String} :
    w.instanceOf name = some (key, linkName) ↔
      ∃ p status, w.providers.lookup name = some p ∧ p.status = some status ∧
        status.publicKey = key ∧ p.spec.link = linkName := by
  simp only [World.instanceOf, Option.bind_eq_some_iff, Option.map_eq_some_iff, Prod.mk.injEq]
  constructor
  · rintro ⟨p, hp, status, hs, rfl, rfl⟩
    exact ⟨p, status, hp, hs, rfl, rfl⟩
  · rintro ⟨p, status, hp, hs, rfl, rfl⟩
    exact ⟨p, hp, status, hs, rfl, rfl⟩

theorem instanceOf_congr (h : w'.providers = w.providers) (name : String) :
    w'.instanceOf name = w.instanceOf name := by
  simp [World.instanceOf, h]

theorem instanceOf_insert {p : V1alpha1.Provider}
    (h : w'.providers = w.providers.insert name p) (other : String) :
    w'.instanceOf other =
      if other = name then p.status.map fun status => (status.publicKey, p.spec.link)
      else w.instanceOf other := by
  simp only [World.instanceOf, h, HashMap.lookup_insert_if]
  split <;> simp

theorem instanceOf_erase (h : w'.providers = w.providers.erase name) (other : String) :
    w'.instanceOf other = if other = name then none else w.instanceOf other := by
  simp only [World.instanceOf, h, HashMap.lookup_erase_if]
  split <;> simp

theorem unshared_deleteProvider {shutdown : ShutdownOutcome} {key linkName : String}
    (hname : w.instanceOf name = some (key, linkName)) :
    unshared w (.deleteProvider name shutdown) = true ↔
      key = "" ∨ ∀ other, other ≠ name → w.instanceOf other ≠ some (key, linkName) := by
  simp only [unshared, hname, Bool.or_eq_true, decide_eq_true_eq, List.all_eq_true]
  refine or_congr_right ⟨fun hall other hne hsame => ?_, fun hall other _ => ?_⟩
  · obtain ⟨p, -, hp, -⟩ := instanceOf_eq_some.mp hsame
    have hkey : other ∈ w.providers.keys := AList.lookup_isSome.mp (by rw [hp]; rfl)
    exact (hall other hkey).elim hne fun h => h hsame
  · by_cases hne : other = name
    · exact .inl hne
    · exact .inr (hall other hne)

end Instances

section Sha256

variable {sha256 : String → String} {w w' : World}

/-- With its processes alive, a Provider is served if its instance is
recorded. -/
theorem served_of_recorded (halive : InstancesAlive w.host)
    (hrecorded : ∀ name key linkName, w.instanceOf name = some (key, linkName) →
      ∃ i, w.host.instance? key linkName = some i) : Served w := by
  intro name key linkName hname
  obtain ⟨i, hi⟩ := hrecorded name key linkName hname
  exact ⟨i, hi, halive key linkName i hi⟩

theorem served_reconcile (hok : ProvidersOk w.host) (halive : InstancesAlive w.host)
    (hserved : Served w) {name : String} {image : ProviderImage}
    (h : w.step sha256 (.reconcileProvider name (.ok image) none true) = some w') :
    InstancesAlive w'.host ∧ Served w' := by
  obtain ⟨g, hg, hhost, hproviders⟩ := step_reconcileProvider h
  rcases reconcileProvider_cases hok.used g (.ok image) none with
    ⟨e, herror, -⟩ | ⟨image', heq, ⟨-, hfailed, -⟩ | ⟨hpatch, hcase⟩⟩
  · cases herror
  · exact absurd rfl hfailed
  · cases heq
    rw [hpatch, patchStatus_unless, if_pos rfl] at hproviders
    -- the instance of the image is there afterwards, and no other has gone
    have hafter : InstancesAlive w'.host ∧
        (∃ i, w'.host.instance? image.claims.subject g.spec.link = some i) ∧
        ∀ key linkName i, w.host.instance? key linkName = some i →
          ∃ j, w'.host.instance? key linkName = some j := by
      rw [hhost]
      rcases hcase with ⟨⟨i, hi⟩, hsame⟩ | ⟨-, -, i, -, hnew⟩
      · refine ⟨halive.unchanged hsame, ⟨i, by rw [hsame.instances]; exact hi⟩, fun k l j hj => ?_⟩
        exact ⟨j, by rw [hsame.instances]; exact hj⟩
      · refine ⟨halive.launched hnew, ⟨i, by rw [hnew.instances]; simp⟩, fun k l j hj => ?_⟩
        rw [hnew.instances]
        split
        · exact ⟨i, rfl⟩
        · exact ⟨j, hj⟩
    obtain ⟨halive', himage, hkept⟩ := hafter
    refine ⟨halive', served_of_recorded halive' fun other key linkName hother => ?_⟩
    rw [instanceOf_insert hproviders] at hother
    split at hother
    · simp only [Option.map_some, providerStatus_publicKey, Option.some.injEq, Prod.mk.injEq] at hother
      obtain ⟨rfl, rfl⟩ := hother
      exact himage
    · obtain ⟨i, hi, -⟩ := hserved other key linkName hother
      exact hkept key linkName i hi

theorem served_delete (hok : ProvidersOk w.host) (halive : InstancesAlive w.host)
    (hserved : Served w) {name : String} {shutdown : ShutdownOutcome}
    (hunshared : unshared w (.deleteProvider name shutdown) = true)
    (h : w.step sha256 (.deleteProvider name shutdown) = some w') :
    InstancesAlive w'.host ∧ Served w' := by
  obtain ⟨g, hg, hproviders, ⟨-, hhost⟩ | ⟨status, hstatus, hkey, hgone⟩⟩ := step_deleteProvider h
  · rw [hhost]
    refine ⟨halive, fun other key linkName hother => ?_⟩
    rw [instanceOf_erase hproviders] at hother
    split at hother
    · cases hother
    · rw [hhost]
      exact hserved other key linkName hother
  · have hname : w.instanceOf name = some (status.publicKey, g.spec.link) :=
      instanceOf_eq_some.mpr ⟨g, status, hg, hstatus, rfl, rfl⟩
    have hothers := ((unshared_deleteProvider hname).mp hunshared).resolve_left hkey
    have halive' := halive.halted hok hgone
    refine ⟨halive', served_of_recorded halive' fun other key linkName hother => ?_⟩
    rw [instanceOf_erase hproviders] at hother
    split at hother
    · cases hother
    · rename_i hne
      obtain ⟨i, hi, -⟩ := hserved other key linkName hother
      refine ⟨i, ?_⟩
      rw [hgone.instances, if_neg]
      · exact hi
      · rintro ⟨rfl, rfl⟩
        exact hothers other hne hother

/-- Without a failure and without a shared deletion, every step keeps the
Providers served. -/
theorem served_step (hok : ProvidersOk w.host) (halive : InstancesAlive w.host)
    (hserved : Served w) {l : WorldStep} (hundisturbed : undisturbed w l = true)
    (hunshared : unshared w l = true) (h : w.step sha256 l = some w') :
    InstancesAlive w'.host ∧ Served w' := by
  cases hl : l.onProviders with
  | false =>
    obtain ⟨hsame, hproviders⟩ := step_other hl h
    have halive' := halive.unchanged hsame
    refine ⟨halive', served_of_recorded halive' fun name key linkName hname => ?_⟩
    rw [instanceOf_congr hproviders] at hname
    obtain ⟨i, hi, -⟩ := hserved name key linkName hname
    exact ⟨i, by rw [hsame.instances]; exact hi⟩
  | true =>
    cases l with
    | applyProvider name spec =>
      obtain ⟨provider, rfl, happlied⟩ := step_applyProvider h
      refine ⟨halive, fun other key linkName hother => hserved other key linkName ?_⟩
      rcases happlied with ⟨-, rfl⟩ | ⟨old, hold, -, hlink, rfl⟩
      · rw [instanceOf_insert rfl] at hother
        split at hother
        · cases hother
        · exact hother
      · rw [instanceOf_insert rfl] at hother
        split at hother
        · rename_i hsame
          rw [hsame, World.instanceOf, hold, Option.bind_some, ← hlink]
          exact hother
        · exact hother
    | reconcileProvider name fetched failure patched =>
      simp only [undisturbed, Bool.and_eq_true, Option.isNone_iff_eq_none] at hundisturbed
      obtain ⟨⟨hfetched, rfl⟩, rfl⟩ := hundisturbed
      cases fetched with
      | error e => cases hfetched
      | ok image => exact served_reconcile hok halive hserved h
    | deleteProvider name shutdown => exact served_delete hok halive hserved hunshared h
    | processExit pid => cases hundisturbed
    | applyActor | applyLink | reconcileActor | deleteActor | addLink | deleteLink => cases hl

/-- A shared deletion leaves a Provider without its instance. -/
theorem unshared_of_served {l : WorldStep} (hserved : Served w')
    (h : w.step sha256 l = some w') : unshared w l = true := by
  cases l with
  | deleteProvider name shutdown =>
    obtain ⟨g, hg, hproviders, ⟨hempty, -⟩ | ⟨status, hstatus, -, hgone⟩⟩ := step_deleteProvider h
    · cases hname : w.instanceOf name with
      | none => simp only [unshared, hname]
      | some instanceId =>
        obtain ⟨key, linkName⟩ := instanceId
        obtain ⟨p, status, hp, hstatus, rfl, -⟩ := instanceOf_eq_some.mp hname
        cases hg.symm.trans hp
        exact (unshared_deleteProvider hname).mpr (.inl (hempty status hstatus))
    · have hname : w.instanceOf name = some (status.publicKey, g.spec.link) :=
        instanceOf_eq_some.mpr ⟨g, status, hg, hstatus, rfl, rfl⟩
      refine (unshared_deleteProvider hname).mpr (.inr fun other hne hsame => ?_)
      have hother : w'.instanceOf other = some (status.publicKey, g.spec.link) := by
        rw [instanceOf_erase hproviders, if_neg hne, hsame]
      obtain ⟨i, hi, -⟩ := hserved other _ _ hother
      rw [hgone.instances, if_pos ⟨rfl, rfl⟩] at hi
      cases hi
  | _ => rfl

/-- Among the runs in which nothing fails, all Providers are served all the
time exactly if every deleted one has its instance to itself. -/
theorem providers_served_iff (sha256 : String → String) (latticePrefix : String)
    (tr : List WorldStep) (w : World) :
    (worldMachine sha256 latticePrefix).RunWhen
          (fun w l => undisturbed w l = true ∧ Served w) tr w ∧ Served w ↔
      (worldMachine sha256 latticePrefix).RunWhen
        (fun w l => undisturbed w l = true ∧ unshared w l = true) tr w := by
  refine Machine.runWhen_within_iff (fun tr w h => ?_) fun w l w' _ _ _ hs hserved =>
    unshared_of_served hserved hs
  have hinvariant : ProvidersOk w.host ∧ InstancesAlive w.host ∧ Served w := by
    refine h.invariant (I := fun w => ProvidersOk w.host ∧ InstancesAlive w.host ∧ Served w)
      ⟨providersOk_of_reachable ⟨[], .nil⟩, ?_, ?_⟩ ?_
    · intro key linkName i hi
      cases hi
    · intro name key linkName hname
      cases hname
    · rintro w l w' ⟨hok, halive, hserved⟩ ⟨hundisturbed, hunshared⟩ hs
      exact ⟨providersOk_step hok hs, served_step hok halive hserved hundisturbed hunshared hs⟩
  exact hinvariant.2.2

end Sha256

/-! ## Two Providers on one instance -/

/-- The image of provider `V`. -/
def imageV : ProviderImage where
  path := "/providers/v"
  claims := ⟨"A", "V", 0, none, none, none⟩

/-- Two Providers of the same image and link are reconciled, and one of them
is deleted. -/
def sharedDeletion : List WorldStep :=
  [.applyProvider "one" ⟨"host", "image", "default"⟩,
    .applyProvider "two" ⟨"host", "image", "default"⟩,
    .reconcileProvider "one" (.ok imageV) none true,
    .reconcileProvider "two" (.ok imageV) none true,
    .deleteProvider "one" .answered]

/-- The other one has no instance any more. -/
theorem sharedDeletion_not_served :
    ∃ w, (worldMachine id "default").RunWhen (fun w l => undisturbed w l = true) sharedDeletion w ∧
      ¬ Served w := by
  have hstatus : ((worldMachine id "default").execWhen undisturbed (.new "default")
      sharedDeletion).map (·.instanceOf "two") = some (some ("V", "default")) := by decide
  have hinstance : ((worldMachine id "default").execWhen undisturbed (.new "default")
      sharedDeletion).map (·.host.instance? "V" "default") = some none := by decide
  obtain ⟨w, hexec, hstatus⟩ := Option.map_eq_some_iff.mp hstatus
  rw [hexec, Option.map_some, Option.some.injEq] at hinstance
  refine ⟨w, Machine.runWhen_of_execWhen hexec, fun hserved => ?_⟩
  obtain ⟨i, hi, -⟩ := hserved "two" "V" "default" hstatus
  rw [hinstance] at hi
  cases hi

end KasmCloud
