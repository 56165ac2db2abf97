/-
KasmCloud.Host.Names — which names a host keeps, whatever fails and however
calls interleave.

A name is in `Host.actor_keys`, in a registered group, or on its way there with
a `reconcile_actor` call. `KeysPlaced` says that the first covers the second,
also between the sections of the calls, so the names a host keeps are found
without a look at the groups (`KeysPlaced.keeps_iff`). A group that a removal
has unregistered can still be filled; nothing is said about such groups here.
-/
import KasmCloud.Host.Routing

namespace KasmCloud

open Lib

/-! ## The names of a host -/

/-- The call is one of `reconcile_actor`. -/
def ActorCall.reconciles : ActorCall → Bool
  | .check _ | .register _ | .lookup _ | .fill _ _ => true
  | .readKey | .removeGroup _ | .dropKey => false

/-- A host has a name in a table, or is about to. -/
def System.Keeps (s : System) (name : String) : Prop :=
  s.host.actorKeys.lookup name ≠ none ∨
    (∃ key ref, s.host.actors.lookup key = some ref ∧ s.host.actorAt ref name ≠ none) ∨
    ∃ call, s.actorCalls.lookup name = some call ∧ call.reconciles = true

/-- What a call can rely on before its next section. -/
def ActorCall.Recalls (host : Host) (name : String) : ActorCall → Prop
  | .check _ | .readKey => True
  | .register job =>
    ∀ key, host.actorKeys.lookup name = some key → key = job.claims.subject
  | .lookup job => host.actorKeys.lookup name = some job.claims.subject
  | .fill job group =>
    host.actorKeys.lookup name = some job.claims.subject ∧
      ∃ table, host.header? group = some (job.claims.subject, table)
  | .removeGroup key => host.actorKeys.lookup name = some key
  | .dropKey => ∀ key ref, host.actors.lookup key = some ref → host.actorAt ref name = none

/-- A name in a registered group is known, under the key of the group. -/
structure KeysPlaced (s : System) : Prop where
  member : ∀ key ref name, s.host.actors.lookup key = some ref →
    s.host.actorAt ref name ≠ none → s.host.actorKeys.lookup name = some key
  calls : ∀ name call, s.actorCalls.lookup name = some call → call.Recalls s.host name

theorem KeysPlaced.keeps_iff {s : System} (h : KeysPlaced s) (name : String) :
    s.Keeps name ↔ s.host.actorKeys.lookup name ≠ none ∨
      ∃ call, s.actorCalls.lookup name = some call ∧ call.reconciles = true := by
  constructor
  · rintro (hkey | ⟨key, ref, hreg, hat⟩ | hcall)
    · exact .inl hkey
    · refine .inl ?_
      rw [h.member key ref name hreg hat]
      exact Option.some_ne_none key
    · exact .inr hcall
  · rintro (hkey | hcall)
    · exact .inl hkey
    · exact .inr (.inr hcall)

/-! ## What a section leaves behind -/

/-- A section of a call for `name`, with `next` the rest of the call. -/
structure SectionPlaced (s : System) (name : String) (host : Host) (next : Option ActorCall) :
    Prop where
  others : ∀ ref m, m ≠ name → host.actorAt ref m ≠ none → s.host.actorAt ref m ≠ none
  keys : ∀ m, m ≠ name → host.actorKeys.lookup m = s.host.actorKeys.lookup m
  headers : ∀ ref hd, s.host.header? ref = some hd → host.header? ref = some hd
  registered : ∀ key ref, host.actors.lookup key = some ref →
    s.host.actors.lookup key = some ref ∨ ∀ m, host.actorAt ref m = none
  own : ∀ key ref, host.actors.lookup key = some ref → host.actorAt ref name ≠ none →
    host.actorKeys.lookup name = some key
  goesOn : ∀ call, next = some call → call.Recalls host name

section Sections

variable {sha256 : String → String} {s : System} {name : String}

/-- Two keys of one group are one. -/
theorem Routed.key_unique (h : Routed sha256 s) {key pk : String} {ref : Ref} {table : LinkTable}
    (hreg : s.host.actors.lookup key = some ref) (hheader : s.host.header? ref = some (pk, table)) :
    key = pk := by
  obtain ⟨table', hheader', -⟩ := h.registered key ref hreg
  rw [hheader] at hheader'
  cases hheader'
  rfl

theorem KeysPlaced.unchanged (h : KeysPlaced s) {next : Option ActorCall}
    (hnext : ∀ call, next = some call → call.Recalls s.host name) :
    SectionPlaced s name s.host next where
  others _ _ _ hat := hat
  keys _ _ := rfl
  headers _ _ hheader := hheader
  registered _ _ hreg := .inl hreg
  own key ref hreg hat := h.member key ref name hreg hat
  goesOn := hnext

theorem placed_register (h : KeysPlaced s) {job : ActorJob}
    (hcall : s.actorCalls.lookup name = some (.register job)) :
    SectionPlaced s name (s.host.registerActorKey name job.claims.subject)
      (some (.lookup job)) := by
  obtain ⟨-, hactors, hgroups⟩ := registerActorKey_frame s.host name job.claims.subject
  have hat := actorAt_congr hgroups
  constructor
  · intro ref m _ hin
    rwa [hat] at hin
  · intro m hm
    rw [registerActorKey_lookup, if_neg hm]
  · intro ref hd hheader
    rwa [header?_congr hgroups]
  · intro key ref hreg
    exact .inl (hactors ▸ hreg)
  · intro key ref hreg hin
    rw [hactors] at hreg
    rw [hat] at hin
    rw [registerActorKey_lookup, if_pos rfl, h.member key ref name hreg hin]
    rfl
  · rintro _ ⟨⟩
    have hknown := h.calls name _ hcall
    simp only [ActorCall.Recalls]
    rw [registerActorKey_lookup, if_pos rfl]
    cases hkey : s.host.actorKeys.lookup name with
    | none => rfl
    | some key => rw [hknown key hkey]; rfl

theorem placed_lookup (hrouted : Routed sha256 s) (h : KeysPlaced s) {job : ActorJob}
    (hcall : s.actorCalls.lookup name = some (.lookup job)) :
    SectionPlaced s name (s.host.lookupGroup job.claims.subject).2
      (some (.fill job (s.host.lookupGroup job.claims.subject).1)) := by
  have hknown : s.host.actorKeys.lookup name = some job.claims.subject := h.calls name _ hcall
  obtain ⟨hkeys, -⟩ := lookupGroup_frame s.host job.claims.subject
  have hheaders : ∀ ref hd, s.host.header? ref = some hd →
      (s.host.lookupGroup job.claims.subject).2.header? ref = some hd :=
    fun ref hd => actorSection_keeps_header s.host name none (.lookup job)
  cases hreg : s.host.actors.lookup job.claims.subject with
  | some found =>
    rw [lookupGroup_found hreg]
    refine h.unchanged ?_
    rintro _ ⟨⟩
    obtain ⟨table, hheader, -⟩ := hrouted.registered _ _ hreg
    exact ⟨hknown, table, hheader⟩
  | none =>
    obtain ⟨hmade, hactors, hcells⟩ := lookupGroup_made hreg
    have hempty : ∀ m, s.host.actorAt s.host.groups.next m = none := by
      intro m
      simp [Host.actorAt]
    constructor
    · intro ref m _ hin
      rwa [lookupGroup_actorAt] at hin
    · intro m _
      rw [hkeys]
    · exact hheaders
    · intro key ref hin
      rw [hactors, HashMap.lookup_insert_if] at hin
      split at hin
      · cases hin
        refine .inr fun m => ?_
        rw [lookupGroup_actorAt, hempty]
      · exact .inl hin
    · intro key ref hin hat
      rw [lookupGroup_actorAt] at hat
      rw [hkeys]
      rw [hactors, HashMap.lookup_insert_if] at hin
      split at hin
      · cases hin
        exact absurd (hempty name) hat
      · exact h.member key ref name hin hat
    · rintro _ ⟨⟩
      refine ⟨by rw [hkeys]; exact hknown, s.host.getActorLinks job.claims.subject, ?_⟩
      rw [hmade]
      simp [Host.header?, hcells]

theorem placed_fill (hrouted : Routed sha256 s) (h : KeysPlaced s) {job : ActorJob} {group : Ref}
    (hcall : s.actorCalls.lookup name = some (.fill job group)) (failAt : Option Nat) :
    SectionPlaced s name
      (s.host.fillGroup group name job.actor job.actorRef job.replica failAt).1 none := by
  obtain ⟨hknown, table, hheader⟩ := h.calls name _ hcall
  obtain ⟨hkeys, hactors, -, hheaders⟩ :=
    @fillGroup_frame s.host _ _ job.claims_eq group name job.actorRef job.replica failAt
  have himages : ∀ ref m, (s.host.fillGroup group name job.actor job.actorRef job.replica
      failAt).1.actorAt ref m ≠ none → s.host.actorAt ref m ≠ none ∨ (ref = group ∧ m = name) := by
    intro ref m hin
    obtain ⟨a, ha⟩ := Option.ne_none_iff_exists'.mp hin
    rcases fillGroup_images job.claims_eq group name job.actorRef job.replica failAt ha with
      ⟨old, hold, -⟩ | ⟨hhere, -⟩
    · exact .inl (by simp [hold])
    · exact .inr hhere
  constructor
  · intro ref m hm hin
    rcases himages ref m hin with hold | ⟨-, rfl⟩
    · exact hold
    · exact absurd rfl hm
  · intro m _
    rw [hkeys]
  · intro ref hd hhd
    rwa [hheaders]
  · intro key ref hreg
    exact .inl (hactors ▸ hreg)
  · intro key ref hreg hin
    rw [hactors] at hreg
    rw [hkeys]
    rcases himages ref name hin with hold | ⟨rfl, -⟩
    · exact h.member key ref name hreg hold
    · rw [hrouted.key_unique hreg hheader]
      exact hknown
  · rintro _ ⟨⟩

theorem placed_removeGroup (h : KeysPlaced s) {key : String}
    (hcall : s.actorCalls.lookup name = some (.removeGroup key)) :
    SectionPlaced s name (s.host.removeFromGroup key name) (some .dropKey) := by
  have hknown : s.host.actorKeys.lookup name = some key := h.calls name _ hcall
  obtain ⟨hkeys, -, hheaders⟩ := removeFromGroup_frame s.host key name
  have hbefore : ∀ ref m, (s.host.removeFromGroup key name).actorAt ref m ≠ none →
      s.host.actorAt ref m ≠ none := by
    intro ref m hin
    obtain ⟨a, ha⟩ := Option.ne_none_iff_exists'.mp hin
    rw [removeFromGroup_actorAt s.host key name ha]
    exact Option.some_ne_none a
  -- registered groups were registered before
  have hstays : ∀ key' ref, (s.host.removeFromGroup key name).actors.lookup key' = some ref →
      s.host.actors.lookup key' = some ref := by
    intro key' ref hreg'
    cases hreg : s.host.actors.lookup key with
    | none => rwa [removeFromGroup_unknown hreg] at hreg'
    | some found =>
      cases hg : s.host.groups.get? found with
      | none => simpa [Host.removeFromGroup, hreg, hg] using hreg'
      | some g =>
        rw [(removeFromGroup_spec hreg hg name).1] at hreg'
        split at hreg'
        · rw [HashMap.lookup_erase_if] at hreg'
          split at hreg'
          · cases hreg'
          · exact hreg'
        · exact hreg'
  have hgone : ∀ key' ref, (s.host.removeFromGroup key name).actors.lookup key' = some ref →
      (s.host.removeFromGroup key name).actorAt ref name = none := by
    intro key' ref hreg'
    by_contra hin
    have hkey' := h.member key' ref name (hstays key' ref hreg') (hbefore ref name hin)
    rw [hknown] at hkey'
    cases hkey'
    cases hg : s.host.groups.get? ref with
    | none => exact hbefore ref name hin (by simp [Host.actorAt, hg])
    | some g => exact hin (removeFromGroup_spec (hstays key ref hreg') hg name).2.1
  constructor
  · exact fun ref m _ hin => hbefore ref m hin
  · intro m _
    rw [hkeys]
  · intro ref hd hhd
    rwa [hheaders]
  · exact fun key' ref hreg => .inl (hstays key' ref hreg)
  · exact fun key' ref hreg hin => absurd (hgone key' ref hreg) hin
  · rintro _ ⟨⟩
    exact hgone

theorem placed_dropKey (h : KeysPlaced s) (hcall : s.actorCalls.lookup name = some .dropKey) :
    SectionPlaced s name (s.host.dropActorKey name) none where
  others _ _ _ hin := hin
  keys m hm := by
    show (s.host.actorKeys.erase name).lookup m = _
    rw [HashMap.lookup_erase_if, if_neg hm]
  headers _ _ hheader := hheader
  registered _ _ hreg := .inl hreg
  own key ref hreg hin := absurd (h.calls name _ hcall key ref hreg) hin
  goesOn := by rintro _ ⟨⟩

theorem sectionPlaced (hrouted : Routed sha256 s) (h : KeysPlaced s) (failAt : Option Nat)
    {call : ActorCall} (hcall : s.actorCalls.lookup name = some call) :
    SectionPlaced s name (s.host.actorSection name failAt call).1
      (s.host.actorSection name failAt call).2 := by
  cases call with
  | check job =>
    simp only [Host.actorSection]
    cases hcheck : s.host.checkActorKey name job.claims.subject with
    | error e => exact h.unchanged (by rintro _ ⟨⟩)
    | ok u =>
      refine h.unchanged ?_
      rintro _ ⟨⟩ key hkey
      unfold Host.checkActorKey at hcheck
      rw [hkey] at hcheck
      by_contra hne
      simp [hne] at hcheck
  | register job => exact placed_register h hcall
  | lookup job => exact placed_lookup hrouted h hcall
  | fill job group => exact placed_fill hrouted h hcall failAt
  | readKey =>
    simp only [Host.actorSection]
    cases hread : s.host.readActorKey name with
    | none => exact h.unchanged (by rintro _ ⟨⟩)
    | some key =>
      refine h.unchanged ?_
      rintro _ ⟨⟩
      exact hread
  | removeGroup key => exact placed_removeGroup h hcall
  | dropKey => exact placed_dropKey h hcall

end Sections

/-! ## Steps keep it -/

section Steps

variable {sha256 : String → String} {s s' : System}

/-- Nothing that the invariant is about changes, but that a call begins. -/
theorem KeysPlaced.congr (h : KeysPlaced s) (hkeys : s'.host.actorKeys = s.host.actorKeys)
    (hactors : s'.host.actors = s.host.actors)
    (hat : ∀ ref name, s'.host.actorAt ref name = s.host.actorAt ref name)
    (hheaders : ∀ ref key table, s.host.header? ref = some (key, table) →
      ∃ table', s'.host.header? ref = some (key, table'))
    (hcalls : ∀ name call, s'.actorCalls.lookup name = some call →
      s.actorCalls.lookup name = some call ∨ call.Recalls s'.host name) : KeysPlaced s' where
  member key ref name hreg hin := by
    rw [hactors] at hreg
    rw [hat] at hin
    rw [hkeys]
    exact h.member key ref name hreg hin
  calls name call hcall := by
    rcases hcalls name call hcall with hold | hnew
    · have hrecalls := h.calls name call hold
      cases call with
      | check job | readKey => trivial
      | register job | lookup job | removeGroup key =>
        simpa only [ActorCall.Recalls, hkeys] using hrecalls
      | dropKey => simpa only [ActorCall.Recalls, hactors, hat] using hrecalls
      | fill job group =>
        obtain ⟨hknown, table, hheader⟩ := hrecalls
        exact ⟨hkeys ▸ hknown, hheaders group _ table hheader⟩
    · exact hnew

theorem keysPlaced_actorSection (hrouted : Routed sha256 s) (h : KeysPlaced s) {name : String}
    {failAt : Option Nat} (hs : s.step sha256 (.actorSection name failAt) = some s') :
    KeysPlaced s' := by
  obtain ⟨call, hcall, hhost, -, hcalls⟩ := step_actorSection hs
  have hsection := sectionPlaced hrouted h failAt hcall
  rw [← hhost] at hsection
  constructor
  · intro key ref m hreg hin
    by_cases hm : m = name
    · subst hm
      exact hsection.own key ref hreg hin
    · rw [hsection.keys m hm]
      rcases hsection.registered key ref hreg with hold | hempty
      · exact h.member key ref m hold (hsection.others ref m hm hin)
      · exact absurd (hempty m) hin
  · intro m call' hcall'
    rw [hcalls] at hcall'
    split at hcall'
    · rename_i hm
      rw [hm]
      exact hsection.goesOn call' hcall'
    · rename_i hm
      have hrecalls := h.calls m call' hcall'
      cases call' with
      | check job | readKey => trivial
      | register job | lookup job | removeGroup key =>
        simpa only [ActorCall.Recalls, hsection.keys m hm] using hrecalls
      | dropKey =>
        intro key ref hreg
        rcases hsection.registered key ref hreg with hold | hempty
        · by_contra hin
          exact hsection.others ref m hm hin (hrecalls key ref hold)
        · exact hempty m
      | fill job group =>
        obtain ⟨hknown, table, hheader⟩ := hrecalls
        exact ⟨by rw [hsection.keys m hm]; exact hknown, table, hsection.headers group _ hheader⟩

theorem keysPlaced_step (hrouted : Routed sha256 s) (h : KeysPlaced s) {step : SystemStep}
    (hs : s.step sha256 step = some s') : KeysPlaced s' := by
  cases step with
  | reconcileActor name actorRef fetched replica =>
    obtain ⟨-, ⟨-, rfl⟩ | ⟨job, -, rfl⟩⟩ := step_reconcileActor hs
    · exact h
    · refine h.congr rfl rfl (fun _ _ => rfl) (fun _ _ table hh => ⟨table, hh⟩) fun m call hcall => ?_
      rw [HashMap.lookup_insert_if] at hcall
      split at hcall
      · cases hcall
        exact .inr trivial
      · exact .inl hcall
  | removeActor name =>
    obtain ⟨-, rfl⟩ := step_removeActor hs
    refine h.congr rfl rfl (fun _ _ => rfl) (fun _ _ table hh => ⟨table, hh⟩) fun m call hcall => ?_
    rw [HashMap.lookup_insert_if] at hcall
    split at hcall
    · cases hcall
      exact .inr trivial
    · exact .inl hcall
  | actorSection name failAt => exact keysPlaced_actorSection hrouted h hs
  | addLinkdef ld =>
    obtain ⟨-, ⟨-, rfl⟩ | ⟨-, rfl⟩⟩ := step_addLinkdef hs
    · exact h
    · exact h.congr rfl rfl (fun _ _ => rfl) (fun _ _ table hh => ⟨table, hh⟩)
        fun _ _ hcall => .inl hcall
  | deleteLinkdef ld =>
    obtain ⟨-, ⟨-, rfl⟩ | ⟨found, -, rfl⟩⟩ := step_deleteLinkdef hs
    · exact h
    · exact h.congr rfl rfl (fun _ _ => rfl) (fun _ _ table hh => ⟨table, hh⟩)
        fun _ _ hcall => .inl hcall
  | routeLinkdef =>
    obtain ⟨call, -, -, rfl⟩ := step_routeLinkdef hs
    refine h.congr rfl rfl (onGroupLinks_actorAt _ _ _) (fun ref key table hh => ?_)
      fun _ _ hcall => .inl hcall
    rw [onGroupLinks_header?, hh]
    split
    · exact ⟨_, rfl⟩
    · exact ⟨table, rfl⟩
  | publishLinkdef outcome =>
    obtain ⟨call, -, -, rfl⟩ := step_publishLinkdef hs
    cases outcome <;>
    exact h.congr rfl rfl (fun _ _ => rfl) (fun _ _ table hh => ⟨table, hh⟩)
      fun _ _ hcall => .inl hcall

theorem keysPlaced_of_reachable {latticePrefix : String}
    (h : (hostMachine sha256 latticePrefix).Reachable s) : KeysPlaced s := by
  have hboth := h.invariant (I := fun s => Routed sha256 s ∧ KeysPlaced s)
    ⟨routed_of_reachable ⟨[], .nil⟩, ?_⟩ fun s step s' hI hs =>
      ⟨routed_step hI.1 hs, keysPlaced_step hI.1 hI.2 hs⟩
  · exact hboth.2
  · refine ⟨fun key ref name hreg => ?_, fun name call hcall => ?_⟩
    · cases hreg
    · cases hcall

/-! ## How the names change -/

/-- The name is on its way out, and gone when no call is in progress. -/
def System.Removes (s : System) (name : String) : Prop :=
  (∀ call, s.actorCalls.lookup name = some call → call.reconciles = false) ∧
    (s.actorCalls.lookup name = none → s.host.actorKeys.lookup name = none)

theorem System.Removes.not_keeps {name : String} (hremoves : s.Removes name) (h : KeysPlaced s)
    (hfree : s.actorCalls.lookup name = none) : ¬ s.Keeps name := by
  rw [h.keeps_iff]
  rintro (hkey | ⟨call, hcall, -⟩)
  · exact hkey (hremoves.2 hfree)
  · rw [hfree] at hcall
    cases hcall

theorem removes_removeActor {name : String} (hs : s.step sha256 (.removeActor name) = some s') :
    s'.Removes name := by
  obtain ⟨-, rfl⟩ := step_removeActor hs
  have hcall : (s.actorCalls.insert name ActorCall.readKey).lookup name = some .readKey := by
    rw [HashMap.lookup_insert_if, if_pos rfl]
  refine ⟨fun call hcall' => ?_, fun hfree => ?_⟩
  · cases hcall.symm.trans hcall'
    rfl
  · rw [hcall] at hfree
    cases hfree

/-- Only a `reconcile_actor` call for it turns a name around. -/
theorem removes_step (hrouted : Routed sha256 s) (h : KeysPlaced s) {step : SystemStep}
    {name : String} (hne : ∀ actorRef fetched replica,
      step ≠ .reconcileActor name actorRef fetched replica)
    (hs : s.step sha256 step = some s') (hremoves : s.Removes name) : s'.Removes name := by
  cases step with
  | reconcileActor m actorRef fetched replica =>
    obtain ⟨-, ⟨-, rfl⟩ | ⟨job, -, rfl⟩⟩ := step_reconcileActor hs
    · exact hremoves
    · have hm : name ≠ m := fun hm => hne actorRef fetched replica (by rw [hm])
      simpa only [System.Removes, HashMap.lookup_insert_if, if_neg hm] using hremoves
  | removeActor m =>
    by_cases hm : name = m
    · rw [hm]
      exact removes_removeActor hs
    · obtain ⟨-, rfl⟩ := step_removeActor hs
      simpa only [System.Removes, HashMap.lookup_insert_if, if_neg hm] using hremoves
  | actorSection m failAt =>
    obtain ⟨call, hcall, hhost, -, hcalls⟩ := step_actorSection hs
    by_cases hm : name = m
    · subst hm
      have hreconciles := hremoves.1 call hcall
      simp only [System.Removes, hcalls, if_pos, hhost]
      cases call with
      | check job | register job | lookup job | fill job group => cases hreconciles
      | readKey =>
        cases hread : s.host.readActorKey name with
        | none =>
          simp only [Host.actorSection, hread]
          exact ⟨by rintro _ ⟨⟩, fun _ => hread⟩
        | some key => simp [Host.actorSection, hread, ActorCall.reconciles]
      | removeGroup key => simp [Host.actorSection, ActorCall.reconciles]
      | dropKey => simp [Host.actorSection, Host.dropActorKey]
    · have hkeys := (sectionPlaced hrouted h failAt hcall).keys name hm
      simpa only [System.Removes, hcalls, if_neg hm, hhost, hkeys] using hremoves
  | addLinkdef ld =>
    obtain ⟨-, ⟨-, rfl⟩ | ⟨-, rfl⟩⟩ := step_addLinkdef hs <;> exact hremoves
  | deleteLinkdef ld =>
    obtain ⟨-, ⟨-, rfl⟩ | ⟨found, -, rfl⟩⟩ := step_deleteLinkdef hs <;> exact hremoves
  | routeLinkdef =>
    obtain ⟨call, -, -, rfl⟩ := step_routeLinkdef hs
    exact hremoves
  | publishLinkdef outcome =>
    obtain ⟨call, -, -, rfl⟩ := step_publishLinkdef hs
    cases outcome <;> exact hremoves

/-- A host comes to keep a name only with a `reconcile_actor` call for it. -/
theorem keeps_step (hrouted : Routed sha256 s) (h : KeysPlaced s) {step : SystemStep}
    (hs : s.step sha256 step = some s') {name : String} (hkeeps : s'.Keeps name) :
    s.Keeps name ∨
      ∃ actorRef fetched replica, step = .reconcileActor name actorRef fetched replica := by
  rw [(keysPlaced_step hrouted h hs).keeps_iff] at hkeeps
  rw [h.keeps_iff]
  cases step with
  | reconcileActor m actorRef fetched replica =>
    obtain ⟨-, ⟨-, rfl⟩ | ⟨job, -, rfl⟩⟩ := step_reconcileActor hs
    · exact .inl hkeeps
    · by_cases hm : name = m
      · exact .inr ⟨actorRef, fetched, replica, by rw [hm]⟩
      · rw [HashMap.lookup_insert_if, if_neg hm] at hkeeps
        exact .inl hkeeps
  | removeActor m =>
    obtain ⟨-, rfl⟩ := step_removeActor hs
    left
    refine hkeeps.imp id ?_
    rintro ⟨call, hcall, hreconciles⟩
    rw [HashMap.lookup_insert_if] at hcall
    split at hcall
    · cases hcall
      cases hreconciles
    · exact ⟨call, hcall, hreconciles⟩
  | actorSection m failAt =>
    obtain ⟨call, hcall, hhost, -, hcalls⟩ := step_actorSection hs
    left
    by_cases hm : name = m
    · subst hm
      rw [hcalls, if_pos rfl, hhost] at hkeeps
      cases call with
      | check job | register job | lookup job | fill job group => exact .inr ⟨_, hcall, rfl⟩
      | readKey =>
        simp only [Host.actorSection] at hkeeps
        split at hkeeps
        · rcases hkeeps with hkey | ⟨_, ⟨⟩, ⟨⟩⟩
          exact .inl hkey
        · rcases hkeeps with hkey | ⟨_, ⟨⟩, ⟨⟩⟩
          exact .inl hkey
      | removeGroup key =>
        rcases hkeeps with hkey | ⟨_, ⟨⟩, ⟨⟩⟩
        exact .inl (by rwa [← (removeFromGroup_frame s.host key name).1])
      | dropKey =>
        rcases hkeeps with hkey | ⟨_, ⟨⟩, _⟩
        simp [Host.actorSection, Host.dropActorKey] at hkey
    · rw [hcalls, if_neg hm, hhost] at hkeeps
      rwa [(sectionPlaced hrouted h failAt hcall).keys name hm] at hkeeps
  | addLinkdef ld =>
    obtain ⟨-, ⟨-, rfl⟩ | ⟨-, rfl⟩⟩ := step_addLinkdef hs <;> exact .inl hkeeps
  | deleteLinkdef ld =>
    obtain ⟨-, ⟨-, rfl⟩ | ⟨found, -, rfl⟩⟩ := step_deleteLinkdef hs <;> exact .inl hkeeps
  | routeLinkdef =>
    obtain ⟨call, -, -, rfl⟩ := step_routeLinkdef hs
    exact .inl hkeeps
  | publishLinkdef outcome =>
    obtain ⟨call, -, -, rfl⟩ := step_publishLinkdef hs
    cases outcome <;> exact .inl hkeeps

end Steps

end KasmCloud
