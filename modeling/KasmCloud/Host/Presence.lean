/-
KasmCloud.Host.Presence — where the actors and their call loops are when
calls interleave.

A `reconcile_actor` call finds or makes its group under one lock and fills
it under another; a `remove_actor` call unregisters a group it finds empty.
`heldGroupsStay` is the condition that the second does not happen between
the two sections of the first, unless that call wants no instance.

Under it three things hold of every state:

* `Placed` — an actor is in the group registered under its key, and every
  call in progress knows what it needs for its next section;
* `LoopsExact` — the call loops running are those of the instances in the
  groups, each owned by one actor;
* `Intended` — a name whose calls have returned is as its last call wants.
-/
import KasmCloud.Host.Instances
import KasmCloud.Host.Routing

namespace KasmCloud

open Lib

/-! ## What calls want, and what they know -/

/-- What a call wants for its name. -/
inductive Intent where
  | reconcile (replica : Nat)
  | remove
  deriving DecidableEq, Repr

def ActorCall.intent : ActorCall → Intent
  | .check job | .register job | .lookup job | .fill job _ => .reconcile job.replica
  | .readKey | .removeGroup _ | .dropKey => .remove

/-- What the last call for a name wants, if there was one. -/
def lastCall (tr : List SystemStep) (name : String) : Option Intent :=
  tr.foldl
    (fun last step =>
      match step with
      | .reconcileActor n _ _ replica => if n = name then some (.reconcile replica) else last
      | .removeActor n => if n = name then some .remove else last
      | _ => last)
    none

theorem lastCall_snoc (tr : List SystemStep) (step : SystemStep) (name : String) :
    lastCall (tr ++ [step]) name =
      match step with
      | .reconcileActor n _ _ replica =>
        if n = name then some (.reconcile replica) else lastCall tr name
      | .removeActor n => if n = name then some .remove else lastCall tr name
      | _ => lastCall tr name := by
  simp only [lastCall, List.foldl_append, List.foldl_cons, List.foldl_nil]

/-- A name is registered, and its actor is in the group registered under its
key, with `n` instances. -/
def Host.Present (host : Host) (name : String) (n : Nat) : Prop :=
  ∃ key ref a, host.actorKeys.lookup name = some key ∧ host.actors.lookup key = some ref ∧
    host.actorAt ref name = some a ∧ a.instances.length = n

/-- A name is in no table. -/
def Host.Absent (host : Host) (name : String) : Prop :=
  host.actorKeys.lookup name = none ∧ ∀ ref, host.actorAt ref name = none

/-- A name is as its last call wants. -/
def Host.Settled (host : Host) (name : String) : Option Intent → Prop
  | none => host.Absent name
  | some (.reconcile n) => 0 < n → host.Present name n
  | some .remove => host.Absent name

/-- What a call knows before its next section. -/
def ActorCall.Knows (host : Host) (name : String) : ActorCall → Prop
  | .check _ | .readKey => True
  | .register job =>
    ∀ key, host.actorKeys.lookup name = some key → key = job.claims.subject
  | .lookup job => host.actorKeys.lookup name = some job.claims.subject
  | .fill job group =>
    host.actorKeys.lookup name = some job.claims.subject ∧
      (host.actors.lookup job.claims.subject = some group ∨
        job.replica = 0 ∧ host.actorAt group name = none)
  | .removeGroup key => host.actorKeys.lookup name = some key
  | .dropKey => ∀ ref, host.actorAt ref name = none

/-- Every actor is in the group registered under its key, and every call
knows what it needs. -/
structure Placed (s : System) : Prop where
  member : ∀ ref name a, s.host.actorAt ref name = some a →
    ∃ key, s.host.actorKeys.lookup name = some key ∧ s.host.actors.lookup key = some ref
  calls : ∀ name call, s.actorCalls.lookup name = some call → call.Knows s.host name

/-- Names whose calls have returned are settled; the others are wanted as
their call says. -/
def Intended (tr : List SystemStep) (s : System) : Prop :=
  ∀ name, match s.actorCalls.lookup name with
    | some call => lastCall tr name = some call.intent
    | none => s.host.Settled name (lastCall tr name)

/-! ## The steps considered -/

/-- Nothing fails: images are fetched and have claims, their key is the one
registered for the name, and every subscription succeeds. -/
def noFailure (s : System) : SystemStep → Bool
  | .reconcileActor _ actorRef fetched replica =>
    (ActorJob.fetched? actorRef fetched replica).isSome
  | .actorSection name failAt =>
    failAt.isNone &&
      match s.actorCalls.lookup name with
      | some (.check job) => (s.host.checkActorKey name job.claims.subject).isOk
      | _ => true
  | _ => true

/-- The call fills this group next, and wants instances in it. -/
def ActorCall.fills (ref : Ref) : ActorCall → Bool
  | .fill job group => group == ref && decide (0 < job.replica)
  | _ => false

/-- A group that has no actor besides this one. -/
def Host.onlyActor (host : Host) (ref : Ref) (name : String) : Bool :=
  match host.groups.get? ref with
  | some g => HashMap.isEmpty (g.actors.erase name)
  | none => true

/-- A group that a `remove_actor` section finds empty, and unregisters, is
not about to be filled by a call that wants instances. -/
def heldGroupsStay (s : System) : SystemStep → Bool
  | .actorSection name _ =>
    match s.actorCalls.lookup name with
    | some (.removeGroup key) =>
      match s.host.actors.lookup key with
      | some ref => !(s.host.onlyActor ref name && s.actorCalls.values.any (·.fills ref))
      | none => true
    | _ => true
  | _ => true

theorem noFailure_section {s : System} {name : String} {failAt : Option Nat}
    (h : noFailure s (.actorSection name failAt) = true) :
    failAt = none ∧ ∀ job, s.actorCalls.lookup name = some (.check job) →
      s.host.checkActorKey name job.claims.subject = .ok () := by
  simp only [noFailure, Bool.and_eq_true, Option.isNone_iff_eq_none] at h
  refine ⟨h.1, fun job hcall => ?_⟩
  have hok := h.2
  simp only [hcall] at hok
  cases hcheck : s.host.checkActorKey name job.claims.subject with
  | ok u => rfl
  | error e =>
    rw [hcheck] at hok
    cases hok

theorem heldGroupsStay_section {s : System} {name : String} {failAt : Option Nat}
    (h : heldGroupsStay s (.actorSection name failAt) = true) {key : String} {ref : Ref}
    {g : ActorGroup} (hcall : s.actorCalls.lookup name = some (.removeGroup key))
    (hreg : s.host.actors.lookup key = some ref) (hg : s.host.groups.get? ref = some g)
    (hempty : HashMap.isEmpty (g.actors.erase name) = true) {m : String} {job : ActorJob}
    (hfill : s.actorCalls.lookup m = some (.fill job ref)) : job.replica = 0 := by
  simp only [heldGroupsStay, hcall, hreg, Host.onlyActor, hg, hempty, Bool.true_and,
    Bool.not_eq_true', List.any_eq_false] at h
  have hnot := h _ (HashMap.mem_values.mpr ⟨m, hfill⟩)
  simpa [ActorCall.fills] using hnot

/-! ## What one section of an actor call keeps -/

section Sections

variable {host : Host} {name : String}

theorem checkActorKey_ok {key : String} (h : host.checkActorKey name key = .ok ()) :
    ∀ key', host.actorKeys.lookup name = some key' → key' = key := by
  intro key' hkey'
  unfold Host.checkActorKey at h
  rw [hkey'] at h
  simp only at h
  split at h
  · cases h
  · rename_i heq
    exact not_not.mp heq

/-- Filling a group with nothing failing: the actors, the loops and the
number of instances afterwards. -/
theorem fill_section (hloops : LoopsExact host) (job : ActorJob) {group : Ref} {g : ActorGroup}
    (hg : host.groups.get? group = some g) :
    LoopsExact (host.actorSection name none (.fill job group)).1 ∧
      (∀ ref m, ¬ (ref = group ∧ m = name) →
        (host.actorSection name none (.fill job group)).1.actorAt ref m = host.actorAt ref m) ∧
      (0 < job.replica → ∃ a,
        (host.actorSection name none (.fill job group)).1.actorAt group name = some a ∧
          a.instances.length = job.replica) := by
  obtain ⟨host', dropped, kept, fresh, hfill, hres, hlen, hsome⟩ :=
    (fillGroup_resized hg job.claims_eq name job.actorRef job.replica none).resolve_right
      fun ⟨_, hfail, _⟩ => absurd hfail (by simp)
  simp only [Host.actorSection, hfill]
  refine ⟨hloops.resized hres, hres.others, fun hpos => ?_⟩
  obtain ⟨a, ha⟩ := hsome hpos
  exact ⟨a, ha, by rwa [instancesAt_of_some ha] at hlen⟩

/-- A call that wants no instance, for a name the group does not have,
changes nothing. -/
theorem fillGroup_nothing (host : Host) {group : Ref} (hnone : host.actorAt group name = none)
    (actor : WasmActor) (actorRef : String) (failAt : Option Nat) :
    host.fillGroup group name actor actorRef 0 failAt = (host, .ok ()) := by
  unfold Host.fillGroup
  split
  · rfl
  · rename_i g hg
    rw [actorAt_of_group hg] at hnone
    simp [hnone]

end Sections

/-- What a section of a call for `name` leaves behind, with `next` the rest of
the call. -/
structure SectionOk (s : System) (name : String) (call : ActorCall) (host : Host)
    (next : Option ActorCall) : Prop where
  others : ∀ ref m, m ≠ name → host.actorAt ref m = s.host.actorAt ref m
  keys : ∀ m, m ≠ name → host.actorKeys.lookup m = s.host.actorKeys.lookup m
  registered : ∀ key ref, s.host.actors.lookup key = some ref →
    host.actors.lookup key = some ref ∨
      (∀ m, host.actorAt ref m = none) ∧
        ∀ m job, m ≠ name → s.actorCalls.lookup m = some (.fill job ref) → job.replica = 0
  own : ∀ ref a, host.actorAt ref name = some a →
    ∃ key, host.actorKeys.lookup name = some key ∧ host.actors.lookup key = some ref
  goesOn : ∀ call', next = some call' → call'.Knows host name ∧ call'.intent = call.intent
  returns : next = none → host.Settled name (some call.intent)
  loops : LoopsExact host

section Section

variable {sha256 : String → String} {s : System} {name : String}

/-- A registered group has a cell. -/
theorem Routed.cell (h : Routed sha256 s) {key : String} {ref : Ref}
    (hreg : s.host.actors.lookup key = some ref) : ∃ g, s.host.groups.get? ref = some g := by
  obtain ⟨table, hheader, -⟩ := h.registered key ref hreg
  obtain ⟨g, hg, -⟩ := Option.map_eq_some_iff.mp hheader
  exact ⟨g, hg⟩

/-- A name without a key is in no group. -/
theorem Placed.absent_of_no_key (h : Placed s) (hkey : s.host.actorKeys.lookup name = none) :
    s.host.Absent name := by
  refine ⟨hkey, fun ref => ?_⟩
  cases hat : s.host.actorAt ref name with
  | none => rfl
  | some a =>
    obtain ⟨key, hkey', -⟩ := h.member ref name a hat
    rw [hkey] at hkey'
    cases hkey'

theorem sectionOk_check (h : Placed s) (hloops : LoopsExact s.host) {job : ActorJob}
    (hok : s.host.checkActorKey name job.claims.subject = .ok ()) :
    SectionOk s name (.check job) s.host (some (.register job)) where
  others _ _ _ := rfl
  keys _ _ := rfl
  registered _ _ hreg := .inl hreg
  own ref a ha := h.member ref name a ha
  goesOn := by
    rintro _ ⟨⟩
    exact ⟨checkActorKey_ok hok, rfl⟩
  returns := by rintro ⟨⟩
  loops := hloops

theorem sectionOk_register (h : Placed s) (hloops : LoopsExact s.host) {job : ActorJob}
    (hcall : s.actorCalls.lookup name = some (.register job)) :
    SectionOk s name (.register job) (s.host.registerActorKey name job.claims.subject)
      (some (.lookup job)) := by
  obtain ⟨-, hactors, hgroups⟩ := registerActorKey_frame s.host name job.claims.subject
  have hat := actorAt_congr hgroups
  have hknown := h.calls name _ hcall
  constructor
  · exact fun ref m _ => hat ref m
  · intro m hm
    rw [registerActorKey_lookup, if_neg hm]
  · intro key ref hreg
    rw [hactors]
    exact .inl hreg
  · intro ref a ha
    rw [hat] at ha
    obtain ⟨key, hkey, hreg⟩ := h.member ref name a ha
    rw [hactors, registerActorKey_lookup, if_pos rfl, hkey]
    exact ⟨key, rfl, hreg⟩
  · rintro _ ⟨⟩
    refine ⟨?_, rfl⟩
    simp only [ActorCall.Knows]
    rw [registerActorKey_lookup, if_pos rfl]
    cases hkey : s.host.actorKeys.lookup name with
    | none => rfl
    | some key => rw [hknown key hkey]; rfl
  · rintro ⟨⟩
  · refine hloops.congr hat ?_ ?_ <;> simp only [Host.registerActorKey] <;> split <;> rfl

theorem sectionOk_lookup (h : Placed s) (hloops : LoopsExact s.host) {job : ActorJob}
    (hcall : s.actorCalls.lookup name = some (.lookup job)) :
    SectionOk s name (.lookup job) (s.host.lookupGroup job.claims.subject).2
      (some (.fill job (s.host.lookupGroup job.claims.subject).1)) := by
  obtain ⟨hkeys, -, hloopsEq, hnext⟩ := lookupGroup_frame s.host job.claims.subject
  have hknown : s.host.actorKeys.lookup name = some job.claims.subject := h.calls name _ hcall
  -- registered groups stay registered, and the call's group is registered now
  have hreg : (∀ key ref, s.host.actors.lookup key = some ref →
        (s.host.lookupGroup job.claims.subject).2.actors.lookup key = some ref) ∧
      (s.host.lookupGroup job.claims.subject).2.actors.lookup job.claims.subject =
        some (s.host.lookupGroup job.claims.subject).1 := by
    cases hfound : s.host.actors.lookup job.claims.subject with
    | some ref => simp [lookupGroup_found hfound, hfound]
    | none =>
      obtain ⟨h1, h2, -⟩ := lookupGroup_made hfound
      rw [h1, h2]
      refine ⟨fun key ref hkey => ?_, by simp⟩
      rw [HashMap.lookup_insert_if, if_neg]
      · exact hkey
      · rintro rfl
        rw [hfound] at hkey
        cases hkey
  constructor
  · exact fun ref m _ => lookupGroup_actorAt _ _ _ _
  · intro m _
    rw [hkeys]
  · exact fun key ref hkey => .inl (hreg.1 key ref hkey)
  · intro ref a ha
    rw [lookupGroup_actorAt] at ha
    obtain ⟨key, hkey, href⟩ := h.member ref name a ha
    exact ⟨key, by rw [hkeys]; exact hkey, hreg.1 key ref href⟩
  · rintro _ ⟨⟩
    exact ⟨⟨by rw [hkeys]; exact hknown, .inl hreg.2⟩, rfl⟩
  · rintro ⟨⟩
  · exact hloops.congr (lookupGroup_actorAt _ _) hloopsEq hnext

theorem sectionOk_fill (hrouted : Routed sha256 s) (h : Placed s) (hloops : LoopsExact s.host)
    {job : ActorJob} {group : Ref} (hcall : s.actorCalls.lookup name = some (.fill job group)) :
    SectionOk s name (.fill job group)
      (s.host.fillGroup group name job.actor job.actorRef job.replica none).1 none := by
  obtain ⟨hkey, hplace⟩ := h.calls name _ hcall
  rcases hplace with hreg | ⟨hzero, hnone⟩
  · obtain ⟨g, hg⟩ := hrouted.cell hreg
    obtain ⟨hloops', hothers, hpresent⟩ := fill_section hloops job hg
    obtain ⟨hkeys, hactors, -⟩ := fillGroup_frame job.claims_eq group name job.actorRef job.replica none
    refine ⟨fun ref m hm => hothers ref m fun hp => hm hp.2, fun m _ => by rw [hkeys],
      fun key ref hkey => .inl (by rw [hactors]; exact hkey), ?_, by rintro _ ⟨⟩, ?_, hloops'⟩
    · intro ref a ha
      rw [hkeys, hactors]
      by_cases href : ref = group
      · exact ⟨_, hkey, href ▸ hreg⟩
      · exact h.member ref name a (by rwa [← hothers ref name fun hp => href hp.1])
    · rintro - hpos
      obtain ⟨a, ha, hlen⟩ := hpresent hpos
      exact ⟨_, group, a, by rw [hkeys]; exact hkey, by rw [hactors]; exact hreg, ha, hlen⟩
  · -- the group is gone, and the call wants nothing in it
    rw [hzero, fillGroup_nothing s.host hnone]
    refine ⟨fun _ _ _ => rfl, fun _ _ => rfl, fun _ _ hreg => .inl hreg,
      fun ref a ha => h.member ref name a ha, by rintro _ ⟨⟩, ?_, hloops⟩
    rintro - hpos
    rw [hzero] at hpos
    exact absurd hpos (Nat.lt_irrefl 0)

theorem sectionOk_readKey (h : Placed s) (hloops : LoopsExact s.host) :
    SectionOk s name .readKey s.host
      ((s.host.readActorKey name).map .removeGroup) where
  others _ _ _ := rfl
  keys _ _ := rfl
  registered _ _ hreg := .inl hreg
  own ref a ha := h.member ref name a ha
  goesOn := by
    intro call' hnext
    obtain ⟨key, hkey, rfl⟩ := Option.map_eq_some_iff.mp hnext
    exact ⟨hkey, rfl⟩
  returns := by
    intro hnext
    exact h.absent_of_no_key (Option.map_eq_none_iff.mp hnext)
  loops := hloops

theorem sectionOk_removeGroup (hrouted : Routed sha256 s) (h : Placed s)
    (hloops : LoopsExact s.host) {key : String}
    (hcall : s.actorCalls.lookup name = some (.removeGroup key))
    (hheld : heldGroupsStay s (.actorSection name none) = true) :
    SectionOk s name (.removeGroup key) (s.host.removeFromGroup key name) (some .dropKey) := by
  have hknown : s.host.actorKeys.lookup name = some key := h.calls name _ hcall
  obtain ⟨hkeys, -, -⟩ := removeFromGroup_frame s.host key name
  -- the name is in no group but the one registered under its key
  have honly : ∀ ref, s.host.actors.lookup key ≠ some ref → s.host.actorAt ref name = none := by
    intro ref hne
    cases hat : s.host.actorAt ref name with
    | none => rfl
    | some a =>
      obtain ⟨key', hkey', href⟩ := h.member ref name a hat
      rw [hknown, Option.some.injEq] at hkey'
      exact absurd (hkey' ▸ href) hne
  cases hreg : s.host.actors.lookup key with
  | none =>
    rw [removeFromGroup_unknown hreg]
    have hnone : ∀ ref, s.host.actorAt ref name = none :=
      fun ref => honly ref (by rw [hreg]; simp)
    refine ⟨fun _ _ _ => rfl, fun _ _ => rfl, fun _ _ hreg => .inl hreg,
      fun ref a ha => h.member ref name a ha, ?_, by rintro ⟨⟩, hloops⟩
    rintro _ ⟨⟩
    exact ⟨hnone, rfl⟩
  | some ref =>
    obtain ⟨g, hg⟩ := hrouted.cell hreg
    obtain ⟨hactors, hgone, hres⟩ := removeFromGroup_spec hreg hg name
    have hnone : ∀ ref', (s.host.removeFromGroup key name).actorAt ref' name = none := by
      intro ref'
      by_cases href : ref' = ref
      · rw [href]; exact hgone
      · rw [hres.others ref' name fun hp => href hp.1]
        exact honly ref' (by rw [hreg]; simpa using Ne.symm href)
    refine ⟨fun ref' m hm => hres.others ref' m fun hp => hm hp.2, fun m _ => by rw [hkeys],
      ?_, fun ref' a ha => absurd ((hnone ref').symm.trans ha) (by simp), ?_, by rintro ⟨⟩,
      hloops.resized hres⟩
    · intro key' ref' hreg'
      rw [hactors]
      split
      · rename_i hempty
        by_cases hkey' : key' = key
        · -- the group goes: it is empty, and nobody is about to fill it
          subst hkey'
          rw [hreg, Option.some.injEq] at hreg'
          subst hreg'
          refine .inr ⟨fun m => ?_, fun m job _ hfill =>
            heldGroupsStay_section hheld hcall hreg hg hempty hfill⟩
          by_cases hm : m = name
          · rw [hm]; exact hgone
          · have hother := HashMap.isEmpty_iff.mp hempty m
            rw [HashMap.lookup_erase_if, if_neg hm] at hother
            rw [hres.others ref m fun hp => hm hp.2, actorAt_of_group hg]
            exact hother
        · left
          rw [HashMap.lookup_erase_if, if_neg hkey']
          exact hreg'
      · exact .inl hreg'
    · rintro _ ⟨⟩
      exact ⟨hnone, rfl⟩

theorem sectionOk_dropKey (h : Placed s) (hloops : LoopsExact s.host)
    (hcall : s.actorCalls.lookup name = some .dropKey) :
    SectionOk s name .dropKey (s.host.dropActorKey name) none := by
  have hknown : ∀ ref, s.host.actorAt ref name = none := h.calls name _ hcall
  refine ⟨fun _ _ _ => rfl, fun m hm => ?_, fun _ _ hreg => .inl hreg, fun ref a ha => ?_,
    by rintro _ ⟨⟩, fun _ => ⟨?_, hknown⟩, hloops.congr (fun _ _ => rfl) rfl rfl⟩
  · simp [Host.dropActorKey, hm]
  · exact absurd ((hknown ref).symm.trans ha) (by simp)
  · simp [Host.dropActorKey]

/-- Every section of a call, with nothing failing and no held group
unregistered. -/
theorem sectionOk (hrouted : Routed sha256 s) (h : Placed s) (hloops : LoopsExact s.host)
    {failAt : Option Nat} {call : ActorCall} (hcall : s.actorCalls.lookup name = some call)
    (hfail : noFailure s (.actorSection name failAt) = true)
    (hheld : heldGroupsStay s (.actorSection name failAt) = true) :
    SectionOk s name call (s.host.actorSection name failAt call).1
      (s.host.actorSection name failAt call).2 := by
  obtain ⟨rfl, hkey⟩ := noFailure_section hfail
  cases call with
  | check job =>
    have hok := hkey job hcall
    simp only [Host.actorSection, hok]
    exact sectionOk_check h hloops hok
  | register job => exact sectionOk_register h hloops hcall
  | lookup job => exact sectionOk_lookup h hloops hcall
  | fill job group => exact sectionOk_fill hrouted h hloops hcall
  | readKey =>
    have hsame : SectionOk s name .readKey s.host _ := sectionOk_readKey h hloops
    cases hread : s.host.readActorKey name with
    | none => simpa [Host.actorSection, hread] using hsame
    | some key => simpa [Host.actorSection, hread] using hsame
  | removeGroup key => exact sectionOk_removeGroup hrouted h hloops hcall hheld
  | dropKey => exact sectionOk_dropKey h hloops hcall

/-! ## What it means for the other names -/

variable {call : ActorCall} {host : Host} {next : Option ActorCall} {m : String}

/-- The other calls still know what they need. -/
theorem SectionOk.knows_ne (h : SectionOk s name call host next) (hm : m ≠ name)
    {call' : ActorCall} (hcall : s.actorCalls.lookup m = some call')
    (hknows : call'.Knows s.host m) : call'.Knows host m := by
  cases call' with
  | check job => trivial
  | readKey => trivial
  | register job => simpa only [ActorCall.Knows, h.keys m hm] using hknows
  | lookup job => simpa only [ActorCall.Knows, h.keys m hm] using hknows
  | removeGroup key => simpa only [ActorCall.Knows, h.keys m hm] using hknows
  | dropKey =>
    intro ref
    rw [h.others ref m hm]
    exact hknows ref
  | fill job group =>
    obtain ⟨hkey, hplace⟩ := hknows
    refine ⟨by rw [h.keys m hm]; exact hkey, ?_⟩
    rcases hplace with hreg | ⟨hzero, hnone⟩
    · rcases h.registered _ group hreg with hstays | ⟨hempty, hfills⟩
      · exact .inl hstays
      · exact .inr ⟨hfills m job hm hcall, hempty m⟩
    · exact .inr ⟨hzero, by rw [h.others group m hm]; exact hnone⟩

/-- The other names stay settled. -/
theorem SectionOk.settled_ne (h : SectionOk s name call host next) (hm : m ≠ name)
    {want : Option Intent} (hsettled : s.host.Settled m want) : host.Settled m want := by
  have habsent : s.host.Absent m → host.Absent m := by
    rintro ⟨hkey, hnone⟩
    exact ⟨by rw [h.keys m hm]; exact hkey, fun ref => by rw [h.others ref m hm]; exact hnone ref⟩
  match want with
  | none => exact habsent hsettled
  | some .remove => exact habsent hsettled
  | some (.reconcile n) =>
    intro hpos
    obtain ⟨key, ref, a, hkey, hreg, hat, hlen⟩ := hsettled hpos
    refine ⟨key, ref, a, by rw [h.keys m hm]; exact hkey, ?_,
      by rw [h.others ref m hm]; exact hat, hlen⟩
    rcases h.registered key ref hreg with hstays | ⟨hempty, -⟩
    · exact hstays
    · rw [← h.others ref m hm, hempty m] at hat
      cases hat

/-- The other names' actors stay in registered groups. -/
theorem SectionOk.member (h : SectionOk s name call host next) (hplaced : Placed s) :
    ∀ ref m a, host.actorAt ref m = some a →
      ∃ key, host.actorKeys.lookup m = some key ∧ host.actors.lookup key = some ref := by
  intro ref m a ha
  by_cases hm : m = name
  · subst hm
    exact h.own ref a ha
  · have hold := ha
    rw [h.others ref m hm] at hold
    obtain ⟨key, hkey, hreg⟩ := hplaced.member ref m a hold
    refine ⟨key, by rw [h.keys m hm]; exact hkey, ?_⟩
    rcases h.registered key ref hreg with hstays | ⟨hempty, -⟩
    · exact hstays
    · rw [hempty m] at ha
      cases ha

end Section

/-! ## Steps keep the invariant -/

/-- The three properties together. -/
structure Steady (tr : List SystemStep) (s : System) : Prop where
  placed : Placed s
  loops : LoopsExact s.host
  intended : Intended tr s

section Steps

variable {sha256 : String → String} {tr : List SystemStep} {s s' : System}

/-- A step that leaves the actors and their calls alone. -/
theorem Steady.congr (h : Steady tr s) (hcalls : s'.actorCalls = s.actorCalls)
    (hat : ∀ ref name, s'.host.actorAt ref name = s.host.actorAt ref name)
    (hkeys : s'.host.actorKeys = s.host.actorKeys) (hactors : s'.host.actors = s.host.actors)
    (hloops : s'.host.loops = s.host.loops) (hnext : s'.host.nextId = s.host.nextId)
    {tr' : List SystemStep} (htr : ∀ name, lastCall tr' name = lastCall tr name) :
    Steady tr' s' where
  placed := {
    member := by
      intro ref name a ha
      rw [hat] at ha
      rw [hkeys, hactors]
      exact h.placed.member ref name a ha
    calls := by
      intro name call hcall
      rw [hcalls] at hcall
      have hknows := h.placed.calls name call hcall
      cases call <;>
        first
        | trivial
        | simpa only [ActorCall.Knows, hkeys, hactors, hat] using hknows }
  loops := h.loops.congr hat hloops hnext
  intended := by
    intro name
    have hname := h.intended name
    rw [hcalls, htr]
    cases hcall : s.actorCalls.lookup name with
    | some call => simpa only [hcall] using hname
    | none =>
      simp only [hcall] at hname ⊢
      match hwant : lastCall tr name with
      | none | some .remove | some (.reconcile n) =>
        simpa only [hwant, Host.Settled, Host.Absent, Host.Present, hkeys, hactors, hat]
          using hname

/-- A call begins. -/
theorem Steady.begin (h : Steady tr s) {name : String} (call : ActorCall)
    (hknows : call.Knows s.host name) {tr' : List SystemStep}
    (hself : lastCall tr' name = some call.intent)
    (hne : ∀ m, m ≠ name → lastCall tr' m = lastCall tr m) :
    Steady tr' { s with actorCalls := s.actorCalls.insert name call } where
  placed := {
    member := h.placed.member
    calls := by
      intro m call' hcall
      simp only [HashMap.lookup_insert_if] at hcall
      split at hcall
      · rename_i heq
        cases hcall
        rw [heq]
        exact hknows
      · exact h.placed.calls m call' hcall }
  loops := h.loops
  intended := by
    intro m
    simp only [HashMap.lookup_insert_if]
    by_cases hm : m = name
    · subst hm
      simpa using hself
    · rw [if_neg hm, hne m hm]
      exact h.intended m

theorem steady_actorSection (hrouted : Routed sha256 s) (h : Steady tr s) {name : String}
    {failAt : Option Nat} (hs : s.step sha256 (.actorSection name failAt) = some s')
    (hfail : noFailure s (.actorSection name failAt) = true)
    (hheld : heldGroupsStay s (.actorSection name failAt) = true) :
    Steady (tr ++ [.actorSection name failAt]) s' := by
  obtain ⟨call, hcall, hhost, -, hcalls⟩ := step_actorSection hs
  have hok := sectionOk hrouted h.placed h.loops hcall hfail hheld
  rw [← hhost] at hok
  have hwant : lastCall tr name = some call.intent := by
    have hname := h.intended name
    rwa [hcall] at hname
  refine ⟨⟨hok.member h.placed, ?_⟩, hok.loops, ?_⟩
  · intro m call' hcall'
    rw [hcalls] at hcall'
    split at hcall'
    · rename_i hm
      rw [hm]
      exact (hok.goesOn call' hcall').1
    · rename_i hm
      exact hok.knows_ne hm hcall' (h.placed.calls m call' hcall')
  · intro m
    rw [hcalls, lastCall_snoc]
    by_cases hm : m = name
    · subst hm
      rw [if_pos rfl]
      cases hnext : (s.host.actorSection m failAt call).2 with
      | some call' =>
        simp only [hwant, (hok.goesOn call' hnext).2]
      | none =>
        simp only [hwant]
        exact hok.returns hnext
    · rw [if_neg hm]
      have hname := h.intended m
      cases hcall' : s.actorCalls.lookup m with
      | some call' => simpa only [hcall'] using hname
      | none =>
        simp only [hcall'] at hname ⊢
        exact hok.settled_ne hm hname

/-- Every step in which nothing fails and no held group is unregistered. -/
theorem steady_step (hrouted : Routed sha256 s) (h : Steady tr s) {step : SystemStep}
    (hs : s.step sha256 step = some s') (hfail : noFailure s step = true)
    (hheld : heldGroupsStay s step = true) : Steady (tr ++ [step]) s' := by
  cases step with
  | reconcileActor name actorRef fetched replica =>
    obtain ⟨-, ⟨hnone, -⟩ | ⟨job, hjob, rfl⟩⟩ := step_reconcileActor hs
    · simp [noFailure, hnone] at hfail
    · have hreplica := (ActorJob.fetched?_eq_some hjob).2.2
      refine h.begin (.check job) trivial ?_ fun m hm => ?_
      · rw [lastCall_snoc]
        simp [ActorCall.intent, hreplica]
      · rw [lastCall_snoc]
        exact if_neg (Ne.symm hm)
  | removeActor name =>
    obtain ⟨-, rfl⟩ := step_removeActor hs
    refine h.begin .readKey trivial ?_ fun m hm => ?_
    · rw [lastCall_snoc]
      simp [ActorCall.intent]
    · rw [lastCall_snoc]
      exact if_neg (Ne.symm hm)
  | actorSection name failAt => exact steady_actorSection hrouted h hs hfail hheld
  | addLinkdef ld =>
    obtain ⟨-, ⟨-, rfl⟩ | ⟨-, rfl⟩⟩ := step_addLinkdef hs <;>
      refine h.congr ?_ (fun _ _ => ?_) ?_ ?_ ?_ ?_ fun name => lastCall_snoc _ _ _ <;> rfl
  | deleteLinkdef ld =>
    obtain ⟨-, ⟨-, rfl⟩ | ⟨found, -, rfl⟩⟩ := step_deleteLinkdef hs <;>
      refine h.congr ?_ (fun _ _ => ?_) ?_ ?_ ?_ ?_ fun name => lastCall_snoc _ _ _ <;> rfl
  | routeLinkdef =>
    obtain ⟨call, -, -, rfl⟩ := step_routeLinkdef hs
    refine h.congr ?_ (onGroupLinks_actorAt _ _ _) ?_ ?_ ?_ ?_
      (fun name => lastCall_snoc _ _ _) <;> rfl
  | publishLinkdef outcome =>
    obtain ⟨call, -, -, rfl⟩ := step_publishLinkdef hs
    cases outcome <;>
      refine h.congr ?_ (fun _ _ => ?_) ?_ ?_ ?_ ?_ (fun name => lastCall_snoc _ _ _) <;> rfl

end Steps

theorem steady_new (latticePrefix : String) : Steady [] (System.new latticePrefix) where
  placed := ⟨fun ref name a ha => (by cases ha), fun name call hcall => (by cases hcall)⟩
  loops := by
    refine ⟨idsApart_new latticePrefix, fun id => ?_⟩
    simp [System.new, Host.new, Host.idsAt, Host.instancesAt, Host.actorAt]
  intended := fun name => ⟨rfl, fun _ => rfl⟩

/-- Nothing fails, and no held group is unregistered. -/
def settlingStep (s : System) (step : SystemStep) : Bool :=
  noFailure s step && heldGroupsStay s step

theorem steady_of_run {sha256 : String → String} {latticePrefix : String} {tr : List SystemStep}
    {s : System}
    (h : (hostMachine sha256 latticePrefix).RunWhen (fun s step => settlingStep s step = true)
      tr s) : Steady tr s := by
  refine h.induction (I := Steady) (steady_new latticePrefix) ?_
  intro tr s step s' hrun hI hok hs
  obtain ⟨hfail, hheld⟩ := Bool.and_eq_true_iff.mp hok
  exact steady_step (routed_of_reachable hrun.reachable) hI hs hfail hheld

/-- Once all calls have returned: a name last reconciled to `n > 0` is in the
group of its key with `n` instances, a name last removed is in no table, and
the call loops running are those of the instances in registered groups. -/
structure ActorsSettled (tr : List SystemStep) (host : Host) : Prop where
  reconciled : ∀ name n, lastCall tr name = some (.reconcile n) → 0 < n →
    ∃ key g a, host.actorKeys.lookup name = some key ∧ host.group? key = some g ∧
      g.actors.lookup name = some a ∧ a.instances.length = n
  removed : ∀ name, lastCall tr name = some .remove →
    host.actorKeys.lookup name = none ∧
      ∀ key g, host.group? key = some g → g.actors.lookup name = none
  loops : ∀ id, id ∈ host.loops ↔ ∃ key g name a i, host.group? key = some g ∧
    g.actors.lookup name = some a ∧ i ∈ a.instances ∧ i.id = id

/-- **No actor is lost or orphaned**, in every run in which nothing fails and
no held group is unregistered. -/
theorem actors_settled (sha256 : String → String) (latticePrefix : String)
    (tr : List SystemStep) (s : System)
    (h : (hostMachine sha256 latticePrefix).RunWhen (fun s step => settlingStep s step = true)
      tr s) (hreturned : s.actorCalls.isEmpty = true) : ActorsSettled tr s.host := by
  have hsteady := steady_of_run h
  have hsettled : ∀ name, s.host.Settled name (lastCall tr name) := by
    intro name
    have hname := hsteady.intended name
    rwa [HashMap.isEmpty_iff.mp hreturned name] at hname
  have hgroup : ∀ key ref g, s.host.actors.lookup key = some ref →
      s.host.groups.get? ref = some g → s.host.group? key = some g := by
    intro key ref g hreg hg
    simp [Host.group?, hreg, hg]
  refine ⟨fun name n hlast hpos => ?_, fun name hlast => ?_, fun id => ?_⟩
  · have hname := hsettled name
    rw [hlast] at hname
    obtain ⟨key, ref, a, hkey, hreg, hat, hlen⟩ := hname hpos
    obtain ⟨g, hg, hlook⟩ := group_of_actorAt hat
    exact ⟨key, g, a, hkey, hgroup key ref g hreg hg, hlook, hlen⟩
  · have hname := hsettled name
    rw [hlast] at hname
    refine ⟨hname.1, fun key g hkey => ?_⟩
    obtain ⟨ref, -, hg⟩ := Option.bind_eq_some_iff.mp hkey
    rw [← actorAt_of_group hg]
    exact hname.2 ref
  · rw [hsteady.loops.mem_iff]
    constructor
    · rintro ⟨ref, name, hid⟩
      obtain ⟨i, hi, rfl⟩ := List.mem_map.mp hid
      cases hat : s.host.actorAt ref name with
      | none =>
        rw [instancesAt_of_none hat] at hi
        cases hi
      | some a =>
        rw [instancesAt_of_some hat] at hi
        obtain ⟨key, -, hreg⟩ := hsteady.placed.member ref name a hat
        obtain ⟨g, hg, hlook⟩ := group_of_actorAt hat
        exact ⟨key, g, name, a, i, hgroup key ref g hreg hg, hlook, hi, rfl⟩
    · rintro ⟨key, g, name, a, i, hkey, hlook, hi, rfl⟩
      obtain ⟨ref, -, hg⟩ := Option.bind_eq_some_iff.mp hkey
      rw [← actorAt_of_group hg] at hlook
      refine ⟨ref, name, List.mem_map_of_mem ?_⟩
      rw [instancesAt_of_some hlook]
      exact hi

/-! ## A group unregistered while a call holds it -/

/-- `one` runs; `two`, of the same key, has found their group; `one` is
removed; `two` fills the group. -/
def orphaningRun : List SystemStep :=
  [.reconcileActor "one" "image" (.ok imageM) 1, .actorSection "one" none,
    .actorSection "one" none, .actorSection "one" none, .actorSection "one" none,
    .reconcileActor "two" "image" (.ok imageM) 1, .actorSection "two" none,
    .actorSection "two" none, .actorSection "two" none,
    .removeActor "one", .actorSection "one" none, .actorSection "one" none,
    .actorSection "one" none,
    .actorSection "two" none]

/-- Nothing fails and all calls return, but `two` runs in a group that no
table knows. -/
theorem orphaningRun_not_settled :
    ∃ s, (hostMachine id "default").RunWhen (fun s step => noFailure s step = true)
        orphaningRun s ∧
      s.actorCalls.isEmpty = true ∧ ¬ ActorsSettled orphaningRun s.host := by
  have hreturned : ((hostMachine id "default").execWhen noFailure (System.new "default")
      orphaningRun).map (·.actorCalls.isEmpty) = some true := by decide
  have hgroups : ((hostMachine id "default").execWhen noFailure (System.new "default")
      orphaningRun).map (·.host.actors.isEmpty) = some true := by decide
  obtain ⟨s, hexec, hreturned⟩ := Option.map_eq_some_iff.mp hreturned
  rw [hexec, Option.map_some, Option.some.injEq] at hgroups
  refine ⟨s, Machine.runWhen_of_execWhen hexec, hreturned, fun hsettled => ?_⟩
  obtain ⟨key, g, -, -, hgroup, -⟩ := hsettled.reconciled "two" 1 (by decide) (by decide)
  simp [Host.group?, HashMap.isEmpty_iff.mp hgroups key] at hgroup

/-- The same calls, with the removal before the second call's lookup. -/
def settlingRun : List SystemStep :=
  [.reconcileActor "one" "image" (.ok imageM) 1, .actorSection "one" none,
    .actorSection "one" none, .actorSection "one" none, .actorSection "one" none,
    .reconcileActor "two" "image" (.ok imageM) 1, .actorSection "two" none,
    .actorSection "two" none,
    .removeActor "one", .actorSection "one" none, .actorSection "one" none,
    .actorSection "one" none,
    .actorSection "two" none, .actorSection "two" none]

theorem settlingRun_settled :
    ∃ s, (hostMachine id "default").RunWhen (fun s step => settlingStep s step = true)
        settlingRun s ∧ ActorsSettled settlingRun s.host := by
  have hreturned : ((hostMachine id "default").execWhen settlingStep (System.new "default")
      settlingRun).map (·.actorCalls.isEmpty) = some true := by decide
  obtain ⟨s, hexec, hreturned⟩ := Option.map_eq_some_iff.mp hreturned
  have hrun := Machine.runWhen_of_execWhen hexec
  exact ⟨s, hrun, actors_settled id "default" settlingRun s hrun hreturned⟩

end KasmCloud
