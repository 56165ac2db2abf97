/-
KasmCloud.Host.Routing — the links tables of the groups agree with
`Host.links`, whatever calls are interleaved.

A group's links table is made by a fold over `Host.links` when the group is
created and edited with every link call after that. `Routed` is the
invariant that ties the two together: every definition is under its hash,
every registered group has the key it is registered under, its table agrees
with the definitions except where a link call is between its two sections,
and such a call's definition is in `Host.links` or not as its verb says.

`Routed` excepts the triple of the definition a call works on. The call may
have been made with another one: `delete_linkdef` works on whatever it finds
under the hash. `routingTables_agree_iff` says in which runs the tables agree
all along: those in which every deletion finds its own.
-/
import KasmCloud.Host.Concurrent

namespace KasmCloud

open Lib

/-! ## Headers under the sections of actor calls -/

section Sections

variable (host : Host) (name : String) (failAt : Option Nat) (call : ActorCall)

theorem lookupGroup_header? (key : String) {ref : Ref} {hd : String × LinkTable}
    (h : (host.lookupGroup key).2.header? ref = some hd) :
    host.header? ref = some hd ∨ hd = (key, host.getActorLinks key) := by
  cases hreg : host.actors.lookup key with
  | some found =>
    rw [lookupGroup_found hreg] at h
    exact .inl h
  | none =>
    simp only [Host.header?, (lookupGroup_made hreg).2.2] at h
    split at h
    · exact .inr (Option.some.inj h).symm
    · exact .inl h

/-- Actor calls do not touch the definitions. -/
@[simp] theorem actorSection_links : (host.actorSection name failAt call).1.links = host.links := by
  cases call with
  | check job => simp only [Host.actorSection]; split <;> rfl
  | register job => exact (registerActorKey_frame _ _ _).1
  | lookup job => exact (lookupGroup_frame _ _).2.1
  | fill job group => exact (fillGroup_frame job.claims_eq _ _ _ _ _).2.2.1
  | readKey => simp only [Host.actorSection]; split <;> rfl
  | removeGroup key => exact (removeFromGroup_frame _ _ _).2.1
  | dropKey => rfl

/-- A header that is there stays. -/
theorem actorSection_keeps_header {ref : Ref} {hd : String × LinkTable}
    (h : host.header? ref = some hd) :
    (host.actorSection name failAt call).1.header? ref = some hd := by
  cases call with
  | check job => simp only [Host.actorSection]; split <;> exact h
  | register job => rwa [← header?_congr (registerActorKey_frame _ _ _).2.2] at h
  | lookup job =>
    simp only [Host.actorSection]
    cases hreg : host.actors.lookup job.claims.subject with
    | some found => rwa [lookupGroup_found hreg]
    | none =>
      simp only [Host.header?, (lookupGroup_made hreg).2.2]
      rw [if_neg]
      · exact h
      · rintro rfl
        simp [Host.header?] at h
  | fill job group => rwa [← (fillGroup_frame job.claims_eq _ _ _ _ _).2.2.2 ref] at h
  | readKey => simp only [Host.actorSection]; split <;> exact h
  | removeGroup key => rwa [← (removeFromGroup_frame _ _ _).2.2 ref] at h
  | dropKey => exact h

/-- A header that is new belongs to a group just made. -/
theorem actorSection_header? {ref : Ref} {hd : String × LinkTable}
    (h : (host.actorSection name failAt call).1.header? ref = some hd) :
    host.header? ref = some hd ∨ ∃ key, hd = (key, host.getActorLinks key) := by
  cases call with
  | check job => simp only [Host.actorSection] at h; split at h <;> exact .inl h
  | register job =>
    simp only [Host.actorSection] at h
    exact .inl (by rwa [header?_congr (registerActorKey_frame _ _ _).2.2] at h)
  | lookup job => exact (lookupGroup_header? host _ h).imp id fun heq => ⟨_, heq⟩
  | fill job group =>
    simp only [Host.actorSection] at h
    exact .inl (by rwa [(fillGroup_frame job.claims_eq _ _ _ _ _).2.2.2 ref] at h)
  | readKey => simp only [Host.actorSection] at h; split at h <;> exact .inl h
  | removeGroup key =>
    simp only [Host.actorSection] at h
    exact .inl (by rwa [(removeFromGroup_frame _ _ _).2.2 ref] at h)
  | dropKey => exact .inl h

/-- A group that is registered was registered before, or is just made with
the links known by now. -/
theorem actorSection_registered {key : String} {ref : Ref}
    (h : (host.actorSection name failAt call).1.actors.lookup key = some ref) :
    host.actors.lookup key = some ref ∨
      (host.actorSection name failAt call).1.header? ref = some (key, host.getActorLinks key) := by
  cases call with
  | check job => simp only [Host.actorSection] at h; split at h <;> exact .inl h
  | register job => exact .inl (by rwa [← (registerActorKey_frame _ _ _).2.1])
  | lookup job =>
    simp only [Host.actorSection] at h ⊢
    cases hreg : host.actors.lookup job.claims.subject with
    | some found =>
      rw [lookupGroup_found hreg] at h
      exact .inl h
    | none =>
      obtain ⟨-, hactors, hcells⟩ := lookupGroup_made hreg
      rw [hactors, HashMap.lookup_insert_if] at h
      split at h
      · rename_i heq
        cases h
        right
        simp [Host.header?, hcells, heq]
      · exact .inl h
  | fill job group => exact .inl (by rwa [← (fillGroup_frame job.claims_eq _ _ _ _ _).2.1])
  | readKey => simp only [Host.actorSection] at h; split at h <;> exact .inl h
  | removeGroup key' =>
    left
    simp only [Host.actorSection] at h
    cases hreg : host.actors.lookup key' with
    | none => rwa [removeFromGroup_unknown hreg] at h
    | some ref' =>
      cases hg : host.groups.get? ref' with
      | none => simpa [Host.removeFromGroup, hreg, hg] using h
      | some g =>
        rw [(removeFromGroup_spec hreg hg name).1] at h
        split at h
        · rw [HashMap.lookup_erase_if] at h
          split at h
          · cases h
          · exact h
        · exact h
  | dropKey => exact .inl h

end Sections

/-! ## The invariant -/

/-- A links table holds, at one place, what the definitions say. -/
def Agrees (links : HashMap String LinkDefinition) (key : String) (table : LinkTable)
    (c l : String) : Prop :=
  ∀ e, table.entity? c l = some e ↔
    ∃ ld ∈ links.values, ld.triple = (key, c, l) ∧ ld.entity = e

/-- The triple a link call between its two sections has changed in one table
only. -/
def System.pending (s : System) : Option (String × String × String) :=
  match s.linkdefCall with
  | some call => if call.routed then none else some call.definition.triple
  | none => none

structure Routed (sha256 : String → String) (s : System) : Prop where
  keyed : Keyed sha256 s.host.links
  registered : ∀ key ref, s.host.actors.lookup key = some ref →
    ∃ table, s.host.header? ref = some (key, table) ∧
      ∀ c l, s.pending ≠ some (key, c, l) → Agrees s.host.links key table c l
  put : ∀ call, s.linkdefCall = some call → call.routed = false → call.verb = .put →
    call.definition ∈ s.host.links.values
  del : ∀ call, s.linkdefCall = some call → call.routed = false → call.verb = .del →
    ∀ ld ∈ s.host.links.values, ld.triple ≠ call.definition.triple

section Sha256

variable {sha256 : String → String} {s s' : System}

/-- The folded table agrees everywhere. -/
theorem agrees_getActorLinks {host : Host} (hk : Keyed sha256 host.links) (key c l : String) :
    Agrees host.links key (host.getActorLinks key) c l :=
  getActorLinks_entity?_iff hk key c l

/-! ## Steps keep it -/

theorem routed_actorSection (h : Routed sha256 s) {name : String} {failAt : Option Nat}
    (hs : s.step sha256 (.actorSection name failAt) = some s') : Routed sha256 s' := by
  obtain ⟨call, -, hhost, hlink, -⟩ := step_actorSection hs
  have hpending : s'.pending = s.pending := by simp [System.pending, hlink]
  have hlinks : s'.host.links = s.host.links := by rw [hhost]; simp
  constructor
  · rw [hlinks]; exact h.keyed
  · intro key ref hreg
    rw [hlinks, hpending]
    rw [hhost] at hreg ⊢
    rcases actorSection_registered _ _ _ _ hreg with hold | hnew
    · obtain ⟨table, hheader, hagrees⟩ := h.registered key ref hold
      exact ⟨table, actorSection_keeps_header _ _ _ _ hheader, hagrees⟩
    · exact ⟨_, hnew, fun c l _ => agrees_getActorLinks h.keyed key c l⟩
  · rw [hlinks, hlink]; exact h.put
  · rw [hlinks, hlink]; exact h.del

theorem routed_addLinkdef (h : Routed sha256 s) {ld : LinkDefinition}
    (hs : s.step sha256 (.addLinkdef ld) = some s') : Routed sha256 s' := by
  obtain ⟨hidle, ⟨-, rfl⟩ | ⟨hfree, rfl⟩⟩ := step_addLinkdef hs
  · exact h
  · have hmem : ∀ ld', ld' ∈ HashMap.values (s.host.links.insert (ld.hash sha256) ld) ↔
        ld' = ld ∨ ld' ∈ s.host.links.values := fun ld' => HashMap.mem_values_insert hfree
    constructor
    · exact h.keyed.insert ld
    · intro key ref hreg
      obtain ⟨table, hheader, hagrees⟩ := h.registered key ref hreg
      refine ⟨table, hheader, fun c l hne e => ?_⟩
      have hold := hagrees c l (by simp [System.pending, hidle]) e
      have hother : ld.triple ≠ (key, c, l) := fun heq => hne (by simp [System.pending, heq])
      rw [hold]
      constructor
      · rintro ⟨ld', hin, hld'⟩
        exact ⟨ld', (hmem ld').mpr (.inr hin), hld'⟩
      · rintro ⟨ld', hin, htriple, he⟩
        rcases (hmem ld').mp hin with rfl | hin
        · exact absurd htriple hother
        · exact ⟨ld', hin, htriple, he⟩
    · rintro call hcall - -
      cases hcall
      exact (hmem ld).mpr (.inl rfl)
    · rintro call hcall - hverb
      cases hcall
      cases hverb

theorem routed_deleteLinkdef (h : Routed sha256 s) {ld : LinkDefinition}
    (hs : s.step sha256 (.deleteLinkdef ld) = some s') : Routed sha256 s' := by
  obtain ⟨hidle, ⟨-, rfl⟩ | ⟨found, hfound, rfl⟩⟩ := step_deleteLinkdef hs
  · exact h
  · have hmem : ∀ ld', ld' ∈ HashMap.values (s.host.links.erase (ld.hash sha256)) ↔
        ld' ∈ s.host.links.values ∧ ld' ≠ found :=
      fun ld' => h.keyed.mem_values_erase hfound
    have hin : found ∈ s.host.links.values := HashMap.mem_values.mpr ⟨_, hfound⟩
    constructor
    · exact h.keyed.erase _
    · intro key ref hreg
      obtain ⟨table, hheader, hagrees⟩ := h.registered key ref hreg
      refine ⟨table, hheader, fun c l hne e => ?_⟩
      have hold := hagrees c l (by simp [System.pending, hidle]) e
      have hother : found.triple ≠ (key, c, l) := fun heq => hne (by simp [System.pending, heq])
      rw [hold]
      constructor
      · rintro ⟨ld', hin', htriple, he⟩
        refine ⟨ld', (hmem ld').mpr ⟨hin', ?_⟩, htriple, he⟩
        rintro rfl
        exact hother htriple
      · rintro ⟨ld', hin', hld'⟩
        exact ⟨ld', ((hmem ld').mp hin').1, hld'⟩
    · rintro call hcall - hverb
      cases hcall
      cases hverb
    · rintro call hcall - - ld' hin' htriple
      cases hcall
      obtain ⟨hin'', hne⟩ := (hmem ld').mp hin'
      exact hne (h.keyed.unique hin'' hin htriple)

/-- The edit of a call makes the table agree at the call's own triple and
changes no other place. -/
theorem agrees_edit (h : Routed sha256 s) {call : LinkdefCall} (hcall : s.linkdefCall = some call)
    (hopen : call.routed = false) {table : LinkTable} {c l : String}
    (hagrees : call.definition.triple ≠ (call.definition.actorId, c, l) →
      Agrees s.host.links call.definition.actorId table c l) :
    Agrees s.host.links call.definition.actorId (call.edit table) c l := by
  intro e
  by_cases hplace : c = call.definition.contractId ∧ l = call.definition.linkName
  · obtain ⟨rfl, rfl⟩ := hplace
    cases hverb : call.verb with
    | put =>
      have hin := h.put call hcall hopen hverb
      simp only [LinkdefCall.edit, hverb, LinkTable.entity?_route, and_self, if_true,
        Option.some.injEq]
      constructor
      · rintro rfl
        exact ⟨call.definition, hin, rfl, rfl⟩
      · rintro ⟨ld, hld, htriple, rfl⟩
        rw [h.keyed.unique hld hin htriple]
    | del =>
      have hout := h.del call hcall hopen hverb
      simp only [LinkdefCall.edit, hverb, LinkTable.entity?_unroute, and_self, if_true]
      constructor
      · intro hnone
        cases hnone
      · rintro ⟨ld, hld, htriple, -⟩
        exact absurd htriple (hout ld hld)
  · have hne : call.definition.triple ≠ (call.definition.actorId, c, l) := by
      intro heq
      simp only [LinkDefinition.triple, Prod.mk.injEq] at heq
      exact hplace ⟨heq.2.1.symm, heq.2.2.symm⟩
    rw [← hagrees hne e]
    cases hverb : call.verb with
    | put => simp only [LinkdefCall.edit, hverb, LinkTable.entity?_route, hplace, if_false]
    | del => simp only [LinkdefCall.edit, hverb, LinkTable.entity?_unroute, hplace, if_false]

theorem routed_routeLinkdef (h : Routed sha256 s)
    (hs : s.step sha256 .routeLinkdef = some s') : Routed sha256 s' := by
  obtain ⟨call, hcall, hopen, rfl⟩ := step_routeLinkdef hs
  have hpending : s.pending = some call.definition.triple := by
    simp [System.pending, hcall, hopen]
  constructor
  · exact h.keyed
  · intro key ref hreg
    rw [onGroupLinks_actors] at hreg
    obtain ⟨table, hheader, hagrees⟩ := h.registered key ref hreg
    rw [hpending] at hagrees
    simp only [onGroupLinks_header?, onGroupLinks_links]
    split
    · -- the edited group: it has the call's key
      rename_i hsame
      obtain ⟨table', hheader', -⟩ := h.registered _ ref hsame
      rw [hheader, Option.some.injEq, Prod.mk.injEq] at hheader'
      obtain ⟨rfl, rfl⟩ := hheader'
      refine ⟨call.edit table, by rw [hheader]; rfl, fun c l _ => ?_⟩
      exact agrees_edit h hcall hopen fun hne => hagrees c l (by simpa using hne)
    · rename_i hother
      refine ⟨table, hheader, fun c l _ => hagrees c l ?_⟩
      intro heq
      have hkey : call.definition.actorId = key := congrArg Prod.fst (Option.some.inj heq)
      rw [← hkey] at hreg
      exact hother hreg
  · rintro call' hcall' hopen' -
    cases hcall'
    cases hopen'
  · rintro call' hcall' hopen' -
    cases hcall'
    cases hopen'

theorem routed_publishLinkdef (h : Routed sha256 s) {outcome : PublishOutcome}
    (hs : s.step sha256 (.publishLinkdef outcome) = some s') : Routed sha256 s' := by
  obtain ⟨call, hcall, hrouted, rfl⟩ := step_publishLinkdef hs
  have hpending : s.pending = none := by simp [System.pending, hcall, hrouted]
  constructor
  · simpa using h.keyed
  · intro key ref hreg
    have hreg' : s.host.actors.lookup key = some ref := by
      cases outcome <;> exact hreg
    obtain ⟨table, hheader, hagrees⟩ := h.registered key ref hreg'
    refine ⟨table, ?_, fun c l _ => ?_⟩
    · cases outcome <;> exact hheader
    · simpa using hagrees c l (by simp [hpending])
  · rintro call' hcall'
    cases hcall'
  · rintro call' hcall'
    cases hcall'

/-- Every step keeps the invariant. -/
theorem routed_step (h : Routed sha256 s) {step : SystemStep}
    (hs : s.step sha256 step = some s') : Routed sha256 s' := by
  cases step with
  | reconcileActor name actorRef fetched replica =>
    obtain ⟨-, ⟨-, rfl⟩ | ⟨job, -, rfl⟩⟩ := step_reconcileActor hs
    · exact h
    · exact ⟨h.keyed, h.registered, h.put, h.del⟩
  | removeActor name =>
    obtain ⟨-, rfl⟩ := step_removeActor hs
    exact ⟨h.keyed, h.registered, h.put, h.del⟩
  | actorSection name failAt => exact routed_actorSection h hs
  | addLinkdef ld => exact routed_addLinkdef h hs
  | deleteLinkdef ld => exact routed_deleteLinkdef h hs
  | routeLinkdef => exact routed_routeLinkdef h hs
  | publishLinkdef outcome => exact routed_publishLinkdef h hs

theorem routed_of_reachable {latticePrefix : String}
    (h : (hostMachine sha256 latticePrefix).Reachable s) : Routed sha256 s := by
  refine h.invariant (I := Routed sha256) ?_ fun s step s' hI hs => routed_step hI hs
  constructor
  · exact Keyed.empty
  · intro key ref hreg
    simp [hostMachine, System.new, Host.new] at hreg
  · rintro call hcall
    cases hcall
  · rintro call hcall
    cases hcall

/-! ## The calls' own triples -/

/-- The triple a link call between its two sections was made with. -/
def System.inFlight (s : System) : Option (String × String × String) :=
  match s.linkdefCall with
  | some call => if call.routed then none else some call.argument.triple
  | none => none

/-- At every place that no link call in flight is for, the table of a
registered group holds an entity if and only if `Host.links` has a
definition for that place, and then it is that definition's. -/
def System.TablesAgree (s : System) : Prop :=
  ∀ key ref g, s.host.actors.lookup key = some ref → s.host.groups.get? ref = some g →
    ∀ c l, s.inFlight ≠ some (key, c, l) → ∀ e, g.links.entity? c l = some e ↔
      ∃ ld ∈ s.host.links.values, ld.triple = (key, c, l) ∧
        e.publicKey = ld.providerId ∧ e.contractId = c ∧ e.linkName = l

variable (sha256) in
/-- A deletion finds under its hash a definition of its own triple, or one of
an actor that has no group. -/
def DeletesOwn (s : System) : SystemStep → Prop
  | .deleteLinkdef ld => ∀ found, s.host.links.lookup (ld.hash sha256) = some found →
      found.triple = ld.triple ∨ s.host.actors.lookup found.actorId = none
  | _ => True

/-- What `Agrees` says about the three parts of an entity. -/
theorem agrees_iff {links : HashMap String LinkDefinition} {key : String} {table : LinkTable}
    {c l : String} :
    Agrees links key table c l ↔ ∀ e, table.entity? c l = some e ↔
      ∃ ld ∈ links.values, ld.triple = (key, c, l) ∧
        e.publicKey = ld.providerId ∧ e.contractId = c ∧ e.linkName = l := by
  refine forall_congr' fun e => iff_congr Iff.rfl ?_
  constructor
  · rintro ⟨ld, hin, htriple, rfl⟩
    have hparts := htriple
    simp only [LinkDefinition.triple, Prod.mk.injEq] at hparts
    exact ⟨ld, hin, htriple, rfl, hparts.2.1, hparts.2.2⟩
  · rintro ⟨ld, hin, htriple, hkey, hc, hl⟩
    have hparts := htriple
    simp only [LinkDefinition.triple, Prod.mk.injEq] at hparts
    obtain ⟨key', l', c'⟩ := e
    simp only at hkey hc hl
    exact ⟨ld, hin, htriple, by simp [LinkDefinition.entity, hkey, hc, hl, hparts]⟩

/-- `TablesAgree`, by headers. -/
theorem tablesAgree_iff : s.TablesAgree ↔
    ∀ key ref hd, s.host.actors.lookup key = some ref → s.host.header? ref = some hd →
      ∀ c l, s.inFlight ≠ some (key, c, l) → Agrees s.host.links key hd.2 c l := by
  constructor
  · intro h key ref hd hreg hheader c l hne
    obtain ⟨g, hg, rfl⟩ := Option.map_eq_some_iff.mp hheader
    exact agrees_iff.mpr (h key ref g hreg hg c l hne)
  · intro h key ref g hreg hg c l hne
    exact agrees_iff.mp (h key ref _ hreg (header?_isSome hg) c l hne)

/-- Where a call works on the triple it was made with, `Routed` is enough. -/
theorem tablesAgree_of_routed (h : Routed sha256 s)
    (hown : ∀ key ref c l, s.host.actors.lookup key = some ref →
      s.pending = some (key, c, l) → s.inFlight = some (key, c, l)) : s.TablesAgree := by
  refine tablesAgree_iff.mpr fun key ref hd hreg hheader c l hne => ?_
  obtain ⟨table, hheader', hagrees⟩ := h.registered key ref hreg
  rw [hheader, Option.some.injEq] at hheader'
  subst hheader'
  exact hagrees c l fun hpend => hne (hown key ref c l hreg hpend)

theorem tablesAgree_step (hrouted : Routed sha256 s) (h : s.TablesAgree) {step : SystemStep}
    (hok : DeletesOwn sha256 s step) (hs : s.step sha256 step = some s') : s'.TablesAgree := by
  have hrouted' := routed_step hrouted hs
  cases step with
  | reconcileActor name actorRef fetched replica =>
    obtain ⟨-, ⟨-, rfl⟩ | ⟨job, -, rfl⟩⟩ := step_reconcileActor hs <;> exact h
  | removeActor name =>
    obtain ⟨-, rfl⟩ := step_removeActor hs
    exact h
  | actorSection name failAt =>
    obtain ⟨call, -, hhost, hlink, -⟩ := step_actorSection hs
    have hflight : s'.inFlight = s.inFlight := by simp [System.inFlight, hlink]
    refine tablesAgree_iff.mpr fun key ref hd hreg hheader c l hne => ?_
    rw [hflight] at hne
    rw [hhost] at hreg hheader ⊢
    rw [actorSection_links]
    rcases actorSection_registered _ _ _ _ hreg with hold | hnew
    · obtain ⟨table, hold', -⟩ := hrouted.registered key ref hold
      rw [actorSection_keeps_header _ _ _ _ hold', Option.some.injEq] at hheader
      subst hheader
      exact tablesAgree_iff.mp h key ref _ hold hold' c l hne
    · rw [hnew, Option.some.injEq] at hheader
      subst hheader
      exact agrees_getActorLinks hrouted.keyed key c l
  | addLinkdef ld =>
    obtain ⟨-, ⟨-, rfl⟩ | ⟨-, rfl⟩⟩ := step_addLinkdef hs
    · exact h
    · exact tablesAgree_of_routed hrouted' fun key ref c l _ hpend => hpend
  | deleteLinkdef ld =>
    obtain ⟨-, ⟨-, rfl⟩ | ⟨found, hfound, rfl⟩⟩ := step_deleteLinkdef hs
    · exact h
    · refine tablesAgree_of_routed hrouted' fun key ref c l hreg hpend => ?_
      have htriple : found.triple = (key, c, l) := by simpa [System.pending] using hpend
      rcases hok found hfound with hown | hgone
      · simp [System.inFlight, ← hown, htriple]
      · have hkey : found.actorId = key := congrArg Prod.fst htriple
        rw [hkey] at hgone
        rw [hgone] at hreg
        cases hreg
  | routeLinkdef =>
    obtain ⟨call, -, -, rfl⟩ := step_routeLinkdef hs
    exact tablesAgree_of_routed hrouted' fun key ref c l _ hpend => by cases hpend
  | publishLinkdef outcome =>
    obtain ⟨call, -, -, rfl⟩ := step_publishLinkdef hs
    exact tablesAgree_of_routed hrouted' fun key ref c l _ hpend => by cases hpend

/-- A deletion that takes away another triple's definition, whose group is
registered, leaves the table disagreeing. -/
theorem deletesOwn_of_tablesAgree (hrouted : Routed sha256 s) {step : SystemStep}
    (hs : s.step sha256 step = some s') (h : s'.TablesAgree) : DeletesOwn sha256 s step := by
  cases step with
  | deleteLinkdef ld =>
    intro found hfound
    by_contra hnot
    rw [not_or] at hnot
    obtain ⟨hother, hregistered⟩ := hnot
    obtain ⟨ref, hreg⟩ := Option.ne_none_iff_exists'.mp hregistered
    obtain ⟨hidle, ⟨hnone, -⟩ | ⟨found', hfound', rfl⟩⟩ := step_deleteLinkdef hs
    · rw [hfound] at hnone
      cases hnone
    · rw [hfound] at hfound'
      cases hfound'
      obtain ⟨table, hheader, hagrees⟩ := hrouted.registered _ ref hreg
      have hin : found ∈ s.host.links.values := HashMap.mem_values.mpr ⟨_, hfound⟩
      -- before the step the table has the entity, after it no definition has
      have hbefore := (hagrees found.contractId found.linkName (by simp [System.pending, hidle])
        found.entity).mpr ⟨found, hin, rfl, rfl⟩
      have hafter := tablesAgree_iff.mp h _ ref _ hreg hheader found.contractId found.linkName
        (fun heq => hother (Option.some.inj heq).symm) found.entity
      obtain ⟨ld', hld', htriple, -⟩ := hafter.mp hbefore
      obtain ⟨hin', hne⟩ := (hrouted.keyed.mem_values_erase hfound).mp hld'
      exact hne (hrouted.keyed.unique hin' hin htriple)
  | _ => trivial

/-- **Routing tables.** The runs in which the links tables agree with
`Host.links` in every state are exactly the runs in which every deletion
finds a definition of its own triple, or of an actor without a group. -/
theorem routingTables_agree_iff (sha256 : String → String) (latticePrefix : String)
    (tr : List SystemStep) (s : System) :
    (hostMachine sha256 latticePrefix).RunWhen (fun s _ => s.TablesAgree) tr s ∧ s.TablesAgree ↔
      (hostMachine sha256 latticePrefix).RunWhen (DeletesOwn sha256) tr s := by
  refine Machine.runWhen_always_iff (fun tr s hrun => ?_)
    fun s step s' hreach _ hs h => deletesOwn_of_tablesAgree (routed_of_reachable hreach) hs h
  refine hrun.induction (I := fun _ s => s.TablesAgree) ?_ ?_
  · intro key ref g hreg
    simp [hostMachine, System.new, Host.new] at hreg
  · intro tr s step s' hrun' hI hok hs
    exact tablesAgree_step (routed_of_reachable hrun'.reachable) hI hok hs

end Sha256

/-! ## A deletion that finds another's definition -/

/-- An image of actor `M`. -/
def imageM : WasmActor where
  module := "echo"
  claims := some ⟨"A", "M", 0, none, none, none⟩

def firstDefinition : LinkDefinition := ⟨"M", "V", "bc", "a", ∅⟩

def secondDefinition : LinkDefinition := ⟨"M", "V", "c", "ab", ∅⟩

/-- The actor runs, the first definition is added, and a deletion of the
second one is between its sections. -/
def collidingDeletion : List SystemStep :=
  [.reconcileActor "echo" "image" (.ok imageM) 1, .actorSection "echo" none,
    .actorSection "echo" none, .actorSection "echo" none, .actorSection "echo" none,
    .addLinkdef firstDefinition, .routeLinkdef, .publishLinkdef .sent,
    .deleteLinkdef secondDefinition]

/-- Both definitions have the hash input `Mabc`, so the table still routes to
the first one's provider while `Host.links` has no definition. -/
theorem collidingDeletion_disagrees :
    ∃ s, (hostMachine id "default").Run collidingDeletion s ∧ ¬ s.TablesAgree := by
  have hreg : ((hostMachine id "default").exec (System.new "default") collidingDeletion).map
      (·.host.actors.lookup "M") = some (some 0) := by decide
  have hentity : ((hostMachine id "default").exec (System.new "default") collidingDeletion).map
      (fun s => (s.host.groups.get? 0).map (·.links.entity? "a" "bc")) =
        some (some (some firstDefinition.entity)) := by decide
  have hlinks : ((hostMachine id "default").exec (System.new "default") collidingDeletion).map
      (·.host.links.values) = some [] := by decide
  have hflight : ((hostMachine id "default").exec (System.new "default") collidingDeletion).map
      System.inFlight = some (some secondDefinition.triple) := by decide
  obtain ⟨s, hexec, hreg⟩ := Option.map_eq_some_iff.mp hreg
  rw [hexec, Option.map_some, Option.some.injEq] at hentity hlinks hflight
  obtain ⟨g, hg, he⟩ := Option.map_eq_some_iff.mp hentity
  refine ⟨s, Machine.run_of_exec hexec, fun hagree => ?_⟩
  obtain ⟨ld, hin, -⟩ := (hagree "M" 0 g hreg hg "a" "bc" (by rw [hflight]; decide) _).mp he
  rw [hlinks] at hin
  cases hin

end KasmCloud
