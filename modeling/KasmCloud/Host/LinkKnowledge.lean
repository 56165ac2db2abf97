/-
KasmCloud.Host.LinkKnowledge — a running provider knows exactly its links,
if it subscribes in time.

`LinkView.Matches` compares what a process knows with the definitions of its
link in `Host.links`. A change that was made after the process was given its
definitions reaches it as a message only, and a message that is published
before the process has subscribed is never sent again:
`lateSubscriber_unaware` is such a run. A subject does not tell where the
public key ends and the link name begins, so a message can also reach a
process it is not for.

`FeedStep.Timely` excludes these two. `FeedOk` is the invariant: a process
knows its link's definitions, or will once the change in progress is
published.
-/
import KasmCloud.Host.LinkFeed

namespace KasmCloud

open Lib

/-! ## Views and the table -/

/-- The view has exactly the definitions of a link that the host has. -/
def LinkView.Matches (view : LinkView) (host : Host) (key linkName : String) : Prop :=
  ∀ actorId contractId values, view.lookup (actorId, contractId) = some values ↔
    ∃ ld ∈ host.links.values, ld.providerId = key ∧ ld.linkName = linkName ∧
      ld.actorId = actorId ∧ ld.contractId = contractId ∧ ld.values = values

theorem LinkView.Matches.congr {view : LinkView} {host host' : Host} {key linkName : String}
    (h : view.Matches host key linkName) (hlinks : host'.links = host.links) :
    view.Matches host' key linkName := by
  intro actorId contractId values
  rw [hlinks]
  exact h actorId contractId values

/-- A fold of definitions, none of which is there twice. -/
theorem lookup_foldl_given {given : List LinkDefinition} {view : LinkView}
    (hunique : ∀ ld ∈ given, ∀ ld' ∈ given, ld.actorId = ld'.actorId →
      ld.contractId = ld'.contractId → ld = ld')
    (actorId contractId : String) (values : V1alpha1.Values) :
    (given.foldl (fun view ld => view.insert (ld.actorId, ld.contractId) ld.values)
        view).lookup (actorId, contractId) = some values ↔
      (∃ ld ∈ given, ld.actorId = actorId ∧ ld.contractId = contractId ∧ ld.values = values) ∨
        (∀ ld ∈ given, ¬ (ld.actorId = actorId ∧ ld.contractId = contractId)) ∧
          view.lookup (actorId, contractId) = some values := by
  induction given generalizing view with
  | nil => simp
  | cons ld rest ih =>
    have hrest := @ih (view.insert (ld.actorId, ld.contractId) ld.values)
      fun ld₁ h₁ ld₂ h₂ => hunique ld₁ (List.mem_cons_of_mem _ h₁) ld₂ (List.mem_cons_of_mem _ h₂)
    rw [List.foldl_cons, hrest, HashMap.lookup_insert_if]
    constructor
    · rintro (⟨ld', hmem, hld'⟩ | ⟨hnone, hlook⟩)
      · exact .inl ⟨ld', List.mem_cons_of_mem _ hmem, hld'⟩
      · split at hlook
        · rename_i heq
          obtain ⟨ha, hc⟩ := Prod.mk.inj heq
          exact .inl ⟨ld, List.mem_cons_self, ha.symm, hc.symm, Option.some.inj hlook⟩
        · rename_i hne
          refine .inr ⟨fun ld' hmem hboth => ?_, hlook⟩
          rcases List.mem_cons.mp hmem with rfl | hmem
          · exact hne (by rw [hboth.1, hboth.2])
          · exact hnone ld' hmem hboth
    · rintro (⟨ld', hmem, ha, hc, hv⟩ | ⟨hnone, hlook⟩)
      · by_cases hin : ∃ ld'' ∈ rest, ld''.actorId = actorId ∧ ld''.contractId = contractId
        · obtain ⟨ld'', hmem'', ha'', hc''⟩ := hin
          have hsame := hunique ld'' (List.mem_cons_of_mem _ hmem'') ld' hmem
            (ha''.trans ha.symm) (hc''.trans hc.symm)
          exact .inl ⟨ld'', hmem'', ha'', hc'', hsame ▸ hv⟩
        · rcases List.mem_cons.mp hmem with rfl | hmem
          · refine .inr ⟨fun ld'' hmem'' hboth => hin ⟨ld'', hmem'', hboth⟩, ?_⟩
            rw [if_pos (by rw [ha, hc]), hv]
          · exact absurd ⟨ld', hmem, ha, hc⟩ hin
      · refine .inr ⟨fun ld' hmem => hnone ld' (List.mem_cons_of_mem _ hmem), ?_⟩
        rw [if_neg]
        · exact hlook
        · intro heq
          obtain ⟨ha, hc⟩ := Prod.mk.inj heq
          exact hnone ld List.mem_cons_self ⟨ha.symm, hc.symm⟩

section Views

variable {sha256 : String → String} {host : Host} {view : LinkView} {key linkName : String}

/-- What a process is given at its start is what the table has. -/
theorem ofGiven_matches (hkeyed : Keyed sha256 host.links) (key linkName : String) :
    (LinkView.ofGiven (host.providerLinks key linkName)).Matches host key linkName := by
  have hmem : ∀ ld, ld ∈ host.providerLinks key linkName ↔
      ld ∈ host.links.values ∧ ld.providerId = key ∧ ld.linkName = linkName := by
    intro ld
    simp [Host.providerLinks, List.mem_filter]
  intro actorId contractId values
  unfold LinkView.ofGiven
  rw [lookup_foldl_given]
  · constructor
    · rintro (⟨ld, hld, hrest⟩ | ⟨-, hempty⟩)
      · obtain ⟨hvalues, hkey, hlink⟩ := (hmem ld).mp hld
        exact ⟨ld, hvalues, hkey, hlink, hrest⟩
      · simp at hempty
    · rintro ⟨ld, hvalues, hkey, hlink, hrest⟩
      exact .inl ⟨ld, (hmem ld).mpr ⟨hvalues, hkey, hlink⟩, hrest⟩
  · intro ld hld ld' hld' ha hc
    obtain ⟨hvalues, -, hlink⟩ := (hmem ld).mp hld
    obtain ⟨hvalues', -, hlink'⟩ := (hmem ld').mp hld'
    refine hkeyed.unique hvalues hvalues' ?_
    simp only [LinkDefinition.triple, ha, hc, hlink, hlink']

/-- The table has been changed as the message says. -/
def LinkdefMessage.Made (m : LinkdefMessage) (host : Host) : Prop :=
  match m.verb with
  | .put => m.definition ∈ host.links.values
  | .del => ∀ ld ∈ host.links.values, ld.triple ≠ m.definition.triple

/-- A message tells nothing new to a process that knows the table. -/
theorem LinkView.Matches.tell_again (h : view.Matches host key linkName) {m : LinkdefMessage}
    (hkey : m.definition.providerId = key) (hlink : m.definition.linkName = linkName)
    (hmade : m.Made host) : (view.tell m).Matches host key linkName := by
  obtain ⟨verb, ld⟩ := m
  have hsame : ∀ k, AList.lookup k (view.tell ⟨verb, ld⟩) = view.lookup k := by
    intro k
    cases verb with
    | put =>
      have hknown := (h ld.actorId ld.contractId ld.values).mpr ⟨ld, hmade, hkey, hlink, rfl, rfl, rfl⟩
      simp only [LinkView.tell]
      rw [HashMap.lookup_insert_if]
      split
      · rename_i heq
        rw [heq, hknown]
      · rfl
    | del =>
      have hunknown : view.lookup (ld.actorId, ld.contractId) = none := by
        cases hview : view.lookup (ld.actorId, ld.contractId) with
        | none => rfl
        | some values =>
          obtain ⟨ld', hmem, -, hlink', ha, hc, -⟩ := (h _ _ _).mp hview
          refine absurd ?_ (hmade ld' hmem)
          dsimp only at hlink
          simp only [LinkDefinition.triple, ha, hc, hlink, hlink']
      simp only [LinkView.tell]
      rw [HashMap.lookup_erase_if]
      split
      · rename_i heq
        rw [heq, hunknown]
      · rfl
  intro actorId contractId values
  rw [hsame]
  exact h actorId contractId values

/-! ### A change of the table -/

/-- `host'` has the table of `host` after the change that the message is about. -/
structure LinkdefMessage.Changes (m : LinkdefMessage) (host host' : Host) : Prop where
  put : m.verb = .put → (∀ ld, ld ∈ host'.links.values ↔ ld = m.definition ∨ ld ∈ host.links.values) ∧
    ∀ ld ∈ host.links.values, ld.triple ≠ m.definition.triple
  del : m.verb = .del → m.definition ∈ host.links.values ∧
    ∀ ld, ld ∈ host'.links.values ↔ ld ∈ host.links.values ∧ ld ≠ m.definition

theorem LinkdefMessage.Changes.made {m : LinkdefMessage} {host' : Host}
    (h : m.Changes host host') (hkeyed : Keyed sha256 host.links) : m.Made host' := by
  unfold LinkdefMessage.Made
  split
  · rename_i hverb
    exact ((h.put hverb).1 m.definition).mpr (.inl rfl)
  · rename_i hverb
    obtain ⟨hmem, hvalues⟩ := h.del hverb
    intro ld hld htriple
    obtain ⟨hin, hne⟩ := (hvalues ld).mp hld
    exact hne (hkeyed.unique hin hmem htriple)

/-- A process for another link is told nothing. -/
theorem LinkView.Matches.changed_other {m : LinkdefMessage} {host' : Host}
    (h : view.Matches host key linkName) (hchange : m.Changes host host')
    (hother : ¬ (m.definition.providerId = key ∧ m.definition.linkName = linkName)) :
    view.Matches host' key linkName := by
  intro actorId contractId values
  rw [h]
  constructor
  · rintro ⟨ld, hmem, hkey, hlink, hrest⟩
    refine ⟨ld, ?_, hkey, hlink, hrest⟩
    cases hverb : m.verb with
    | put => exact ((hchange.put hverb).1 ld).mpr (.inr hmem)
    | del =>
      refine ((hchange.del hverb).2 ld).mpr ⟨hmem, ?_⟩
      rintro rfl
      exact hother ⟨hkey, hlink⟩
  · rintro ⟨ld, hmem, hkey, hlink, hrest⟩
    refine ⟨ld, ?_, hkey, hlink, hrest⟩
    cases hverb : m.verb with
    | put =>
      rcases ((hchange.put hverb).1 ld).mp hmem with rfl | hmem
      · exact absurd ⟨hkey, hlink⟩ hother
      · exact hmem
    | del => exact (((hchange.del hverb).2 ld).mp hmem).1

/-- A process that is told of the change of its link knows the new table. -/
theorem LinkView.Matches.changed {m : LinkdefMessage} {host' : Host}
    (h : view.Matches host key linkName) (hkeyed : Keyed sha256 host.links)
    (hchange : m.Changes host host') (hkey : m.definition.providerId = key)
    (hlink : m.definition.linkName = linkName) : (view.tell m).Matches host' key linkName := by
  obtain ⟨verb, new⟩ := m
  have htriple (ld : LinkDefinition) (hlink' : ld.linkName = linkName) :
      (ld.actorId, ld.contractId) = (new.actorId, new.contractId) ↔ ld.triple = new.triple := by
    dsimp only at hlink
    simp [LinkDefinition.triple, hlink, hlink']
  intro actorId contractId values
  cases verb with
  | put =>
    obtain ⟨hvalues, hfree⟩ := hchange.put rfl
    simp only [LinkView.tell]
    rw [HashMap.lookup_insert_if]
    split
    · rename_i heq
      constructor
      · intro hv
        obtain ⟨ha, hc⟩ := Prod.mk.inj heq
        exact ⟨new, (hvalues new).mpr (.inl rfl), hkey, hlink, ha.symm, hc.symm, Option.some.inj hv⟩
      · rintro ⟨ld, hmem, -, hlink', ha, hc, hv⟩
        rcases (hvalues ld).mp hmem with rfl | hold
        · rw [hv]
        · refine absurd ((htriple ld hlink').mp ?_) (hfree ld hold)
          rw [ha, hc, heq]
    · rename_i hne
      rw [h]
      constructor
      · rintro ⟨ld, hmem, hrest⟩
        exact ⟨ld, (hvalues ld).mpr (.inr hmem), hrest⟩
      · rintro ⟨ld, hmem, hkey', hlink', ha, hc, hv⟩
        rcases (hvalues ld).mp hmem with rfl | hold
        · exact absurd (by rw [ha, hc]) hne
        · exact ⟨ld, hold, hkey', hlink', ha, hc, hv⟩
  | del =>
    obtain ⟨hin, hvalues⟩ := hchange.del rfl
    simp only [LinkView.tell]
    rw [HashMap.lookup_erase_if]
    split
    · rename_i heq
      constructor
      · intro hv
        cases hv
      · rintro ⟨ld, hmem, -, hlink', ha, hc, -⟩
        obtain ⟨hold, hne⟩ := (hvalues ld).mp hmem
        exact absurd (hkeyed.unique hold hin ((htriple ld hlink').mp (by rw [ha, hc, heq]))) hne
    · rename_i hne
      rw [h]
      constructor
      · rintro ⟨ld, hmem, hkey', hlink', ha, hc, hv⟩
        refine ⟨ld, (hvalues ld).mpr ⟨hmem, ?_⟩, hkey', hlink', ha, hc, hv⟩
        rintro rfl
        exact hne (by rw [ha, hc])
      · rintro ⟨ld, hmem, hrest⟩
        exact ⟨ld, ((hvalues ld).mp hmem).1, hrest⟩

/-- The first section of `add_linkdef`. -/
theorem addLinkdefInsert_changes (hkeyed : Keyed sha256 host.links) {ld : LinkDefinition}
    {host' : Host} (h : host.addLinkdefInsert sha256 ld = some host') :
    LinkdefMessage.Changes ⟨.put, ld⟩ host host' ∧ Keyed sha256 host'.links := by
  unfold Host.addLinkdefInsert at h
  split at h
  · rename_i hfree
    cases h
    refine ⟨⟨fun _ => ⟨fun ld' => HashMap.mem_values_insert hfree, fun ld' hmem htriple => ?_⟩,
      fun hverb => nomatch hverb⟩, hkeyed.insert ld⟩
    have hlook := hkeyed.lookup_hash hmem
    rw [LinkDefinition.hash_congr htriple, hfree] at hlook
    cases hlook
  · cases h

/-- The first section of `delete_linkdef`. -/
theorem deleteLinkdefRemove_changes (hkeyed : Keyed sha256 host.links) {ld found : LinkDefinition}
    {host' : Host} (h : host.deleteLinkdefRemove sha256 ld = some (found, host')) :
    LinkdefMessage.Changes ⟨.del, found⟩ host host' ∧ Keyed sha256 host'.links := by
  unfold Host.deleteLinkdefRemove at h
  split at h
  · rename_i hfound
    cases h
    exact ⟨⟨(fun hverb => nomatch hverb), fun _ => ⟨HashMap.mem_values.mpr ⟨_, hfound⟩,
      fun ld' => hkeyed.mem_values_erase hfound⟩⟩, hkeyed.erase _⟩
  · cases h

end Views

/-! ## Runs -/

/-- The instances that `start_provider` has recorded know their links, once
all calls have returned and they have subscribed. -/
def LinkFeed.KnowsLinks (s : LinkFeed) : Prop :=
  s.start = none → s.change = none → ∀ key linkName i, s.host.instance? key linkName = some i →
    ∃ p, s.processes i.child = some p ∧ p.key = key ∧ p.linkName = linkName ∧
      (p.subscribed = true → p.view.Matches s.host key linkName)

/-- A message that is published reaches nobody that it is not for, and every
process it is for has subscribed by then, or was given its definitions after
the change. -/
def FeedStep.Timely (s : LinkFeed) : FeedStep → Prop
  | .publish => ∀ c, s.change = some c → ∀ pid p, s.processes pid = some p →
      p.listensTo s.host.latticePrefix c.message →
        c.message.isFor p ∧ (p.subscribed = true ∨ c.since ≤ p.id)
  | _ => True

/-! ### The invariant -/

/-- A start in progress: the entry is the one of the table, and from the list
of definitions on the table stays as it was listed. -/
structure StartCall.Ok (call : StartCall) (s : LinkFeed) : Prop where
  entry : ∀ l, call.provider.instances.lookup l = s.host.instance? call.image.claims.subject l
  listed : ∀ id given, call.phase = .listed id given →
    given = s.host.providerLinks call.image.claims.subject call.linkName ∧ id < s.host.nextId ∧
      ∀ c, s.change = some c → c.since ≤ id
  spawned : ∀ id given pid, call.phase = .spawned id given pid →
    (∃ p, s.processes pid = some p ∧ p.key = call.image.claims.subject ∧
      p.linkName = call.linkName) ∧
    ∀ key l i, s.host.instance? key l = some i → i.child ≠ pid

variable (sha256 : String → String)

structure FeedOk (s : LinkFeed) : Prop where
  keyed : Keyed sha256 s.host.links
  made : ∀ c, s.change = some c → c.message.Made s.host ∧ c.since ≤ s.host.nextId
  numbered : ∀ pid p, s.processes pid = some p → pid < s.host.nextId ∧ p.id < s.host.nextId
  /-- Who need not be told of the change in progress knows the table. -/
  current : ∀ pid p, s.processes pid = some p →
    (∀ c, s.change = some c → c.message.isFor p → c.since ≤ p.id) →
      p.view.Matches s.host p.key p.linkName
  /-- Who will be told of it knows the table then. -/
  pending : ∀ pid p c, s.processes pid = some p → s.change = some c → c.message.isFor p →
    (p.view.tell c.message).Matches s.host p.key p.linkName
  recorded : ∀ key linkName i, s.host.instance? key linkName = some i →
    ∃ p, s.processes i.child = some p ∧ p.key = key ∧ p.linkName = linkName
  starting : ∀ call, s.start = some call → call.Ok s

variable {sha256} {s : LinkFeed}

theorem feedOk_new (latticePrefix : String) : FeedOk sha256 (.new latticePrefix) := by
  refine ⟨Keyed.empty, ?_, ?_, ?_, ?_, ?_, ?_⟩
  · intro c hc
    cases hc
  · intro pid p hp
    cases hp
  · intro pid p hp
    cases hp
  · intro pid p c hp
    cases hp
  · intro key linkName i hi
    cases hi
  · intro call hcall
    cases hcall

theorem FeedOk.knowsLinks (h : FeedOk sha256 s) : s.KnowsLinks := by
  intro _ hchange key linkName i hi
  obtain ⟨p, hp, hkey, hlink⟩ := h.recorded key linkName i hi
  refine ⟨p, hp, hkey, hlink, fun _ => ?_⟩
  rw [← hkey, ← hlink]
  refine h.current _ p hp fun c hc => ?_
  rw [hchange] at hc
  cases hc

/-! ### Steps that leave the definitions alone -/

/-- The host changed, but neither its definitions nor its instances. -/
theorem FeedOk.host (h : FeedOk sha256 s) {host' : Host} (hlinks : host'.links = s.host.links)
    (hinstances : ∀ key l, host'.instance? key l = s.host.instance? key l)
    (hnext : s.host.nextId ≤ host'.nextId) : FeedOk sha256 { s with host := host' } where
  keyed := by rw [hlinks]; exact h.keyed
  made c hc := by
    obtain ⟨hmade, hsince⟩ := h.made c hc
    refine ⟨?_, hsince.trans hnext⟩
    unfold LinkdefMessage.Made at hmade ⊢
    rw [hlinks]
    exact hmade
  numbered pid p hp := by
    obtain ⟨hpid, hid⟩ := h.numbered pid p hp
    exact ⟨lt_of_lt_of_le hpid hnext, lt_of_lt_of_le hid hnext⟩
  current pid p hp hknown := (h.current pid p hp hknown).congr hlinks
  pending pid p c hp hc hfor := (h.pending pid p c hp hc hfor).congr hlinks
  recorded key l i hi := h.recorded key l i (hinstances key l ▸ hi)
  starting call hcall := by
    have hok := h.starting call hcall
    refine ⟨fun l => ?_, fun id given hphase => ?_, fun id given pid hphase => ?_⟩
    · rw [hinstances]
      exact hok.entry l
    · obtain ⟨hgiven, hid, hsince⟩ := hok.listed id given hphase
      refine ⟨?_, lt_of_lt_of_le hid hnext, hsince⟩
      rw [hgiven, Host.providerLinks, Host.providerLinks, hlinks]
    · obtain ⟨hp, hchild⟩ := hok.spawned id given pid hphase
      exact ⟨hp, fun key l i hi => hchild key l i (hinstances key l ▸ hi)⟩

/-- A start begins, goes on or ends. -/
theorem FeedOk.withStart (h : FeedOk sha256 s) {start : Option StartCall}
    (hstart : ∀ call, start = some call → call.Ok s) : FeedOk sha256 { s with start } where
  keyed := h.keyed
  made := h.made
  numbered := h.numbered
  current := h.current
  pending := h.pending
  recorded := h.recorded
  starting call hcall :=
    ⟨(hstart call hcall).entry, (hstart call hcall).listed, (hstart call hcall).spawned⟩

variable {s' : LinkFeed}

theorem FeedOk.beginStart (h : FeedOk sha256 s) {linkName providerRef : String}
    {image : ProviderImage} (hs : s.beginStart linkName providerRef image = some s') :
    FeedOk sha256 s' := by
  obtain ⟨hentry, hnext, hsame⟩ := enterProvider_spec s.host providerRef image.claims
  have hlinks : (s.host.enterProvider image.claims providerRef).2.links = s.host.links := by
    unfold Host.enterProvider
    split <;> rfl
  have hentered := h.host hlinks hsame.instances hsame.nextId
  unfold LinkFeed.beginStart at hs
  split at hs
  · cases hs
  · dsimp only at hs
    split at hs
    · cases hs
      exact hentered
    · cases hs
      refine hentered.withStart fun call hcall => ?_
      cases hcall
      refine ⟨fun l => ?_, (fun _ _ hphase => nomatch hphase), (fun _ _ _ hphase => nomatch hphase)⟩
      exact (hentry l).trans (hsame.instances _ l).symm

theorem FeedOk.listLinks (h : FeedOk sha256 s) (hs : s.listLinks = some s') : FeedOk sha256 s' := by
  unfold LinkFeed.listLinks at hs
  split at hs
  · rename_i linkName image provider hstart
    cases hs
    have hok := h.starting _ hstart
    have htaken : FeedOk sha256 { s with host := s.host.takeId.2 } :=
      h.host rfl (fun _ _ => rfl) (Nat.le_succ _)
    refine htaken.withStart fun call hcall => ?_
    cases hcall
    refine ⟨hok.entry, fun id given hphase => ?_, (fun _ _ _ hphase => nomatch hphase)⟩
    cases hphase
    exact ⟨rfl, Nat.lt_succ_self _, fun c hc => (h.made c hc).2⟩
  · cases hs

/-- The process that is spawned knows the table: it cannot have changed since
it was listed. -/
theorem FeedOk.spawnStep (h : FeedOk sha256 s) (hs : s.spawnStep = some s') :
    FeedOk sha256 s' := by
  unfold LinkFeed.spawnStep at hs
  split at hs
  · rename_i linkName image provider id given hstart
    cases hs
    have hok := h.starting _ hstart
    obtain ⟨hgiven, hid, hsince⟩ := hok.listed id given rfl
    have hspawned : FeedOk sha256 { s with host := s.host.spawnProcess image.path } :=
      h.host rfl (fun _ _ => rfl) (Nat.le_succ _)
    have hview : LinkView.Matches (.ofGiven given) s.host image.claims.subject linkName := by
      rw [hgiven]
      exact ofGiven_matches h.keyed _ _
    refine ⟨h.keyed, hspawned.made, fun pid p hp => ?_, fun pid p hp hknown => ?_,
      fun pid p c hp hc hfor => ?_, fun key l i hi => ?_, fun call hcall => ?_⟩
    · dsimp only at hp
      rw [Function.update_apply] at hp
      split at hp
      · rename_i heq
        cases hp
        rw [heq]
        exact ⟨Nat.lt_succ_self _, Nat.lt_succ_of_lt hid⟩
      · exact hspawned.numbered pid p hp
    · dsimp only at hp
      rw [Function.update_apply] at hp
      split at hp
      · cases hp
        exact hview
      · exact hspawned.current pid p hp hknown
    · dsimp only at hp
      rw [Function.update_apply] at hp
      split at hp
      · cases hp
        exact hview.tell_again hfor.1 hfor.2 (h.made c hc).1
      · exact hspawned.pending pid p c hp hc hfor
    · obtain ⟨p, hp, hrest⟩ := h.recorded key l i hi
      refine ⟨p, ?_, hrest⟩
      have hne : i.child ≠ s.host.nextId := fun heq =>
        absurd (h.numbered _ _ hp).1 (heq ▸ lt_irrefl _)
      dsimp only
      rw [Function.update_of_ne hne]
      exact hp
    · cases hcall
      refine ⟨hok.entry, (fun _ _ hphase => nomatch hphase), fun id' given' pid hphase => ?_⟩
      cases hphase
      refine ⟨⟨_, Function.update_self _ _ _, rfl, rfl⟩, fun key l i hi heq => ?_⟩
      obtain ⟨p, hp, -⟩ := h.recorded key l i hi
      exact absurd (h.numbered _ _ hp).1 (heq ▸ lt_irrefl _)
  · cases hs

theorem FeedOk.finishStart (h : FeedOk sha256 s) (hs : s.finishStart = some s') :
    FeedOk sha256 s' := by
  unfold LinkFeed.finishStart at hs
  split at hs
  · rename_i linkName image provider id given pid hstart
    cases hs
    have hok := h.starting _ hstart
    obtain ⟨⟨p, hp, hkey, hlink⟩, -⟩ := hok.spawned id given pid rfl
    refine ⟨h.keyed, h.made, h.numbered, fun pid p hp hknown => h.current pid p hp hknown,
      fun pid p c hp hc hfor => h.pending pid p c hp hc hfor, fun key l i hi => ?_,
      (fun _ hcall => nomatch hcall)⟩
    simp only [Host.instance?, Host.writeHostData, HashMap.lookup_insert_if] at hi
    by_cases hk : key = image.claims.subject
    · subst hk
      simp only [if_true, Option.bind_some, HashMap.lookup_insert_if] at hi
      split at hi
      · rename_i heq
        cases hi
        exact ⟨p, hp, hkey, hlink.trans heq.symm⟩
      · exact h.recorded _ l i ((hok.entry l).symm.trans hi)
    · rw [if_neg hk] at hi
      exact h.recorded key l i hi
  · cases hs

/-- What fails after the spawn takes the process with it. -/
theorem FeedOk.failStart (h : FeedOk sha256 s) {failure : StartFailure}
    (hs : s.failStart failure = some s') : FeedOk sha256 s' := by
  have hnone {feed : LinkFeed} (hfeed : FeedOk sha256 feed) :
      FeedOk sha256 { feed with start := none } := hfeed.withStart fun _ hcall => nomatch hcall
  unfold LinkFeed.failStart at hs
  split at hs
  · split at hs
    · cases hs
      have htaken : FeedOk sha256 { s with host := s.host.takeId.2 } :=
        h.host rfl (fun _ _ => rfl) (Nat.le_succ _)
      exact hnone htaken
    · cases hs
  · split at hs
    · cases hs
      exact hnone h
    · cases hs
  · rename_i linkName image provider id given pid hstart
    split at hs
    · cases hs
      obtain ⟨-, hchild⟩ := (h.starting _ hstart).spawned id given pid rfl
      have hkilled : ∀ host', host' = s.host ∨
          host' = s.host.writeHostData pid ⟨linkName, id, image.claims.subject, given⟩ →
          FeedOk sha256 { s with host := host'.killProcess pid } := by
        rintro host' (rfl | rfl)
        · exact h.host rfl (fun _ _ => rfl) le_rfl
        · exact h.host rfl (fun _ _ => rfl) le_rfl
      have hhost := hkilled (if failure.written then
        s.host.writeHostData pid ⟨linkName, id, image.claims.subject, given⟩ else s.host)
        (by split <;> simp)
      have halive : ∀ pid' p, Function.update s.processes pid none pid' = some p →
          s.processes pid' = some p := by
        intro pid' p hp
        rw [Function.update_apply] at hp
        split at hp
        · cases hp
        · exact hp
      refine ⟨hhost.keyed, hhost.made, fun pid' p hp => hhost.numbered pid' p (halive pid' p hp),
        fun pid' p hp hknown => hhost.current pid' p (halive pid' p hp) hknown,
        fun pid' p c hp hc hfor => hhost.pending pid' p c (halive pid' p hp) hc hfor,
        fun key l i hi => ?_, (fun _ hcall => nomatch hcall)⟩
      obtain ⟨p, hp, hrest⟩ := hhost.recorded key l i hi
      refine ⟨p, ?_, hrest⟩
      have hsame : s.host.instance? key l = some i := by
        rw [← hi]
        refine instance?_congr ?_ key l
        dsimp only
        split <;> rfl
      dsimp only
      rw [Function.update_of_ne (hchild key l i hsame)]
      exact hp
    · cases hs
  · cases hs

/-! ### Changes of the definitions -/

/-- The table can be changed while no start has listed it: the processes that
are there have to be told. -/
theorem FeedOk.changed (h : FeedOk sha256 s) (hfree : s.linksFree = true) {m : LinkdefMessage}
    {host' : Host} (hchange : m.Changes s.host host') (hkeyed : Keyed sha256 host'.links)
    (hinstances : ∀ key l, host'.instance? key l = s.host.instance? key l)
    (hnext : host'.nextId = s.host.nextId) :
    FeedOk sha256 { s with host := host', change := some ⟨m, false, s.host.nextId⟩ } := by
  simp only [LinkFeed.linksFree, Bool.and_eq_true, Option.isNone_iff_eq_none] at hfree
  obtain ⟨hidle, hunlocked⟩ := hfree
  have hknown : ∀ pid p, s.processes pid = some p → p.view.Matches s.host p.key p.linkName :=
    fun pid p hp => h.current pid p hp fun c hc => nomatch hidle.symm.trans hc
  refine ⟨hkeyed, fun c hc => ?_, fun pid p hp => ?_, fun pid p hp htold => ?_,
    fun pid p c hp hc hfor => ?_, fun key l i hi => ?_, fun call hcall => ?_⟩
  · cases hc
    exact ⟨hchange.made h.keyed, hnext.ge⟩
  · dsimp only
    rw [hnext]
    exact h.numbered pid p hp
  · refine (hknown pid p hp).changed_other hchange fun hfor => ?_
    exact absurd (h.numbered pid p hp).2 (Nat.not_lt.mpr (htold _ rfl hfor))
  · cases hc
    exact (hknown pid p hp).changed h.keyed hchange hfor.1 hfor.2
  · rw [hinstances] at hi
    exact h.recorded key l i hi
  · have hok := h.starting call hcall
    have hstart : s.start = some call := hcall
    rw [hstart] at hunlocked
    refine ⟨fun l => (hok.entry l).trans (hinstances _ l).symm, fun id given hphase => ?_,
      fun id given pid hphase => ?_⟩
    · simp [hphase, StartPhase.holdsLinks] at hunlocked
    · simp [hphase, StartPhase.holdsLinks] at hunlocked

theorem FeedOk.beginAdd (h : FeedOk sha256 s) {ld : LinkDefinition}
    (hs : s.beginAdd sha256 ld = some s') : FeedOk sha256 s' := by
  unfold LinkFeed.beginAdd at hs
  split at hs
  · rename_i hfree
    split at hs
    · cases hs
      exact h
    · rename_i host' hinsert
      cases hs
      obtain ⟨hchange, hkeyed⟩ := addLinkdefInsert_changes h.keyed hinsert
      have hframe : host'.providers = s.host.providers ∧ host'.nextId = s.host.nextId := by
        unfold Host.addLinkdefInsert at hinsert
        split at hinsert
        · cases hinsert
          exact ⟨rfl, rfl⟩
        · cases hinsert
      exact h.changed hfree hchange hkeyed (instance?_congr hframe.1) hframe.2
  · cases hs

theorem FeedOk.beginDelete (h : FeedOk sha256 s) {ld : LinkDefinition}
    (hs : s.beginDelete sha256 ld = some s') : FeedOk sha256 s' := by
  unfold LinkFeed.beginDelete at hs
  split at hs
  · rename_i hfree
    split at hs
    · cases hs
      exact h
    · rename_i found host' hremove
      cases hs
      obtain ⟨hchange, hkeyed⟩ := deleteLinkdefRemove_changes h.keyed hremove
      have hframe : host'.providers = s.host.providers ∧ host'.nextId = s.host.nextId := by
        unfold Host.deleteLinkdefRemove at hremove
        split at hremove
        · cases hremove
          exact ⟨rfl, rfl⟩
        · cases hremove
      exact h.changed hfree hchange hkeyed (instance?_congr hframe.1) hframe.2
  · cases hs

/-- Routing touches the links tables of the groups only. -/
theorem FeedOk.routeStep (h : FeedOk sha256 s) (hs : s.routeStep = some s') :
    FeedOk sha256 s' := by
  unfold LinkFeed.routeStep at hs
  split at hs
  · rename_i m since hchange
    cases hs
    refine ⟨h.keyed, fun c hc => ?_, h.numbered, fun pid p hp htold => ?_,
      fun pid p c hp hc hfor => ?_, h.recorded, fun call hcall => ?_⟩
    · cases hc
      exact h.made ⟨m, false, since⟩ hchange
    · refine h.current pid p hp fun c hc hfor => ?_
      cases hchange.symm.trans hc
      exact htold ⟨m, true, since⟩ rfl hfor
    · cases hc
      exact h.pending pid p ⟨m, false, since⟩ hp hchange hfor
    · have hok := h.starting call hcall
      refine ⟨hok.entry, fun id given hphase => ?_, hok.spawned⟩
      obtain ⟨hgiven, hid, hsince⟩ := hok.listed id given hphase
      refine ⟨hgiven, hid, fun c hc => ?_⟩
      cases hc
      exact hsince ⟨m, false, since⟩ hchange
  · cases hs

/-- A message is published to the subject of the processes it is for. -/
theorem LinkdefMessage.isFor.listensTo {m : LinkdefMessage} {p : ProviderProcess}
    (h : m.isFor p) (latticePrefix : String) : p.listensTo latticePrefix m := by
  unfold ProviderProcess.listensTo
  rw [← h.1, ← h.2]

@[simp] theorem deliver_key (p : ProviderProcess) (latticePrefix : String) (m : LinkdefMessage) :
    (p.deliver latticePrefix m).key = p.key ∧ (p.deliver latticePrefix m).linkName = p.linkName ∧
      (p.deliver latticePrefix m).id = p.id := by
  unfold ProviderProcess.deliver
  split <;> exact ⟨rfl, rfl, rfl⟩

/-- When the message is published in time, every process knows the table. -/
theorem FeedOk.publishStep (h : FeedOk sha256 s) (htimely : FeedStep.Timely s .publish)
    (hs : s.publishStep = some s') : FeedOk sha256 s' := by
  unfold LinkFeed.publishStep at hs
  split at hs
  · rename_i m since hchange
    cases hs
    have hknows : ∀ pid p, s.processes pid = some p →
        (p.deliver s.host.latticePrefix m).view.Matches s.host p.key p.linkName := by
      intro pid p hp
      unfold ProviderProcess.deliver
      split
      · rename_i hreached
        -- it is told, and the message is for it
        have hfor := (htimely _ hchange pid p hp hreached.2).1
        rw [ProviderProcess.view, List.foldl_append]
        exact h.pending pid p _ hp hchange hfor
      · rename_i hmissed
        refine h.current pid p hp fun c hc hfor => ?_
        cases hchange.symm.trans hc
        have hlistens := LinkdefMessage.isFor.listensTo hfor s.host.latticePrefix
        rcases (htimely _ hchange pid p hp hlistens).2 with hsubscribed | hsince
        · exact absurd ⟨hsubscribed, hlistens⟩ hmissed
        · exact hsince
    have hbefore {pid : Pid} {p' : ProviderProcess}
        (hp' : (s.processes pid).map (·.deliver s.host.latticePrefix m) = some p') :
        ∃ p, s.processes pid = some p ∧ p' = p.deliver s.host.latticePrefix m := by
      obtain ⟨p, hp, heq⟩ := Option.map_eq_some_iff.mp hp'
      exact ⟨p, hp, heq.symm⟩
    refine ⟨h.keyed, (fun _ hc => nomatch hc), fun pid p' hp' => ?_, fun pid p' hp' _ => ?_,
      (fun _ _ _ _ hc => nomatch hc), fun key l i hi => ?_, fun call hcall => ?_⟩
    · obtain ⟨p, hp, rfl⟩ := hbefore hp'
      rw [(deliver_key p _ m).2.2]
      exact h.numbered pid p hp
    · obtain ⟨p, hp, rfl⟩ := hbefore hp'
      rw [(deliver_key p _ m).1, (deliver_key p _ m).2.1]
      exact (hknows pid p hp).congr rfl
    · obtain ⟨p, hp, hkey, hlink⟩ := h.recorded key l i hi
      refine ⟨p.deliver s.host.latticePrefix m, ?_, ?_, ?_⟩
      · dsimp only
        rw [hp]
        rfl
      · rw [(deliver_key p _ m).1, hkey]
      · rw [(deliver_key p _ m).2.1, hlink]
    · have hok := h.starting call hcall
      refine ⟨hok.entry, fun id given hphase => ?_, fun id given pid hphase => ?_⟩
      · obtain ⟨hgiven, hid, -⟩ := hok.listed id given hphase
        exact ⟨hgiven, hid, (fun _ hc => nomatch hc)⟩
      · obtain ⟨⟨p, hp, hkey, hlink⟩, hchild⟩ := hok.spawned id given pid hphase
        refine ⟨⟨p.deliver s.host.latticePrefix m, ?_, ?_, ?_⟩, hchild⟩
        · dsimp only
          rw [hp]
          rfl
        · rw [(deliver_key p _ m).1, hkey]
        · rw [(deliver_key p _ m).2.1, hlink]
  · cases hs

/-- Subscribing changes nothing that a process knows. -/
theorem FeedOk.subscribeStep (h : FeedOk sha256 s) {pid : Pid}
    (hs : s.subscribeStep pid = some s') : FeedOk sha256 s' := by
  unfold LinkFeed.subscribeStep at hs
  split at hs
  · rename_i found hfound
    split at hs
    · cases hs
    · cases hs
      have hbefore {pid' : Pid} {p' : ProviderProcess}
          (hp' : Function.update s.processes pid (some { found with subscribed := true }) pid' =
            some p') :
          ∃ p, s.processes pid' = some p ∧ p'.key = p.key ∧ p'.linkName = p.linkName ∧
            p'.id = p.id ∧ p'.view = p.view := by
        rw [Function.update_apply] at hp'
        split at hp'
        · rename_i heq
          cases hp'
          exact ⟨found, heq ▸ hfound, rfl, rfl, rfl, rfl⟩
        · exact ⟨p', hp', rfl, rfl, rfl, rfl⟩
      have hafter {pid' : Pid} {p : ProviderProcess} (hp : s.processes pid' = some p) :
          ∃ p', Function.update s.processes pid (some { found with subscribed := true }) pid' =
            some p' ∧ p'.key = p.key ∧ p'.linkName = p.linkName := by
        rw [Function.update_apply]
        split
        · rename_i heq
          rw [heq, hfound] at hp
          cases hp
          exact ⟨_, rfl, rfl, rfl⟩
        · exact ⟨p, hp, rfl, rfl⟩
      refine ⟨h.keyed, h.made, fun pid' p' hp' => ?_, fun pid' p' hp' htold => ?_,
        fun pid' p' c hp' hc hfor => ?_, fun key l i hi => ?_, fun call hcall => ?_⟩
      · obtain ⟨p, hp, -, -, hid, -⟩ := hbefore hp'
        rw [hid]
        exact h.numbered pid' p hp
      · obtain ⟨p, hp, hkey, hlink, hid, hview⟩ := hbefore hp'
        rw [hview, hkey, hlink]
        refine h.current pid' p hp fun c hc hfor => ?_
        rw [← hid]
        exact htold c hc ⟨hfor.1.trans hkey.symm, hfor.2.trans hlink.symm⟩
      · obtain ⟨p, hp, hkey, hlink, -, hview⟩ := hbefore hp'
        rw [hview, hkey, hlink]
        exact h.pending pid' p c hp hc ⟨hfor.1.trans hkey, hfor.2.trans hlink⟩
      · obtain ⟨p, hp, hkey, hlink⟩ := h.recorded key l i hi
        obtain ⟨p', hp', hkey', hlink'⟩ := hafter hp
        exact ⟨p', hp', hkey'.trans hkey, hlink'.trans hlink⟩
      · have hok := h.starting call hcall
        refine ⟨hok.entry, hok.listed, fun id given pid' hphase => ?_⟩
        obtain ⟨⟨p, hp, hkey, hlink⟩, hchild⟩ := hok.spawned id given pid' hphase
        obtain ⟨p', hp', hkey', hlink'⟩ := hafter hp
        exact ⟨⟨p', hp', hkey'.trans hkey, hlink'.trans hlink⟩, hchild⟩
  · cases hs

/-! ### The result -/

theorem FeedOk.step (h : FeedOk sha256 s) {l : FeedStep} (htimely : l.Timely s)
    (hs : s.step sha256 l = some s') : FeedOk sha256 s' := by
  cases l with
  | start linkName providerRef image => exact h.beginStart hs
  | list => exact h.listLinks hs
  | spawn => exact h.spawnStep hs
  | finish => exact h.finishStart hs
  | fail failure => exact h.failStart hs
  | add ld => exact h.beginAdd hs
  | delete ld => exact h.beginDelete hs
  | route => exact h.routeStep hs
  | publish => exact h.publishStep htimely hs
  | subscribe pid => exact h.subscribeStep hs

/-- In every run whose messages are published in time, every instance knows
exactly its links once all calls have returned and it has subscribed. -/
theorem providers_know_links (sha256 : String → String) (latticePrefix : String)
    {tr : List FeedStep}
    (h : (feedMachine sha256 latticePrefix).RunWhen (fun s l => l.Timely s) tr s) :
    s.KnowsLinks := by
  have hok : FeedOk sha256 s := h.invariant (I := FeedOk sha256) (feedOk_new latticePrefix)
    fun s l s' hI htimely hs => hI.step htimely hs
  exact hok.knowsLinks

/-! ## A provider and one link -/

def imageLate : ProviderImage where
  path := "/provider"
  claims := ⟨"ISSUER", "V", 0, none, none, none⟩

def linkMV : LinkDefinition where
  actorId := "M"
  providerId := "V"
  linkName := "default"
  contractId := "wasmcloud:keyvalue"
  values := ∅

def startV : List FeedStep := [.start "default" "provider:v1" imageLate, .list, .spawn, .finish]

/-- The link is added after the start has returned and before the process has
subscribed: it is told of the link in neither way. -/
theorem lateSubscriber_unaware :
    ∃ s, (feedMachine id "default").Run
        (startV ++ [.add linkMV, .route, .publish, .subscribe 1]) s ∧
      s.start = none ∧ s.change = none ∧ ¬ s.KnowsLinks := by
  refine ⟨_, Machine.run_of_exec rfl, rfl, rfl, fun h => ?_⟩
  obtain ⟨p, hp, -, -, hmatches⟩ := h rfl rfl "V" "default" ⟨0, 1⟩ rfl
  cases hp
  have hknown := (hmatches rfl "M" "wasmcloud:keyvalue" ∅).mpr
    ⟨linkMV, List.mem_singleton_self _, rfl, rfl, rfl, rfl, rfl⟩
  cases hknown

/-- The same calls with the subscription before the change. -/
def promptSteps : List FeedStep := startV ++ [.subscribe 1, .add linkMV, .route]

/-- The state in which the message is published. -/
def promptState : LinkFeed :=
  ((feedMachine id "default").exec (.new "default") promptSteps).getD (.new "default")

theorem promptState_timely : FeedStep.Timely promptState .publish := by
  intro c hc pid p hp _
  cases hc
  by_cases hpid : pid = 1
  · subst hpid
    cases hp
    exact ⟨⟨rfl, rfl⟩, .inl rfl⟩
  · have hnone : promptState.processes pid = none := by
      show Function.update (Function.update (fun _ => none) 1 _) 1 _ pid = none
      rw [Function.update_of_ne hpid, Function.update_of_ne hpid]
    cases hnone.symm.trans hp

theorem promptSubscriber_aware :
    ∃ s, (feedMachine id "default").RunWhen (fun s l => l.Timely s) (promptSteps ++ [.publish]) s ∧
      s.host.instance? "V" "default" = some ⟨0, 1⟩ ∧ s.KnowsLinks := by
  have hnil : (feedMachine id "default").RunWhen (fun s l => l.Timely s) [] (.new "default") := .nil
  have hallowed : ∀ l ∈ promptSteps, ∀ s, FeedStep.Timely s l := by
    intro l hl s
    simp only [promptSteps, startV, List.mem_append, List.mem_cons, List.not_mem_nil, or_false] at hl
    rcases hl with (rfl | rfl | rfl | rfl) | rfl | rfl | rfl <;> trivial
  have hbefore := hnil.append_exec hallowed (rfl : _ = some promptState)
  have hrun := hbefore.snoc promptState_timely rfl
  exact ⟨_, hrun, rfl, providers_know_links id "default" hrun⟩

end KasmCloud
