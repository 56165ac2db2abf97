/-
KasmCloud.Host.LinksTheorems — what the sections of `add_linkdef` and
`delete_linkdef` do, one lemma for each, and the meaning of the routing
table that `get_actor_links` folds together.

`Keyed` is the invariant of `Host.links` that every later result uses:
each definition is stored under its own hash. It makes a stored definition
unique for its triple, whatever the digest function does, and with that
`getActorLinks_entity?_iff` reads the folded table back.
-/
import KasmCloud.Host.Links
import Mathlib.Logic.Function.Basic

namespace KasmCloud

open Lib

/-! ## Routing tables -/

@[simp] theorem LinkTable.entity?_empty (c l : String) :
    LinkTable.entity? ∅ c l = none := by
  simp [LinkTable.entity?]

/-- Routing a definition changes the one place it is for. -/
theorem LinkTable.entity?_route (links : LinkTable) (ld : LinkDefinition) (c l : String) :
    (links.route ld).entity? c l =
      if c = ld.contractId ∧ l = ld.linkName then some ld.entity else links.entity? c l := by
  unfold LinkTable.route LinkTable.entity?
  rw [HashMap.lookup_insert_if]
  by_cases hc : c = ld.contractId
  · subst hc
    simp only [if_true, Option.bind_some, HashMap.lookup_insert_if, true_and]
    by_cases hl : l = ld.linkName
    · simp [hl]
    · simp only [hl, if_false]
      cases links.lookup ld.contractId <;> simp
  · simp [hc]

/-- Unrouting a definition clears the one place it is for. -/
theorem LinkTable.entity?_unroute (links : LinkTable) (ld : LinkDefinition) (c l : String) :
    (links.unroute ld).entity? c l =
      if c = ld.contractId ∧ l = ld.linkName then none else links.entity? c l := by
  unfold LinkTable.unroute
  cases h : links.lookup ld.contractId with
  | none =>
    by_cases hc : c = ld.contractId ∧ l = ld.linkName
    · obtain ⟨rfl, rfl⟩ := hc
      simp [LinkTable.entity?, h]
    · simp [hc]
  | some targets =>
    simp only [LinkTable.entity?, HashMap.lookup_insert_if]
    by_cases hc : c = ld.contractId
    · subst hc
      simp only [if_true, Option.bind_some, HashMap.lookup_erase_if, true_and, h]
    · simp [hc]

/-- Whatever a fold of routings holds comes from one of the definitions or
was there before. -/
theorem LinkTable.entity?_foldl_route {defs : List LinkDefinition} {links : LinkTable}
    {c l : String} {e : WasmCloudEntity} (h : (defs.foldl route links).entity? c l = some e) :
    (∃ ld ∈ defs, ld.contractId = c ∧ ld.linkName = l ∧ ld.entity = e) ∨
      links.entity? c l = some e := by
  induction defs generalizing links with
  | nil => exact .inr h
  | cons ld defs ih =>
    rcases ih h with ⟨ld', hmem, hc, hl, he⟩ | hrest
    · exact .inl ⟨ld', List.mem_cons_of_mem _ hmem, hc, hl, he⟩
    · rw [entity?_route] at hrest
      split at hrest
      · rename_i hcl
        exact .inl ⟨ld, List.mem_cons_self, hcl.1.symm, hcl.2.symm, Option.some.inj hrest⟩
      · exact .inr hrest

/-- A fold of routings has an entry wherever one of the definitions is for,
or one was there before. -/
theorem LinkTable.entity?_foldl_route_isSome (defs : List LinkDefinition) (links : LinkTable)
    {c l : String} (h : (∃ ld ∈ defs, ld.contractId = c ∧ ld.linkName = l) ∨
      (links.entity? c l).isSome) :
    ((defs.foldl route links).entity? c l).isSome := by
  induction defs generalizing links with
  | nil =>
    rcases h with ⟨_, hmem, _⟩ | h
    · cases hmem
    · exact h
  | cons ld defs ih =>
    refine ih _ ?_
    rcases h with ⟨ld', hmem, hc, hl⟩ | h
    · rcases List.mem_cons.mp hmem with rfl | hmem
      · exact .inr (by simp [entity?_route, hc, hl])
      · exact .inl ⟨ld', hmem, hc, hl⟩
    · refine .inr ?_
      rw [entity?_route]
      split
      · rfl
      · exact h

/-! ## Definitions stored under their hash -/

section Sha256

variable (sha256 : String → String)

/-- Every definition is stored under its own hash. -/
def Keyed (links : HashMap String LinkDefinition) : Prop :=
  ∀ k ld, links.lookup k = some ld → ld.hash sha256 = k

variable {sha256}

theorem LinkDefinition.hash_congr {ld ld' : LinkDefinition} (h : ld.triple = ld'.triple) :
    ld.hash sha256 = ld'.hash sha256 := by
  simp only [LinkDefinition.triple, Prod.mk.injEq] at h
  obtain ⟨ha, hc, hl⟩ := h
  simp [LinkDefinition.hash, ha, hc, hl]

@[simp] theorem Keyed.empty : Keyed sha256 ∅ := by
  intro k ld h
  simp at h

theorem Keyed.insert {links : HashMap String LinkDefinition} (h : Keyed sha256 links)
    (ld : LinkDefinition) : Keyed sha256 (links.insert (ld.hash sha256) ld) := by
  intro k ld' hk
  rw [HashMap.lookup_insert_if] at hk
  split at hk
  · rename_i heq
    cases hk
    exact heq.symm
  · exact h k ld' hk

theorem Keyed.erase {links : HashMap String LinkDefinition} (h : Keyed sha256 links)
    (k : String) : Keyed sha256 (links.erase k) := by
  intro k' ld hk
  rw [HashMap.lookup_erase_if] at hk
  split at hk
  · cases hk
  · exact h k' ld hk

/-- A stored definition is found under its hash. -/
theorem Keyed.lookup_hash {links : HashMap String LinkDefinition} (h : Keyed sha256 links)
    {ld : LinkDefinition} (hmem : ld ∈ links.values) :
    links.lookup (ld.hash sha256) = some ld := by
  obtain ⟨k, hk⟩ := HashMap.mem_values.mp hmem
  rw [h k ld hk]
  exact hk

/-- At most one definition is stored for a triple. -/
theorem Keyed.unique {links : HashMap String LinkDefinition} (h : Keyed sha256 links)
    {ld ld' : LinkDefinition} (hmem : ld ∈ links.values) (hmem' : ld' ∈ links.values)
    (heq : ld.triple = ld'.triple) : ld = ld' := by
  have h1 := h.lookup_hash hmem
  rw [LinkDefinition.hash_congr heq, h.lookup_hash hmem'] at h1
  exact (Option.some.inj h1).symm

/-- No definition is stored twice. -/
theorem Keyed.values_nodup {links : HashMap String LinkDefinition} (h : Keyed sha256 links) :
    links.values.Nodup := by
  have hentries : links.entries.Nodup := links.nodupKeys.nodup
  refine hentries.map_on ?_
  rintro ⟨k, ld⟩ hmem ⟨k', ld'⟩ hmem' heq
  have hk := h k ld (AList.mem_lookup_iff.mpr hmem)
  have hk' := h k' ld' (AList.mem_lookup_iff.mpr hmem')
  simp only at heq
  subst heq
  rw [← hk, ← hk']

/-- Erasing the place of a definition takes out that definition only. -/
theorem Keyed.mem_values_erase {links : HashMap String LinkDefinition} (h : Keyed sha256 links)
    {k : String} {found : LinkDefinition} (hfound : links.lookup k = some found)
    {ld : LinkDefinition} :
    ld ∈ HashMap.values (links.erase k) ↔ ld ∈ links.values ∧ ld ≠ found := by
  simp only [HashMap.mem_values, HashMap.lookup_erase_if]
  constructor
  · rintro ⟨k', hk'⟩
    split at hk'
    · cases hk'
    · rename_i hne
      refine ⟨⟨k', hk'⟩, ?_⟩
      rintro rfl
      exact hne ((h k' ld hk').symm.trans (h k ld hfound))
  · rintro ⟨⟨k', hk'⟩, hne⟩
    refine ⟨k', ?_⟩
    rw [if_neg]
    · exact hk'
    · rintro rfl
      rw [hfound] at hk'
      exact hne (Option.some.inj hk').symm

/-- The routing table `get_actor_links` builds holds exactly the stored
definitions of the actor. -/
theorem getActorLinks_entity?_iff {host : Host} (hk : Keyed sha256 host.links)
    (key c l : String) (e : WasmCloudEntity) :
    (host.getActorLinks key).entity? c l = some e ↔
      ∃ ld ∈ host.links.values, ld.triple = (key, c, l) ∧ ld.entity = e := by
  constructor
  · intro h
    rcases LinkTable.entity?_foldl_route h with ⟨ld, hmem, hc, hl, he⟩ | hempty
    · rw [List.mem_filter] at hmem
      refine ⟨ld, hmem.1, ?_, he⟩
      have ha : ld.actorId = key := by simpa using hmem.2
      simp [LinkDefinition.triple, ha, hc, hl]
    · simp at hempty
  · rintro ⟨ld, hmem, htriple, rfl⟩
    have hparts := htriple
    simp only [LinkDefinition.triple, Prod.mk.injEq] at hparts
    obtain ⟨ha, hc, hl⟩ := hparts
    have hin : ld ∈ host.links.values.filter fun ld => ld.actorId = key :=
      List.mem_filter.mpr ⟨hmem, by simp [ha]⟩
    have hsome := LinkTable.entity?_foldl_route_isSome _ ∅ (.inl ⟨ld, hin, hc, hl⟩)
    obtain ⟨e, he⟩ := Option.isSome_iff_exists.mp hsome
    rcases LinkTable.entity?_foldl_route he with ⟨ld', hmem', hc', hl', he'⟩ | hempty
    · rw [List.mem_filter] at hmem'
      have ha' : ld'.actorId = key := by simpa using hmem'.2
      have hsame : ld' = ld :=
        hk.unique hmem'.1 hmem (by simp [LinkDefinition.triple, ha, hc, hl, ha', hc', hl'])
      rw [Host.getActorLinks, he, ← he', hsame]
    · simp at hempty

end Sha256

/-! ## Frames: what each section leaves alone -/

section Frames

variable (host : Host) (actorId : String) (f : LinkTable → LinkTable)

@[simp] theorem onGroupLinks_links : (host.onGroupLinks actorId f).links = host.links := rfl

@[simp] theorem onGroupLinks_actors : (host.onGroupLinks actorId f).actors = host.actors := rfl

@[simp] theorem onGroupLinks_published :
    (host.onGroupLinks actorId f).published = host.published := rfl

end Frames

@[simp] theorem publishLinkdef_links (host : Host) (m : LinkdefMessage)
    (o : PublishOutcome) : (host.publishLinkdef m o).1.links = host.links := by
  cases o <;> rfl

/-- The messages published by a call: the one given, if it was sent. -/
theorem publishLinkdef_published (host : Host) (m : LinkdefMessage) (o : PublishOutcome) :
    (host.publishLinkdef m o).1.published =
      if o = .sent then host.published ++ [m] else host.published := by
  cases o <;> rfl

/-- A publish succeeds exactly when the message was sent. -/
theorem publishLinkdef_ok_iff (host : Host) (m : LinkdefMessage) (o : PublishOutcome) :
    (host.publishLinkdef m o).2 = .ok () ↔ o = .sent := by
  cases o <;> simp [Host.publishLinkdef]

/-! ## The two calls, by what their hash finds -/

section Sha256

variable (sha256 : String → String) (host : Host) (ld : LinkDefinition) (o : PublishOutcome)

/-- `add_linkdef` with its hash in use changes nothing and succeeds. -/
theorem addLinkdef_of_some {found : LinkDefinition}
    (h : host.links.lookup (ld.hash sha256) = some found) :
    host.addLinkdef sha256 ld o = (host, .ok ()) := by
  simp [Host.addLinkdef, Host.addLinkdefInsert, h]

/-- `add_linkdef` with its hash free stores the definition, whether or not
the message can be published. -/
theorem addLinkdef_of_none (h : host.links.lookup (ld.hash sha256) = none) :
    (host.addLinkdef sha256 ld o).1.links = host.links.insert (ld.hash sha256) ld ∧
      (host.addLinkdef sha256 ld o).1.published =
        (if o = .sent then host.published ++ [⟨.put, ld⟩] else host.published) ∧
      ((host.addLinkdef sha256 ld o).2 = .ok () ↔ o = .sent) := by
  simp [Host.addLinkdef, Host.addLinkdefInsert, h, publishLinkdef_published,
    publishLinkdef_ok_iff]

/-- `delete_linkdef` with its hash free fails and changes nothing. -/
theorem deleteLinkdef_of_none (h : host.links.lookup (ld.hash sha256) = none) :
    host.deleteLinkdef sha256 ld o =
      (host, .error "attempt to remove a non-exitent link") := by
  simp [Host.deleteLinkdef, Host.deleteLinkdefRemove, h]

/-- `delete_linkdef` with its hash in use takes that definition out, whether
or not its deletion can be published. -/
theorem deleteLinkdef_of_some {found : LinkDefinition}
    (h : host.links.lookup (ld.hash sha256) = some found) :
    (host.deleteLinkdef sha256 ld o).1.links = host.links.erase (ld.hash sha256) ∧
      (host.deleteLinkdef sha256 ld o).1.published =
        (if o = .sent then host.published ++ [⟨.del, found⟩] else host.published) ∧
      ((host.deleteLinkdef sha256 ld o).2 = .ok () ↔ o = .sent) := by
  simp [Host.deleteLinkdef, Host.deleteLinkdefRemove, h, publishLinkdef_published,
    publishLinkdef_ok_iff]

end Sha256

/-! ## Announcements -/

/-- What was announced last about a triple: a definition by a `put`, nothing
by a `del`. -/
def announced (log : List LinkdefMessage) : Triple → Option LinkDefinition :=
  log.foldl
    (fun f m => Function.update f m.definition.triple
      (match m.verb with
        | .put => some m.definition
        | .del => none))
    fun _ => none

theorem announced_snoc (log : List LinkdefMessage) (m : LinkdefMessage) :
    announced (log ++ [m]) = Function.update (announced log) m.definition.triple
      (match m.verb with
        | .put => some m.definition
        | .del => none) := by
  simp [announced]

end KasmCloud
