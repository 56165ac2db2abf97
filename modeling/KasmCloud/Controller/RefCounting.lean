/-
KasmCloud.Controller.RefCounting — the two Link tables as a reference
table.

What the host is meant to keep is a `RefTable`: for every triple (actor,
contract, link name) the names of the live Links that resolve to it. It
keeps it twice, in `Host.links` under a hash of the triple and in
`Ctx.links` under a dotted id, so the two tables represent the reference
table exactly as far as these encodings tell triples apart.

* `LinkSet` — a set of Link objects, each resolved to a fixed definition;
  Links with one triple share the definition by construction.
* `Refines` — what the tables and the published messages must be for a
  reference table.
* `refCounting_keeps` — with both encodings injective on the triples in
  use, one run of either controller function keeps the representation.
* `refCounting_iff` — over runs of any length, the tables refine the
  reference table if and only if both encodings are injective there.
-/
import KasmCloud.Controller.LinksTheorems

namespace KasmCloud

open Lib V1alpha1

/-! ## The two encodings of a triple -/

/-- The key of a triple in `Ctx.links`. -/
def dottedId (t : Triple) : String := linkId t.2.1 t.1 t.2.2

/-- What `linkdef_hash` feeds to the digest for a triple. -/
def hashInput (t : Triple) : String := t.1 ++ t.2.1 ++ t.2.2

theorem id_eq_dottedId (ld : LinkDefinition) : ld.id = dottedId ld.triple := rfl

theorem hash_eq_hashInput (sha256 : String → String) (ld : LinkDefinition) :
    ld.hash sha256 = sha256 (hashInput ld.triple) := rfl

/-! ## Links and what they refer to -/

/-- Link objects with fixed specs, each resolved to a fixed definition. -/
structure LinkSet where
  names : Set String
  spec : String → LinkSpec
  triple : String → Triple
  /-- The definition of a triple: Links that share a triple share it. -/
  definition : Triple → LinkDefinition
  definition_triple : ∀ t, (definition t).triple = t
  linkName_ne : ∀ n ∈ names, (definition (triple n)).linkName ≠ ""
  resolves : ∀ n ∈ names, ∃ cluster,
    resolveLink cluster ⟨n, spec n, none⟩ = .ok (definition (triple n))

namespace LinkSet

variable (S : LinkSet)

/-- The triples in use. -/
def triples : Set Triple := S.triple '' S.names

/-- A run over a Link of the set in which the lookups resolve the spec to the
fixed definition, and the publish and the status patch succeed. -/
def Succeeds (_ : LinkWorld) : LinkRun → Prop
  | .add n cluster publish patched =>
    n ∈ S.names ∧ resolveLink cluster ⟨n, S.spec n, none⟩ = .ok (S.definition (S.triple n)) ∧
      publish = .sent ∧ patched = true
  | .delete n publish => n ∈ S.names ∧ publish = .sent

/-- What a run means for the reference table. -/
def op : LinkRun → RefTable.Op Triple String
  | .add n _ _ _ => .acquire (S.triple n) n
  | .delete n _ => .release (S.triple n) n

/-- The live Links of every triple after the runs. -/
def table (tr : List LinkRun) : RefTable Triple String :=
  RefTable.after (tr.map S.op)

/-- Different triples of the set have different dotted ids and different hash
inputs. -/
def EncodingsApart : Prop :=
  Set.InjOn dottedId S.triples ∧ Set.InjOn hashInput S.triples

end LinkSet

/-- The tables of a host hold a reference table: one definition for each
triple in use and none beside, the names of its holders, and no published
message that says otherwise. -/
structure Refines (S : LinkSet) (w : LinkWorld) (t : RefTable Triple String) : Prop where
  definition_iff : ∀ ld, ld ∈ w.ctx.host.links.values ↔ ∃ k, t k ≠ ∅ ∧ S.definition k = ld
  nodup : w.ctx.host.links.values.Nodup
  entry : ∀ k, t k ≠ ∅ → w.ctx.links.lookup (dottedId k) = some (S.definition k, t k)
  covered : ∀ id ld names, w.ctx.links.lookup id = some (ld, names) →
    ∃ k, t k ≠ ∅ ∧ dottedId k = id
  announced_eq : ∀ k, announced w.ctx.host.published k =
    if t k = ∅ then none else some (S.definition k)

/-! ## Definitions stay under their hash -/

section Sha256

variable (sha256 : String → String)

/-- In every run each definition of `Host.links` is under its own hash. -/
theorem linkMachine_keyed {spec : String → LinkSpec} {latticePrefix : String} {w : LinkWorld}
    (h : (linkMachine sha256 spec latticePrefix).Reachable w) :
    Keyed sha256 w.ctx.host.links := by
  refine h.invariant (I := fun w => Keyed sha256 w.ctx.host.links) Keyed.empty ?_
  intro w r w' hk hstep
  cases hstep
  cases r with
  | add n cluster publish patched => exact addLink_keyed sha256 hk cluster _ publish
  | delete n publish => exact deleteLink_keyed sha256 hk _ publish

end Sha256

/-! ## One run keeps the representation -/

/-- The tables of a host represent a reference table through the two
encodings, and every Link that holds a reference has its status stored. -/
structure Counted (sha256 : String → String) (S : LinkSet) (w : LinkWorld)
    (t : RefTable Triple String) : Prop where
  host : Represents (fun k => sha256 (hashInput k)) S.triples w.ctx.host.links
    (t.view fun k _ => S.definition k)
  ctx : Represents dottedId S.triples w.ctx.links (t.view fun k names => (S.definition k, names))
  log : announced w.ctx.host.published = t.view fun k _ => S.definition k
  stored : ∀ n ∈ S.names, w.stored.lookup n = some (S.definition (S.triple n)).status ∨
    w.stored.lookup n = none ∧ n ∉ t (S.triple n)
  used : ∀ k, t k ≠ ∅ → k ∈ S.triples

section Sha256

variable {sha256 : String → String} {S : LinkSet} {w : LinkWorld} {t : RefTable Triple String}

theorem LinkSet.mem_triples {n : String} (h : n ∈ S.names) : S.triple n ∈ S.triples :=
  ⟨n, h, rfl⟩

/-- The view of the host's table does not show the holders, so another
reference to a triple in use does not change it. -/
theorem view_acquire_used {k : Triple} (hk : t k ≠ ∅) (n : String) :
    (t.acquire k n).view (fun k _ => S.definition k) = t.view fun k _ => S.definition k := by
  rw [RefTable.view_acquire]
  exact Function.update_eq_self_iff.mpr (by simp [RefTable.view, hk])

theorem view_release_shared {k : Triple} {n : String} (hne : (t k).erase n ≠ ∅) :
    (t.release k n).view (fun k _ => S.definition k) = t.view fun k _ => S.definition k := by
  rw [RefTable.view_release_of_ne hne]
  have hk : t k ≠ ∅ := fun h => hne (by simp [h])
  exact Function.update_eq_self_iff.mpr (by simp [RefTable.view, hk])

theorem used_acquire (h : ∀ k, t k ≠ ∅ → k ∈ S.triples) {k : Triple} (hk : k ∈ S.triples)
    (n : String) : ∀ k', t.acquire k n k' ≠ ∅ → k' ∈ S.triples := by
  intro k' hk'
  by_cases heq : k' = k
  · exact heq ▸ hk
  · exact h k' (by rwa [RefTable.acquire_ne heq] at hk')

theorem used_release (h : ∀ k, t k ≠ ∅ → k ∈ S.triples) (k : Triple) (n : String) :
    ∀ k', t.release k n k' ≠ ∅ → k' ∈ S.triples := by
  intro k' hk'
  refine h k' fun hempty => hk' ?_
  by_cases heq : k' = k
  · subst heq; simp [hempty]
  · rw [RefTable.release_ne heq, hempty]

/-- Whatever the stored status is, an `add_link` run resolves the Link to its
fixed definition. -/
theorem Counted.resolveLink (h : Counted sha256 S w t) {n : String} (hn : n ∈ S.names)
    {cluster : Cluster}
    (hres : resolveLink cluster ⟨n, S.spec n, none⟩ = .ok (S.definition (S.triple n))) :
    resolveLink cluster (w.link S.spec n) = .ok (S.definition (S.triple n)) := by
  rcases h.stored n hn with hst | ⟨hst, _⟩
  · rw [LinkWorld.link, hst]
    exact resolveLink_again cluster hres (S.linkName_ne n hn)
  · rw [LinkWorld.link, hst]
    exact hres

theorem LinkSet.hash_definition (k : Triple) :
    (S.definition k).hash sha256 = sha256 (hashInput k) := by
  rw [hash_eq_hashInput, S.definition_triple]

theorem LinkSet.EncodingsApart.hash_injOn (hapart : S.EncodingsApart)
    (hsha : Function.Injective sha256) : Set.InjOn (fun k => sha256 (hashInput k)) S.triples :=
  fun _ hk _ hk' heq => hapart.2 hk hk' (hsha heq)

/-- Installing a Link's definition takes a reference to its triple. -/
theorem Counted.installLink (h : Counted sha256 S w t) (hsha : Function.Injective sha256)
    (hapart : S.EncodingsApart) {n : String} (hn : n ∈ S.names) :
    ∃ ctx, w.ctx.installLink sha256 n (S.definition (S.triple n)) .sent = (ctx, true) ∧
      Represents (fun k => sha256 (hashInput k)) S.triples ctx.host.links
        ((t.acquire (S.triple n) n).view fun k _ => S.definition k) ∧
      Represents dottedId S.triples ctx.links
        ((t.acquire (S.triple n) n).view fun k names => (S.definition k, names)) ∧
      announced ctx.host.published =
        (t.acquire (S.triple n) n).view fun k _ => S.definition k := by
  have hk := S.mem_triples hn
  have hid : (S.definition (S.triple n)).id = dottedId (S.triple n) := by
    rw [id_eq_dottedId, S.definition_triple]
  have hhash : (S.definition (S.triple n)).hash sha256 = _ := S.hash_definition (S.triple n)
  have hinj := hapart.hash_injOn hsha
  have hctx := h.ctx.lookup _ hk
  have hhost := h.host.lookup _ hk
  rw [← hid] at hctx
  rw [← hhash] at hhost
  by_cases hempty : t (S.triple n) = ∅
  · -- first reference: both tables and the log gain the definition
    simp only [RefTable.view, hempty, if_true] at hctx hhost
    obtain ⟨h1, h2, h3⟩ := installLink_fresh sha256 hctx hhost n .sent
    obtain ⟨h4, h5, -⟩ := addLinkdef_of_none sha256 w.ctx.host _ .sent hhost
    refine ⟨(w.ctx.installLink sha256 n (S.definition (S.triple n)) .sent).1,
      Prod.ext rfl (h3.mpr rfl), ?_, ?_, ?_⟩
    · rw [h1, h4, RefTable.view_acquire, hhash]
      exact h.host.insert hinj hk _
    · rw [h2, if_pos rfl, RefTable.view_acquire, hid, hempty]
      exact h.ctx.insert hapart.1 hk _
    · rw [h1, h5, if_pos rfl, announced_snoc, h.log, RefTable.view_acquire]
      simp [S.definition_triple]
  · -- the entry is joined
    simp only [RefTable.view, hempty, if_false] at hctx
    refine ⟨_, installLink_occupied sha256 hctx n .sent, ?_, ?_, ?_⟩
    · rw [view_acquire_used hempty]
      exact h.host
    · rw [RefTable.view_acquire, hid]
      exact h.ctx.insert hapart.1 hk _
    · rw [view_acquire_used hempty]
      exact h.log

/-- Releasing the id of a triple drops the Link's reference to it. -/
theorem Counted.releaseLink (h : Counted sha256 S w t) (hsha : Function.Injective sha256)
    (hapart : S.EncodingsApart) {n : String} (hn : n ∈ S.names) :
    Represents (fun k => sha256 (hashInput k)) S.triples
        (w.ctx.releaseLink sha256 n (dottedId (S.triple n)) .sent).2.host.links
        ((t.release (S.triple n) n).view fun k _ => S.definition k) ∧
      Represents dottedId S.triples
        (w.ctx.releaseLink sha256 n (dottedId (S.triple n)) .sent).2.links
        ((t.release (S.triple n) n).view fun k names => (S.definition k, names)) ∧
      announced (w.ctx.releaseLink sha256 n (dottedId (S.triple n)) .sent).2.host.published =
        (t.release (S.triple n) n).view fun k _ => S.definition k := by
  have hk := S.mem_triples hn
  have hhash : (S.definition (S.triple n)).hash sha256 = _ := S.hash_definition (S.triple n)
  have hinj := hapart.hash_injOn hsha
  have hctx := h.ctx.lookup _ hk
  have hhost := h.host.lookup _ hk
  rw [← hhash] at hhost
  by_cases hempty : t (S.triple n) = ∅
  · -- nothing to release
    have hsame : t.release (S.triple n) n = t :=
      Function.update_eq_self_iff.mpr (by simp [hempty])
    simp only [RefTable.view, hempty, if_true] at hctx
    rw [releaseLink_vacant sha256 hctx, hsame]
    exact ⟨h.host, h.ctx, h.log⟩
  · simp only [RefTable.view, hempty, if_false] at hctx hhost
    by_cases hlast : (t (S.triple n)).erase n = ∅
    · -- last reference: both tables and the log lose the definition
      obtain ⟨h1, h2, -⟩ := releaseLink_last sha256 hctx hlast hhost .sent
      obtain ⟨h3, h4, -⟩ := deleteLinkdef_of_some sha256 w.ctx.host _ .sent hhost
      refine ⟨?_, ?_, ?_⟩
      · rw [h1, h3, RefTable.view_release_of_eq hlast, hhash]
        exact h.host.erase hinj hk
      · rw [h2, if_pos rfl, RefTable.view_release_of_eq hlast]
        exact h.ctx.erase hapart.1 hk
      · rw [h1, h4, if_pos rfl, announced_snoc, h.log, RefTable.view_release_of_eq hlast]
        simp [S.definition_triple]
    · rw [releaseLink_shared sha256 hctx hlast, view_release_shared hlast]
      refine ⟨h.host, ?_, h.log⟩
      rw [RefTable.view_release_of_ne hlast]
      exact h.ctx.insert hapart.1 hk _

/-- One run, of either function, keeps the representation. -/
theorem refCounting_keeps (hsha : Function.Injective sha256) (hapart : S.EncodingsApart)
    (h : Counted sha256 S w t) {r : LinkRun} (hr : S.Succeeds w r) :
    Counted sha256 S (w.run sha256 S.spec r) (t.apply (S.op r)) := by
  cases r with
  | add n cluster publish patched =>
    obtain ⟨hn, hres, rfl, rfl⟩ := hr
    have hlink := h.resolveLink hn hres
    obtain ⟨ctx, hinst, hhost, hctx, hlog⟩ := h.installLink hsha hapart hn
    have hname : (w.link S.spec n).name = n := rfl
    have hstatus : (w.link S.spec n).status = w.stored.lookup n := rfl
    simp only [LinkWorld.run, addLink, hlink, hname, hinst, hstatus]
    have hused := used_acquire h.used (S.mem_triples hn) n
    have hothers : ∀ m ∈ S.names, m ≠ n →
        w.stored.lookup m = some (S.definition (S.triple m)).status ∨
          w.stored.lookup m = none ∧ m ∉ t.acquire (S.triple n) n (S.triple m) := by
      intro m hm hmn
      refine (h.stored m hm).imp id (And.imp_right fun hnot hmem => hnot ?_)
      by_cases htriple : S.triple m = S.triple n
      · rw [htriple, RefTable.acquire_same] at hmem
        exact htriple ▸ Finset.mem_of_mem_insert_of_ne hmem hmn
      · rwa [RefTable.acquire_ne htriple] at hmem
    split
    · -- the status is stored already
      rename_i hsame
      refine ⟨hhost, hctx, hlog, fun m hm => ?_, hused⟩
      by_cases hmn : m = n
      · exact .inl (hmn ▸ hsame)
      · exact hothers m hm hmn
    · refine ⟨hhost, hctx, hlog, fun m hm => ?_, hused⟩
      simp only [if_true, HashMap.lookup_insert_if]
      by_cases hmn : m = n
      · exact .inl (by simp [hmn])
      · rw [if_neg hmn]
        exact hothers m hm hmn
  | delete n publish =>
    obtain ⟨hn, rfl⟩ := hr
    have hstored : ∀ m ∈ S.names,
        w.stored.lookup m = some (S.definition (S.triple m)).status ∨
          w.stored.lookup m = none ∧ m ∉ t.release (S.triple n) n (S.triple m) := by
      intro m hm
      refine (h.stored m hm).imp id (And.imp_right fun hnot hmem => hnot ?_)
      by_cases htriple : S.triple m = S.triple n
      · rw [htriple, RefTable.release_same] at hmem
        exact htriple ▸ Finset.mem_of_mem_erase hmem
      · rwa [RefTable.release_ne htriple] at hmem
    have hused := used_release h.used (S.triple n) n
    rcases h.stored n hn with hst | ⟨hst, hnot⟩
    · obtain ⟨cluster, hres⟩ := S.resolves n hn
      obtain ⟨-, -, ha, hp⟩ := resolveLink_ok hres
      have hcomplete : (S.definition (S.triple n)).status.complete = true := by
        simp [ha, hp, S.linkName_ne n hn]
      have hid : statusId (S.spec n) (S.definition (S.triple n)).status =
          dottedId (S.triple n) := by
        rw [statusId_status hres, id_eq_dottedId, S.definition_triple]
      obtain ⟨hhost, hctx, hlog⟩ := h.releaseLink hsha hapart hn
      have hdel := deleteLink_link sha256 S.spec hst hcomplete .sent
      rw [hid] at hdel
      simp only [LinkWorld.run, hdel]
      exact ⟨hhost, hctx, hlog, hstored, hused⟩
    · have hsame : t.release (S.triple n) n = t :=
        Function.update_eq_self_iff.mpr (Finset.erase_eq_of_notMem hnot)
      have hstatus : (w.link S.spec n).status = none := hst
      have hnone : ∀ status, (w.link S.spec n).status = some status →
          status.complete = false := by simp [hstatus]
      have hdel := deleteLink_of_incomplete sha256 w.ctx hnone .sent
      simp only [LinkWorld.run, hdel]
      refine ⟨?_, ?_, ?_, hstored, hused⟩ <;> simp only [LinkSet.op, RefTable.apply, hsame]
      · exact h.host
      · exact h.ctx
      · exact h.log

theorem Counted.new (latticePrefix : String) :
    Counted sha256 S (.new latticePrefix) fun _ => ∅ where
  host := .empty
  ctx := .empty
  log := by funext k; simp [announced, RefTable.view, LinkWorld.new, Ctx.new, Host.new]
  stored := by simp [LinkWorld.new]
  used := by simp

/-- Every run over a set whose encodings are apart is counted. -/
theorem counted_of_run (hsha : Function.Injective sha256) (hapart : S.EncodingsApart)
    {latticePrefix : String} {tr : List LinkRun}
    (h : (linkMachine sha256 S.spec latticePrefix).RunWhen S.Succeeds tr w) :
    Counted sha256 S w (S.table tr) := by
  refine h.induction (I := fun tr w => Counted sha256 S w (S.table tr)) (Counted.new _) ?_
  intro tr w r w' _ hI hr hstep
  cases hstep
  rw [LinkSet.table, List.map_append, List.map_singleton, RefTable.after_snoc]
  exact refCounting_keeps hsha hapart hI hr

/-- What is counted refines the reference table. -/
theorem Counted.refines (h : Counted sha256 S w t) (hk : Keyed sha256 w.ctx.host.links) :
    Refines S w t where
  definition_iff := by
    intro ld
    rw [h.host.mem_values_iff]
    constructor
    · rintro ⟨k, -, hview⟩
      exact ⟨k, RefTable.view_eq_some.mp hview⟩
    · rintro ⟨k, hne, hdef⟩
      exact ⟨k, h.used k hne, RefTable.view_eq_some.mpr ⟨hne, hdef⟩⟩
  nodup := hk.values_nodup
  entry := by
    intro k hne
    rw [h.ctx.lookup k (h.used k hne)]
    exact RefTable.view_eq_some.mpr ⟨hne, rfl⟩
  covered := by
    intro id ld names hid
    obtain ⟨k, hkin, rfl⟩ := h.ctx.covered id _ hid
    rw [h.ctx.lookup k hkin] at hid
    exact ⟨k, (RefTable.view_eq_some.mp hid).1, rfl⟩
  announced_eq := by
    intro k
    rw [h.log]
    rfl

/-- Two Links of different triples, added one after the other. -/
theorem refines_two_apart {latticePrefix : String} {n m : String} (hn : n ∈ S.names)
    (hm : m ∈ S.names) (hne : S.triple n ≠ S.triple m)
    (hall : ∀ tr w, (linkMachine sha256 S.spec latticePrefix).RunWhen S.Succeeds tr w →
      Refines S w (S.table tr)) :
    dottedId (S.triple n) ≠ dottedId (S.triple m) ∧
      hashInput (S.triple n) ≠ hashInput (S.triple m) := by
  obtain ⟨cn, hcn⟩ := S.resolves n hn
  obtain ⟨cm, hcm⟩ := S.resolves m hm
  have hrun : (linkMachine sha256 S.spec latticePrefix).RunWhen S.Succeeds
      (([] ++ [.add n cn .sent true]) ++ [.add m cm .sent true]) _ :=
    .snoc (.snoc .nil ⟨hn, hcn, rfl, rfl⟩ rfl) ⟨hm, hcm, rfl, rfl⟩ rfl
  have href := hall _ _ hrun
  have hkeyed := linkMachine_keyed sha256 hrun.reachable
  generalize LinkWorld.run _ _ _ _ = w at href hkeyed
  have htn : S.table (([] ++ [.add n cn .sent true]) ++ [.add m cm .sent true]) (S.triple n) ≠ ∅ := by
    simp [LinkSet.table, LinkSet.op, RefTable.after, RefTable.apply, RefTable.acquire_ne hne]
  have htm : S.table (([] ++ [.add n cn .sent true]) ++ [.add m cm .sent true]) (S.triple m) ≠ ∅ := by
    simp [LinkSet.table, LinkSet.op, RefTable.after, RefTable.apply]
  have hdef : S.definition (S.triple n) ≠ S.definition (S.triple m) := by
    intro heq
    apply hne
    rw [← S.definition_triple (S.triple n), heq, S.definition_triple]
  constructor
  · intro heq
    have h1 := href.entry _ htn
    rw [heq, href.entry _ htm] at h1
    exact hdef (congrArg Prod.fst (Option.some.inj h1)).symm
  · intro heq
    have h1 := hkeyed.lookup_hash ((href.definition_iff _).mpr ⟨_, htn, rfl⟩)
    have h2 := hkeyed.lookup_hash ((href.definition_iff _).mpr ⟨_, htm, rfl⟩)
    rw [hash_eq_hashInput, S.definition_triple, heq] at h1
    rw [hash_eq_hashInput, S.definition_triple, h1] at h2
    exact hdef (Option.some.inj h2)

/-- **Reference counting of Links.** With a collision-free digest, the two
tables refine the reference table of the live Links after every sequence of
successful runs if and only if no two triples in use share a dotted id or a
hash input. -/
theorem refCounting_iff (sha256 : String → String) (hsha : Function.Injective sha256)
    (S : LinkSet) (latticePrefix : String) :
    (∀ tr w, (linkMachine sha256 S.spec latticePrefix).RunWhen S.Succeeds tr w →
      Refines S w (S.table tr)) ↔ S.EncodingsApart := by
  constructor
  · intro hall
    constructor <;> rintro _ ⟨n, hn, rfl⟩ _ ⟨m, hm, rfl⟩ heq
    · by_contra hne
      exact (refines_two_apart hn hm hne hall).1 heq
    · by_contra hne
      exact (refines_two_apart hn hm hne hall).2 heq
  · intro hapart tr w hrun
    exact (counted_of_run hsha hapart hrun).refines (linkMachine_keyed sha256 hrun.reachable)

end Sha256

/-! ## Links given by keys -/

/-- Links that name actor `M` and provider `V` by key, so that no lookup is
made: what differs is the contract and the link name. -/
def keyLinks (names : Set String) (contractId linkName : String → String)
    (hlink : ∀ n ∈ names, linkName n ≠ "") : LinkSet where
  names := names
  spec n := ⟨linkName n, ⟨"V", ""⟩, ⟨"M", ""⟩, contractId n, ∅⟩
  triple n := ("M", contractId n, linkName n)
  definition t := ⟨t.1, "V", t.2.2, t.2.1, ∅⟩
  definition_triple _ := rfl
  linkName_ne := hlink
  resolves := by
    intro n hn
    refine ⟨⟨fun _ => none, fun _ => none⟩, ?_⟩
    simp [resolveLink, initialDefinition, resolveActor, resolveProvider, hlink n hn, bind,
      Except.bind]

/-- Contract `a` with link name `bc`, and contract `ab` with link name `c`. -/
def collidingLinks : LinkSet :=
  keyLinks {"l1", "l2"} (fun n => if n = "l1" then "a" else "ab")
    (fun n => if n = "l1" then "bc" else "c") (by intro n _; split <;> decide)

/-- Add both, then delete the second. -/
def collidingRuns : List LinkRun :=
  [.add "l1" ⟨fun _ => none, fun _ => none⟩ .sent true,
    .add "l2" ⟨fun _ => none, fun _ => none⟩ .sent true, .delete "l2" .sent]

/-- The tables after these runs. -/
def collidingEnd : LinkWorld :=
  collidingRuns.foldl (fun w r => w.run id collidingLinks.spec r) (.new "default")

/-- The second Link's deletion takes the first one's definition away: the
digest is not even consulted, since both hash inputs are `Mabc`. -/
theorem collidingRuns_not_refined :
    (linkMachine id collidingLinks.spec "default").RunWhen collidingLinks.Succeeds collidingRuns
        collidingEnd ∧
      ¬ Refines collidingLinks collidingEnd (collidingLinks.table collidingRuns) := by
  constructor
  · have h1 : "l1" ∈ collidingLinks.names := by simp [collidingLinks, keyLinks]
    have h2 : "l2" ∈ collidingLinks.names := by simp [collidingLinks, keyLinks]
    exact .snoc (.snoc (.snoc .nil ⟨h1, rfl, rfl, rfl⟩ rfl) ⟨h2, rfl, rfl, rfl⟩ rfl) ⟨h2, rfl⟩ rfl
  · intro href
    have hused : collidingLinks.table collidingRuns ("M", "a", "bc") ≠ ∅ := by decide
    have hmem := (href.definition_iff _).mpr ⟨_, hused, rfl⟩
    have hnone : collidingEnd.ctx.host.links.values = [] := by decide
    rw [hnone] at hmem
    cases hmem

/-- Two contracts of one actor under the same link name. -/
def sampleLinks : LinkSet :=
  keyLinks {"httpserver-echo", "keyvalue-echo"}
    (fun n => if n = "httpserver-echo" then "wasmcloud:httpserver" else "wasmcloud:keyvalue")
    (fun _ => "test") (by simp)

theorem sampleLinks_apart : sampleLinks.EncodingsApart := by
  constructor <;> rintro _ ⟨n, hn, rfl⟩ _ ⟨m, hm, rfl⟩ heq <;>
    rcases hn with rfl | rfl <;> rcases hm with rfl | rfl <;>
    first
    | rfl
    | exact absurd heq (by decide)

theorem refCounting_sampleLinks : sampleLinks.EncodingsApart ∧
    ∀ tr w, (linkMachine id sampleLinks.spec "default").RunWhen sampleLinks.Succeeds tr w →
      Refines sampleLinks w (sampleLinks.table tr) :=
  ⟨sampleLinks_apart,
    (refCounting_iff id Function.injective_id sampleLinks "default").mpr sampleLinks_apart⟩

end KasmCloud
