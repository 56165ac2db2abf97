/-
KasmCloud.Controller.References — which Links a host keeps a reference of,
and which definitions it keeps for them.

`Ctx.NamedAt` is a name in the reference set of an id. `Ctx.FreeOf` says that
nothing is left of a Link, and `Ctx.Backed` that no definition is kept
without a name; with it only the names matter (`Ctx.Backed.freeOf`). The
lemmas say what each controller function does to either.
-/
import KasmCloud.Controller.LinksTheorems

namespace KasmCloud

open Lib V1alpha1

/-- A name is in the reference set of an id. -/
def Ctx.NamedAt (ctx : Ctx) (name id : String) : Prop :=
  ∃ found names, ctx.links.lookup id = some (found, names) ∧ name ∈ names

/-- A name is in some reference set. -/
def Ctx.Names (ctx : Ctx) (name : String) : Prop :=
  ∃ id found names, ctx.links.lookup id = some (found, names) ∧ name ∈ names

section Sha256

variable (sha256 : String → String)

/-- A name is counted for the definition under a key of `Host.links`. -/
def Ctx.RefersTo (ctx : Ctx) (name key : String) : Prop :=
  ∃ id found names, ctx.links.lookup id = some (found, names) ∧ name ∈ names ∧
    found.hash sha256 = key

/-- Nothing is left of a Link: its name is in no reference set, and no
definition is kept that no other Link refers to. -/
structure Ctx.FreeOf (ctx : Ctx) (name : String) : Prop where
  names : ¬ ctx.Names name
  definitions : ∀ key ld, ctx.host.links.lookup key = some ld →
    ∃ other, other ≠ name ∧ ctx.RefersTo sha256 other key

/-- Every definition the host has is referred to by a name. -/
def Ctx.Backed (ctx : Ctx) : Prop :=
  ∀ key ld, ctx.host.links.lookup key = some ld → ∃ name, ctx.RefersTo sha256 name key

variable {sha256} {ctx : Ctx}

theorem Ctx.Backed.freeOf (h : ctx.Backed sha256) {name : String} (hnames : ¬ ctx.Names name) :
    ctx.FreeOf sha256 name := by
  refine ⟨hnames, fun key ld hkey => ?_⟩
  obtain ⟨other, id, found, names, hentry, hin, hhash⟩ := h key ld hkey
  refine ⟨other, ?_, id, found, names, hentry, hin, hhash⟩
  rintro rfl
  exact hnames ⟨id, found, names, hentry, hin⟩

/-- Nothing an entry refers to is lost when the entry gets another name. -/
theorem Ctx.RefersTo.join {name key id : String} (h : ctx.RefersTo sha256 name key)
    {found : LinkDefinition} {names : Finset String}
    (hentry : ctx.links.lookup id = some (found, names)) (other : String) :
    Ctx.RefersTo sha256 { ctx with links := ctx.links.insert id (found, insert other names) }
      name key := by
  obtain ⟨id', found', names', hentry', hin, hhash⟩ := h
  by_cases heq : id' = id
  · subst heq
    cases hentry.symm.trans hentry'
    exact ⟨id', found, _, AList.lookup_insert _, Finset.mem_insert_of_mem hin, hhash⟩
  · refine ⟨id', found', names', ?_, hin, hhash⟩
    rw [HashMap.lookup_insert_if, if_neg heq]
    exact hentry'

/-- Nor when an entry is made where there is none. -/
theorem Ctx.RefersTo.enter {ctx' : Ctx} {name key id : String} (h : ctx.RefersTo sha256 name key)
    (hvacant : ctx.links.lookup id = none) {entry : LinkDefinition × Finset String}
    (hlinks : ctx'.links = ctx.links.insert id entry) : ctx'.RefersTo sha256 name key := by
  obtain ⟨id', found', names', hentry', hin, hhash⟩ := h
  refine ⟨id', found', names', ?_, hin, hhash⟩
  rw [hlinks, HashMap.lookup_insert_if, if_neg]
  · exact hentry'
  · rintro rfl
    rw [hvacant] at hentry'
    cases hentry'

theorem installLink_backed (h : ctx.Backed sha256) (name : String) {ld : LinkDefinition}
    {publish : PublishOutcome}
    (hsent : ctx.links.lookup ld.id = none → ctx.host.links.lookup (ld.hash sha256) = none →
      publish = .sent) :
    (ctx.installLink sha256 name ld publish).1.Backed sha256 := by
  cases hentry : ctx.links.lookup ld.id with
  | some entry =>
    obtain ⟨found, names⟩ := entry
    rw [installLink_occupied sha256 hentry]
    intro key ld' hkey
    obtain ⟨other, hother⟩ := h key ld' hkey
    exact ⟨other, hother.join hentry name⟩
  | none =>
    cases hhash : ctx.host.links.lookup (ld.hash sha256) with
    | some found =>
      rw [installLink_skip sha256 hentry hhash]
      intro key ld' hkey
      obtain ⟨other, hother⟩ := h key ld' hkey
      exact ⟨other, hother.enter hentry rfl⟩
    | none =>
      obtain ⟨hhost, hlinks, -⟩ := installLink_fresh sha256 hentry hhash name publish
      rw [if_pos (hsent hentry hhash)] at hlinks
      intro key ld' hkey
      rw [hhost, (addLinkdef_of_none sha256 _ _ _ hhash).1, HashMap.lookup_insert_if] at hkey
      split at hkey
      · rename_i heq
        refine ⟨name, ld.id, ld, {name}, ?_, Finset.mem_singleton_self name, heq.symm⟩
        rw [hlinks]
        exact AList.lookup_insert _
      · obtain ⟨other, hother⟩ := h key ld' hkey
        exact ⟨other, hother.enter hentry hlinks⟩

theorem addLink_backed (h : ctx.Backed sha256) {cluster : Cluster} {link : Link}
    {publish : PublishOutcome}
    (hsent : ∀ ld, resolveLink cluster link = .ok ld → ctx.links.lookup ld.id = none →
      ctx.host.links.lookup (ld.hash sha256) = none → publish = .sent) :
    (addLink sha256 ctx cluster link publish).ctx.Backed sha256 := by
  unfold addLink
  split
  · exact h
  · rename_i ld hresolve
    have hinstall := installLink_backed h link.name (hsent ld hresolve)
    split
    · rename_i hresult
      rw [hresult] at hinstall
      exact hinstall
    · rename_i hresult
      rw [hresult] at hinstall
      split <;> exact hinstall

/-- Only the definition of the entry that is released goes, and it goes with
the entry's last name. -/
theorem releaseLink_backed (h : ctx.Backed sha256) (name id : String) (publish : PublishOutcome) :
    (ctx.releaseLink sha256 name id publish).2.Backed sha256 := by
  cases hentry : ctx.links.lookup id with
  | none =>
    rw [releaseLink_vacant sha256 hentry]
    exact h
  | some entry =>
    obtain ⟨ld, names⟩ := entry
    by_cases hlast : names.erase name = ∅
    · have hkept {ctx' : Ctx} (hhost : ∀ key ld', ctx'.host.links.lookup key = some ld' →
            key ≠ ld.hash sha256 ∧ ctx.host.links.lookup key = some ld')
          (hlinks : ∀ id', id' ≠ id → ctx'.links.lookup id' = ctx.links.lookup id') :
          ctx'.Backed sha256 := by
        intro key ld' hkey
        obtain ⟨hne, hold⟩ := hhost key ld' hkey
        obtain ⟨other, id', found, names', hentry', hin, hhash⟩ := h key ld' hold
        refine ⟨other, id', found, names', ?_, hin, hhash⟩
        rw [hlinks id']
        · exact hentry'
        · rintro rfl
          cases hentry.symm.trans hentry'
          exact hne hhash.symm
      cases hhash : ctx.host.links.lookup (ld.hash sha256) with
      | none =>
        rw [releaseLink_missing sha256 hentry hlast hhash]
        refine hkept (fun key ld' hkey => ⟨?_, hkey⟩) fun id' hne => ?_
        · rintro rfl
          rw [hhash] at hkey
          cases hkey
        · exact AList.lookup_insert_ne hne
      | some found =>
        obtain ⟨hhost, hlinks, -⟩ := releaseLink_last sha256 hentry hlast hhash publish
        refine hkept (fun key ld' hkey => ?_) fun id' hne => ?_
        · rw [hhost, (deleteLinkdef_of_some sha256 _ _ _ hhash).1, HashMap.lookup_erase_if] at hkey
          split at hkey
          · cases hkey
          · rename_i hne
            exact ⟨hne, hkey⟩
        · rw [hlinks]
          split
          · exact AList.lookup_erase_ne hne
          · exact AList.lookup_insert_ne hne
    · rw [releaseLink_shared sha256 hentry hlast]
      intro key ld' hkey
      obtain ⟨other, id', found, names', hentry', hin, hhash⟩ := h key ld' hkey
      by_cases heq : id' = id
      · subst heq
        cases hentry.symm.trans hentry'
        obtain ⟨left, hleft⟩ := Finset.nonempty_iff_ne_empty.mpr hlast
        exact ⟨left, id', ld, _, AList.lookup_insert _, hleft, hhash⟩
      · refine ⟨other, id', found, names', ?_, hin, hhash⟩
        exact (AList.lookup_insert_ne heq).trans hentry'

theorem deleteLink_backed (h : ctx.Backed sha256) (link : Link) (publish : PublishOutcome) :
    (deleteLink sha256 ctx link publish).2.Backed sha256 := by
  unfold deleteLink
  split
  · split
    · exact releaseLink_backed h _ _ publish
    · exact h
  · exact h

/-- `add_link` enters no name but its own. -/
theorem addLink_names {cluster : Cluster} {link : Link} {publish : PublishOutcome} {name : String}
    (h : (addLink sha256 ctx cluster link publish).ctx.Names name) :
    ctx.Names name ∨ name = link.name := by
  unfold addLink at h
  split at h
  · exact .inl h
  · rename_i ld _
    have hinstall : (ctx.installLink sha256 link.name ld publish).1.Names name := by
      split at h
      · rename_i hresult
        rw [hresult]
        exact h
      · rename_i hresult
        rw [hresult]
        split at h <;> exact h
    obtain ⟨id, found, names, hentry, hin⟩ := hinstall
    rcases installLink_names hentry hin with ⟨found', names', hold, hin'⟩ | ⟨hname, -⟩
    · exact .inl ⟨id, found', names', hold, hin'⟩
    · exact .inr hname

theorem deleteLink_names {link : Link} {publish : PublishOutcome} {name : String}
    (h : (deleteLink sha256 ctx link publish).2.Names name) : ctx.Names name := by
  unfold deleteLink at h
  split at h
  · split at h
    · obtain ⟨id, found, names, hentry, hin⟩ := h
      obtain ⟨found', names', hold, hin'⟩ := releaseLink_names hentry hin
      exact ⟨id, found', names', hold, hin'⟩
    · exact h
  · exact h

/-! ## Names -/

/-- An installation enters one name at one id. -/
theorem installLink_namedAt_iff {name : String} {ld : LinkDefinition} {publish : PublishOutcome}
    {n id : String} :
    (ctx.installLink sha256 name ld publish).1.NamedAt n id ↔
      ctx.NamedAt n id ∨
        n = name ∧ id = ld.id ∧ (ctx.installLink sha256 name ld publish).2 = true := by
  constructor
  · rintro ⟨found, names, hentry, hin⟩
    exact installLink_names hentry hin
  · cases hentry : ctx.links.lookup ld.id with
    | some entry =>
      obtain ⟨found, names⟩ := entry
      rw [installLink_occupied sha256 hentry]
      rintro (⟨found', names', hentry', hin⟩ | ⟨rfl, rfl, -⟩)
      · by_cases hid : id = ld.id
        · subst hid
          cases hentry.symm.trans hentry'
          exact ⟨found, _, AList.lookup_insert _, Finset.mem_insert_of_mem hin⟩
        · exact ⟨found', names', (AList.lookup_insert_ne hid).trans hentry', hin⟩
      · exact ⟨found, _, AList.lookup_insert _, Finset.mem_insert_self _ _⟩
    | none =>
      have henter {ctx' : Ctx} (hlinks : ctx'.links = ctx.links.insert ld.id (ld, {name}))
          (h : ctx.NamedAt n id ∨ n = name ∧ id = ld.id) : ctx'.NamedAt n id := by
        unfold Ctx.NamedAt
        rw [hlinks]
        rcases h with ⟨found, names, hentry', hin⟩ | ⟨rfl, rfl⟩
        · refine ⟨found, names, ?_, hin⟩
          rw [HashMap.lookup_insert_if, if_neg]
          · exact hentry'
          · rintro rfl
            rw [hentry] at hentry'
            cases hentry'
        · exact ⟨ld, _, AList.lookup_insert _, Finset.mem_singleton_self _⟩
      cases hhash : ctx.host.links.lookup (ld.hash sha256) with
      | some found =>
        rw [installLink_skip sha256 hentry hhash]
        intro h
        exact henter rfl (h.imp_right fun h => ⟨h.1, h.2.1⟩)
      | none =>
        obtain ⟨-, hlinks, hok⟩ := installLink_fresh sha256 hentry hhash name publish
        rw [hok]
        intro h
        by_cases hsent : publish = .sent
        · rw [if_pos hsent] at hlinks
          exact henter hlinks (h.imp_right fun h => ⟨h.1, h.2.1⟩)
        · rw [if_neg hsent] at hlinks
          unfold Ctx.NamedAt
          rw [hlinks]
          exact h.resolve_right fun h => hsent h.2.2

/-- A release takes one name out at one id, whatever becomes of the entry. -/
theorem releaseLink_namedAt_iff {name id : String} {publish : PublishOutcome} {n id' : String} :
    (ctx.releaseLink sha256 name id publish).2.NamedAt n id' ↔
      ctx.NamedAt n id' ∧ (n ≠ name ∨ id' ≠ id) := by
  cases hentry : ctx.links.lookup id with
  | none =>
    rw [releaseLink_vacant sha256 hentry]
    refine ⟨fun h => ⟨h, .inr ?_⟩, And.left⟩
    rintro rfl
    obtain ⟨found, names, hentry', -⟩ := h
    rw [hentry] at hentry'
    cases hentry'
  | some entry =>
    obtain ⟨ld, names⟩ := entry
    -- the entry ends up with the names that are left, or goes when none is
    have hkept {ctx' : Ctx} (hother : ∀ id' ≠ id, ctx'.links.lookup id' = ctx.links.lookup id')
        (hown : ∀ m, ctx'.NamedAt m id ↔ m ∈ names.erase name) :
        ctx'.NamedAt n id' ↔ ctx.NamedAt n id' ∧ (n ≠ name ∨ id' ≠ id) := by
      by_cases hid : id' = id
      · subst hid
        rw [hown, Finset.mem_erase]
        constructor
        · rintro ⟨hne, hin⟩
          exact ⟨⟨ld, names, hentry, hin⟩, .inl hne⟩
        · rintro ⟨⟨found, names', hentry', hin⟩, hne⟩
          cases hentry.symm.trans hentry'
          exact ⟨hne.resolve_right (not_not_intro rfl), hin⟩
      · unfold Ctx.NamedAt
        rw [hother id' hid]
        exact (and_iff_left (.inr hid)).symm
    have hinserted {m : String} {left : Finset String} {ctx' : Ctx}
        (hlinks : ctx'.links = ctx.links.insert id (ld, left)) :
        ctx'.NamedAt m id ↔ m ∈ left := by
      unfold Ctx.NamedAt
      rw [hlinks, AList.lookup_insert]
      constructor
      · rintro ⟨found, names', hsame, hin⟩
        cases hsame
        exact hin
      · exact fun hin => ⟨ld, left, rfl, hin⟩
    by_cases hlast : names.erase name = ∅
    · cases hhash : ctx.host.links.lookup (ld.hash sha256) with
      | none =>
        rw [releaseLink_missing sha256 hentry hlast hhash]
        refine hkept (fun id' hne => AList.lookup_insert_ne hne) fun m => ?_
        rw [hlast]
        exact hinserted rfl
      | some found =>
        obtain ⟨-, hlinks, -⟩ := releaseLink_last sha256 hentry hlast hhash publish
        by_cases hsent : publish = .sent
        · rw [if_pos hsent] at hlinks
          refine hkept (fun id' hne => ?_) fun m => ?_
          · rw [hlinks]
            exact AList.lookup_erase_ne hne
          · rw [hlast]
            unfold Ctx.NamedAt
            rw [hlinks, AList.lookup_erase]
            simp
        · rw [if_neg hsent] at hlinks
          refine hkept (fun id' hne => ?_) fun m => ?_
          · rw [hlinks]
            exact AList.lookup_insert_ne hne
          · rw [hlast]
            exact hinserted hlinks
    · rw [releaseLink_shared sha256 hentry hlast]
      exact hkept (fun id' hne => AList.lookup_insert_ne hne) fun m => hinserted rfl

/-- A cleanup takes the Link's name out where its status says. -/
theorem deleteLink_namedAt_iff {link : Link} {publish : PublishOutcome} {n id : String} :
    (deleteLink sha256 ctx link publish).2.NamedAt n id ↔
      ctx.NamedAt n id ∧ (n ≠ link.name ∨ ¬ ∃ status, link.status = some status ∧
        status.complete = true ∧ id = statusId link.spec status) := by
  by_cases hcomplete : ∃ status, link.status = some status ∧ status.complete = true
  · obtain ⟨status, hstatus, hcomplete⟩ := hcomplete
    rw [deleteLink_of_status sha256 hstatus hcomplete, releaseLink_namedAt_iff, hstatus]
    simp [hcomplete]
  · have hincomplete : ∀ status, link.status = some status → status.complete = false :=
      fun status hstatus => Bool.eq_false_iff.mpr fun h => hcomplete ⟨status, hstatus, h⟩
    rw [deleteLink_of_incomplete sha256 ctx hincomplete]
    refine (and_iff_left (.inr ?_)).symm
    rintro ⟨status, hstatus, h, -⟩
    exact hcomplete ⟨status, hstatus, h⟩

/-- A Link that is only named where its status says is named nowhere after
its cleanup. -/
theorem deleteLink_released {link : Link} {publish : PublishOutcome}
    (h : ∀ id found names, ctx.links.lookup id = some (found, names) → link.name ∈ names →
      ∃ status, link.status = some status ∧ status.complete = true ∧
        id = statusId link.spec status) :
    ¬ (deleteLink sha256 ctx link publish).2.Names link.name := by
  rintro ⟨id, hnamed⟩
  obtain ⟨⟨found, names, hentry, hin⟩, hne⟩ := deleteLink_namedAt_iff.mp hnamed
  exact hne.resolve_left (not_not_intro rfl) (h id found names hentry hin)

end Sha256

end KasmCloud
