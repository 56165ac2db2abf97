/-
KasmCloud.Host.Failures — what a call that returns an error leaves behind.

`reconcile_actor` enters the name and the group before anything that can
fail, and of the instances it starts, those before the refused subscription
keep their call loops: `reconcileActor_failed_cases` gives the state of the
tables for every way to fail. `add_linkdef` has changed both link tables by
the time it encodes and publishes.
-/
import KasmCloud.Host.Api

namespace KasmCloud

open Lib

/-! ## reconcile_actor -/

/-- `actor_keys`, `Host.actors` and the actors of every group, with their
instances, are as before. -/
structure ActorTablesKept (host host' : Host) : Prop where
  actorKeys : host'.actorKeys = host.actorKeys
  actors : host'.actors = host.actors
  groupActors : ∀ ref, (host'.groups.get? ref).map ActorGroup.actors =
    (host.groups.get? ref).map ActorGroup.actors

/-- No call loop that was spawned between `host` and `host'` runs. -/
def NoLoopLeft (host host' : Host) : Prop :=
  ∀ id, host.nextId ≤ id → id < host'.nextId → id ∉ host'.loops

theorem ActorTablesKept.refl (host : Host) : ActorTablesKept host host :=
  ⟨rfl, rfl, fun _ => rfl⟩

/-- Loops and target tables are not among them. -/
theorem started_kept_iff (host host' : Host) (count : Nat) :
    ActorTablesKept host (host'.started count) ↔ ActorTablesKept host host' :=
  ⟨fun h => ⟨h.actorKeys, h.actors, h.groupActors⟩, fun h => ⟨h.actorKeys, h.actors, h.groupActors⟩⟩

theorem allocTargets_kept_iff (host host' : Host) :
    ActorTablesKept host host'.allocTargets ↔ ActorTablesKept host host' :=
  ⟨fun h => ⟨h.actorKeys, h.actors, h.groupActors⟩, fun h => ⟨h.actorKeys, h.actors, h.groupActors⟩⟩

theorem NoLoopLeft.refl (host : Host) : NoLoopLeft host host := by
  intro id hge hlt
  omega

/-- The sections before the filling of a group undo nothing, so they are
harmless only where both tables have their entry already. -/
theorem enter_kept_iff {host : Host} {name key : String}
    (hadmitted : ∀ k, host.actorKeys.lookup name = some k → k = key) :
    ActorTablesKept host ((host.registerActorKey name key).lookupGroup key).2 ↔
      host.actorKeys.lookup name = some key ∧ ∃ ref, host.actors.lookup key = some ref := by
  obtain ⟨-, hactors, -⟩ := registerActorKey_frame host name key
  constructor
  · intro h
    constructor
    · have hnow := registerActorKey_lookup host name key name
      have hkeys := h.actorKeys
      rw [(lookupGroup_frame _ _).1] at hkeys
      rw [hkeys, if_pos rfl] at hnow
      rw [hnow]
      cases hat : host.actorKeys.lookup name with
      | none => rfl
      | some k => exact congrArg some (hadmitted k hat)
    · cases hreg : host.actors.lookup key with
      | some ref => exact ⟨ref, rfl⟩
      | none =>
        obtain ⟨-, hmade, -⟩ := lookupGroup_made (hactors.symm ▸ hreg)
        have hat : host.actors.lookup key =
            some (host.registerActorKey name key).groups.next := by
          rw [← h.actors, hmade]
          exact AList.lookup_insert _
        rw [hreg] at hat
        cases hat
  · rintro ⟨hkey, ref, hreg⟩
    rw [registerActorKey_of_known hkey, lookupGroup_found hreg]
    exact .refl host

/-- Loops that were started stay, also when the list of their instances is
dropped. -/
theorem started_noLoopLeft_iff (host : Host) (count : Nat) :
    NoLoopLeft host (host.started count) ↔ count = 0 := by
  constructor
  · intro h
    by_contra hcount
    have hfirst : host.nextId ∈ (host.started count).loops := by
      refine Finset.mem_union_right _ (List.mem_toFinset.mpr (List.mem_range'_1.mpr ?_))
      omega
    refine h host.nextId le_rfl ?_ hfirst
    show host.nextId < host.nextId + count
    omega
  · rintro rfl
    rw [started_zero]
    exact .refl host

section FailedReconcile

variable {host : Host} {name actorRef : String} {fetched : Except String WasmActor}
  {replica : Nat} {failAt : Option Nat}

/-- A group whose filling fails has some call loops more. -/
theorem fillGroup_failed {group : Ref} {actor : WasmActor} {claims : Jwt.Claims Jwt.Actor}
    (hclaims : actor.claims = some claims) {e : String}
    (h : (host.fillGroup group name actor actorRef replica failAt).2 = .error e) :
    ∃ k, failAt = some k ∧ ∃ host₀, (host₀ = host ∨ host₀ = host.allocTargets) ∧
      (host.fillGroup group name actor actorRef replica failAt).1 = host₀.started k := by
  cases hg : host.groups.get? group with
  | none =>
    simp only [Host.fillGroup, hg] at h
    cases h
  | some g =>
    rcases fillGroup_cases hg hclaims name actorRef replica failAt with
      ⟨hr, -⟩ | ⟨-, -, hr⟩ | ⟨a, -, -, hr⟩ | ⟨a, -, -, hr⟩ | ⟨k, hfail, host₀, e', hhost₀, hr⟩
    · rw [hr] at h
      cases h
    · rw [hr] at h
      cases h
    · rw [hr] at h
      cases h
    · rw [hr] at h
      cases h
    · exact ⟨k, hfail, host₀, hhost₀, by rw [hr]⟩

/-- A reconcile that fails does so before it changes anything, or at the
subscription that is refused. -/
theorem reconcileActor_failed_cases {e : String}
    (h : (host.reconcileActor name actorRef fetched replica failAt).2 = .error e) :
    (host.reconcileActor name actorRef fetched replica failAt).1 = host ∧
        (∀ claims, ¬ host.Admits name fetched claims) ∨
      ∃ claims, host.Admits name fetched claims ∧ ∃ k, failAt = some k ∧ ∃ host₀,
        (host₀ = ((host.registerActorKey name claims.subject).lookupGroup claims.subject).2 ∨
          host₀ = ((host.registerActorKey name claims.subject).lookupGroup
            claims.subject).2.allocTargets) ∧
        (host.reconcileActor name actorRef fetched replica failAt).1 = host₀.started k := by
  rcases reconcileActor_cases host name actorRef fetched replica failAt with
    ⟨hnone, e', hrun⟩ | ⟨image, claims, rfl, hclaims, hadmitted, hrun⟩
  · rw [hrun]
    exact .inl ⟨rfl, hnone⟩
  · refine .inr ⟨claims, admits_ok_iff.mpr ⟨hclaims, hadmitted⟩, ?_⟩
    rw [hrun] at h ⊢
    exact fillGroup_failed hclaims (map_eq_error_iff.mp h)

/-- A reconcile that returns an error has changed nothing exactly if it never
came to an image with an admitted key, or came to one whose name and group
were entered already and had its first subscription refused. -/
theorem reconcileActor_error_clean_iff {e : String}
    (h : (host.reconcileActor name actorRef fetched replica failAt).2 = .error e) :
    ActorTablesKept host (host.reconcileActor name actorRef fetched replica failAt).1 ∧
        NoLoopLeft host (host.reconcileActor name actorRef fetched replica failAt).1 ↔
      ∀ claims, host.Admits name fetched claims →
        host.actorKeys.lookup name = some claims.subject ∧
          (∃ ref, host.actors.lookup claims.subject = some ref) ∧ failAt = some 0 := by
  rcases reconcileActor_failed_cases h with
    ⟨hstate, hnone⟩ | ⟨claims, hadmits, k, hfail, host₀, hhost₀, hstate⟩
  · rw [hstate]
    exact ⟨fun _ claims hadmits => absurd hadmits (hnone claims),
      fun _ => ⟨.refl host, .refl host⟩⟩
  · obtain ⟨image, himage, hclaims, hcheck⟩ := hadmits
    have hadmitted := (checkActorKey_ok_iff host name claims.subject).mp hcheck
    have hnext : host₀.nextId = host.nextId := by
      have hentered := (lookupGroup_frame (host.registerActorKey name claims.subject)
        claims.subject).2.2.2
      rw [registerActorKey_nextId] at hentered
      rcases hhost₀ with rfl | rfl <;> exact hentered
    have htables : ActorTablesKept host (host₀.started k) ↔
        ActorTablesKept host
          ((host.registerActorKey name claims.subject).lookupGroup claims.subject).2 := by
      rw [started_kept_iff]
      rcases hhost₀ with rfl | rfl
      · rfl
      · exact allocTargets_kept_iff host _
    have hloops : NoLoopLeft host (host₀.started k) ↔ k = 0 := by
      rw [← started_noLoopLeft_iff host₀ k]
      simp only [NoLoopLeft, hnext]
    rw [hstate, htables, hloops, enter_kept_iff hadmitted, hfail, Option.some.injEq, and_assoc]
    constructor
    · rintro hclean claims' ⟨image', himage', hclaims', -⟩
      cases himage.symm.trans himage'
      cases hclaims.symm.trans hclaims'
      exact hclean
    · intro hall
      exact hall claims ⟨image, himage, hclaims, hcheck⟩

end FailedReconcile

def pingImage : WasmActor := ⟨"ping", some ⟨"A", "MPING", 0, none, none, none⟩⟩

/-- One instance of `ping` runs. -/
def pingHost : Host := ((Host.new "default").reconcileActor "ping" "ping:1" (.ok pingImage) 1 none).1

/-- A second instance whose subscription is refused leaves nothing behind. -/
theorem refusedGrowth_clean :
    ActorTablesKept pingHost
        (pingHost.reconcileActor "ping" "ping:1" (.ok pingImage) 2 (some 0)).1 ∧
      NoLoopLeft pingHost (pingHost.reconcileActor "ping" "ping:1" (.ok pingImage) 2 (some 0)).1 := by
  refine (reconcileActor_error_clean_iff (e := "failed to instantiate actor") rfl).mpr ?_
  rintro claims ⟨image, himage, hclaims, -⟩
  cases himage
  cases hclaims
  exact ⟨by decide, ⟨0, by decide⟩, rfl⟩

/-- The first start of `ping`, with the second of two subscriptions refused:
the first call loop goes on without being recorded. -/
theorem refusedStart_not_clean :
    ¬ ∀ host, (apiMachine id "default").Reachable host →
      ∀ name actorRef fetched replica failAt e,
        (host.reconcileActor name actorRef fetched replica failAt).2 = .error e →
        ActorTablesKept host (host.reconcileActor name actorRef fetched replica failAt).1 ∧
          NoLoopLeft host (host.reconcileActor name actorRef fetched replica failAt).1 := by
  intro hall
  obtain ⟨-, hloops⟩ := hall (.new "default") ⟨[], .nil⟩ "ping" "ping:1" (.ok pingImage) 2 (some 1)
    "failed to start actor" rfl
  have hstarted : 0 < ((Host.new "default").reconcileActor "ping" "ping:1" (.ok pingImage) 2
      (some 1)).1.nextId := by decide
  have hleft : 0 ∈ ((Host.new "default").reconcileActor "ping" "ping:1" (.ok pingImage) 2
      (some 1)).1.loops := by decide
  exact hloops 0 le_rfl hstarted hleft

/-! ## add_linkdef -/

/-- `Host.links` and the links table of every group are as before. -/
structure LinkTablesKept (host host' : Host) : Prop where
  links : host'.links = host.links
  groupLinks : ∀ ref, (host'.groups.get? ref).map ActorGroup.links =
    (host.groups.get? ref).map ActorGroup.links

theorem LinkTablesKept.refl (host : Host) : LinkTablesKept host host :=
  ⟨rfl, fun _ => rfl⟩

section Sha256

variable (sha256 : String → String) (host : Host) (ld : LinkDefinition) (o : PublishOutcome)

/-- `add_linkdef` fails exactly if its hash is free and the message does not
go out. -/
theorem addLinkdef_fails_iff :
    (∃ e, (host.addLinkdef sha256 ld o).2 = .error e) ↔
      host.links.lookup (ld.hash sha256) = none ∧ o ≠ .sent := by
  cases hhash : host.links.lookup (ld.hash sha256) with
  | some found =>
    rw [addLinkdef_of_some sha256 host ld o hhash]
    simp
  | none =>
    obtain ⟨-, -, hok⟩ := addLinkdef_of_none sha256 host ld o hhash
    rw [ne_eq, ← hok]
    rcases (host.addLinkdef sha256 ld o).2 with e | _ <;> simp

/-- By then the definition is stored. -/
theorem addLinkdef_not_kept {e : String} (h : (host.addLinkdef sha256 ld o).2 = .error e) :
    ¬ LinkTablesKept host (host.addLinkdef sha256 ld o).1 := by
  obtain ⟨hhash, -⟩ := (addLinkdef_fails_iff sha256 host ld o).mp ⟨e, h⟩
  intro hkept
  have hlinks := hkept.links
  rw [(addLinkdef_of_none sha256 host ld o hhash).1] at hlinks
  have hat : host.links.lookup (ld.hash sha256) = some ld := by
    rw [← hlinks]
    exact AList.lookup_insert _
  rw [hhash] at hat
  cases hat

/-- No failed `add_linkdef` leaves the tables as they were. -/
theorem addLinkdef_clean_iff :
    (∀ e, (host.addLinkdef sha256 ld o).2 = .error e →
        LinkTablesKept host (host.addLinkdef sha256 ld o).1) ↔
      (∃ found, host.links.lookup (ld.hash sha256) = some found) ∨ o = .sent := by
  have hfails := addLinkdef_fails_iff sha256 host ld o
  constructor
  · intro hclean
    by_contra hnot
    rw [not_or, ← Option.ne_none_iff_exists', not_not] at hnot
    obtain ⟨e, he⟩ := hfails.mpr hnot
    exact addLinkdef_not_kept sha256 host ld o he (hclean e he)
  · rintro hcase e he
    obtain ⟨hhash, hunsent⟩ := hfails.mp ⟨e, he⟩
    rcases hcase with ⟨found, hfound⟩ | hsent
    · rw [hhash] at hfound
      cases hfound
    · exact absurd hsent hunsent

end Sha256

end KasmCloud
