/-
KasmCloud.Controller.Announcements — whether a provider has heard of the
definitions the Link controller counts.

`heardMachine` runs `add_link` on any Links, with any answers to the lookups
and any outcome of the publishing. `HeardCtx.heard` is a history variable:
the definitions for which a `linkdefs.put` message went out and which have
not been missing from `Host.links` since.

An `add_linkdef` whose publishing failed leaves its definition in
`Host.links`, and the next one finds it there and returns without a message
(`addLinkdef_clean_iff`); `announced_iff` says that nothing else goes wrong.
-/
import KasmCloud.Controller.LinksTheorems
import KasmCloud.Host.Failures

namespace KasmCloud

open Lib V1alpha1

structure HeardCtx where
  ctx : Ctx
  heard : List LinkDefinition

/-- One run of `add_link` with its Link and what its surroundings answer. -/
structure AddLinkRun where
  link : Link
  cluster : Cluster
  publish : PublishOutcome

/-- The definitions stored now that were heard of before, or that one of
`messages` announces. -/
def heardAfter (host : Host) (heard : List LinkDefinition) (messages : List LinkdefMessage) :
    List LinkDefinition :=
  host.links.values.filter fun ld => ld ∈ heard ∨ ⟨.put, ld⟩ ∈ messages

section Sha256

variable (sha256 : String → String)

def HeardCtx.run (s : HeardCtx) (r : AddLinkRun) : HeardCtx :=
  let ctx := (addLink sha256 s.ctx r.cluster r.link r.publish).ctx
  { ctx
    heard := heardAfter ctx.host s.heard (ctx.host.published.drop s.ctx.host.published.length) }

/-- Sequences of `add_link` runs. -/
def heardMachine (latticePrefix : String) : Machine HeardCtx AddLinkRun where
  init := ⟨.new latticePrefix, []⟩
  step s r := some (s.run sha256 r)

end Sha256

theorem mem_heardAfter {host : Host} {heard : List LinkDefinition} {messages : List LinkdefMessage}
    {ld : LinkDefinition} :
    ld ∈ heardAfter host heard messages ↔
      ld ∈ host.links.values ∧ (ld ∈ heard ∨ ⟨.put, ld⟩ ∈ messages) := by
  simp [heardAfter]

/-! ## Stored definitions stay -/

section Stays

variable {sha256 : String → String}

theorem addLinkdef_values (host : Host) (ld : LinkDefinition) (o : PublishOutcome)
    {ld' : LinkDefinition} (h : ld' ∈ host.links.values) :
    ld' ∈ (host.addLinkdef sha256 ld o).1.links.values := by
  cases hhash : host.links.lookup (ld.hash sha256) with
  | some found =>
    rw [addLinkdef_of_some sha256 host ld o hhash]
    exact h
  | none =>
    rw [(addLinkdef_of_none sha256 host ld o hhash).1]
    exact (HashMap.mem_values_insert hhash).mpr (.inr h)

theorem addLink_values (ctx : Ctx) (cluster : Cluster) (link : Link) (publish : PublishOutcome)
    {ld : LinkDefinition} (h : ld ∈ ctx.host.links.values) :
    ld ∈ (addLink sha256 ctx cluster link publish).ctx.host.links.values := by
  rcases addLink_host sha256 ctx cluster link publish with hhost | ⟨ld', hhost⟩
  · rw [hhost]
    exact h
  · rw [hhost]
    exact addLinkdef_values ctx.host ld' publish h

/-- What was heard of is stored, and is heard of after the next run. -/
theorem heard_run {s : HeardCtx} (hstored : ∀ ld ∈ s.heard, ld ∈ s.ctx.host.links.values)
    (r : AddLinkRun) {ld : LinkDefinition} (h : ld ∈ s.heard) : ld ∈ (s.run sha256 r).heard :=
  mem_heardAfter.mpr ⟨addLink_values s.ctx r.cluster r.link r.publish (hstored ld h), .inl h⟩

end Stays

/-- Every definition counted has been announced to its provider. -/
def HeardCtx.Announced (s : HeardCtx) : Prop :=
  ∀ id ld names, s.ctx.links.lookup id = some (ld, names) → ld ∈ s.heard

/-- A run whose definition is not counted yet finds its hash free. -/
def HeardCtx.AddsFree (sha256 : String → String) (s : HeardCtx) (r : AddLinkRun) : Prop :=
  ∀ ld, resolveLink r.cluster r.link = .ok ld → s.ctx.links.lookup ld.id = none →
    s.ctx.host.links.lookup (ld.hash sha256) = none

/-! ## One run -/

section Runs

variable {sha256 : String → String} {s : HeardCtx} {r : AddLinkRun}

/-- What is heard of is stored, and counted. -/
structure HeardCtx.Heeded (s : HeardCtx) : Prop where
  stored : ∀ ld ∈ s.heard, ld ∈ s.ctx.host.links.values
  counted : ∀ ld ∈ s.heard, s.ctx.links.lookup ld.id ≠ none

/-- The three ways a run with a definition goes: it joins an entry, it makes
one without a message, or it stores the definition and makes the entry if
the message went out. -/
theorem addLink_cases {ld : LinkDefinition} (hld : resolveLink r.cluster r.link = .ok ld) :
    (∃ found names, s.ctx.links.lookup ld.id = some (found, names) ∧
        (s.run sha256 r).ctx =
          { s.ctx with links := s.ctx.links.insert ld.id (found, insert r.link.name names) }) ∨
      s.ctx.links.lookup ld.id = none ∧
        ((∃ found, s.ctx.host.links.lookup (ld.hash sha256) = some found) ∧
            (s.run sha256 r).ctx =
              { s.ctx with links := s.ctx.links.insert ld.id (ld, {r.link.name}) } ∨
          s.ctx.host.links.lookup (ld.hash sha256) = none ∧
            (s.run sha256 r).ctx.host = (s.ctx.host.addLinkdef sha256 ld r.publish).1 ∧
            (s.run sha256 r).ctx.links =
              if r.publish = .sent then s.ctx.links.insert ld.id (ld, {r.link.name})
              else s.ctx.links) := by
  have hctx : (s.run sha256 r).ctx =
      (s.ctx.installLink sha256 r.link.name ld r.publish).1 := by
    have h := addLink_ctx sha256 s.ctx r.cluster r.link r.publish
    rw [hld] at h
    exact h
  rw [hctx]
  cases hentry : s.ctx.links.lookup ld.id with
  | some entry =>
    obtain ⟨found, names⟩ := entry
    rw [installLink_occupied sha256 hentry]
    exact .inl ⟨found, names, rfl, rfl⟩
  | none =>
    refine .inr ⟨rfl, ?_⟩
    cases hhash : s.ctx.host.links.lookup (ld.hash sha256) with
    | some found =>
      rw [installLink_skip sha256 hentry hhash]
      exact .inl ⟨⟨found, rfl⟩, rfl⟩
    | none =>
      obtain ⟨hhost, hlinks, -⟩ := installLink_fresh sha256 hentry hhash r.link.name r.publish
      exact .inr ⟨rfl, hhost, hlinks⟩

theorem run_unresolved {action : Action} (h : resolveLink r.cluster r.link = .error action) :
    (s.run sha256 r).ctx = s.ctx := by
  have hctx := addLink_ctx sha256 s.ctx r.cluster r.link r.publish
  rw [h] at hctx
  exact hctx

/-- A run that leaves the host alone announces nothing. -/
theorem heard_of_sameHost (h : (s.run sha256 r).ctx.host = s.ctx.host) {ld : LinkDefinition}
    (hld : ld ∈ (s.run sha256 r).heard) : ld ∈ s.heard := by
  have hhost : (addLink sha256 s.ctx r.cluster r.link r.publish).ctx.host = s.ctx.host := h
  have hmem := (mem_heardAfter.mp hld).2
  rw [hhost, List.drop_length] at hmem
  exact hmem.resolve_right List.not_mem_nil

/-- A run that stores its definition announces that one, if the message went
out. -/
theorem heard_of_stored {ld : LinkDefinition}
    (hfree : s.ctx.host.links.lookup (ld.hash sha256) = none)
    (hhost : (s.run sha256 r).ctx.host = (s.ctx.host.addLinkdef sha256 ld r.publish).1)
    {ld' : LinkDefinition} :
    ld' ∈ (s.run sha256 r).heard →
      ld' ∈ s.heard ∨ r.publish = .sent ∧ ld' = ld := by
  intro h
  have hrun : (addLink sha256 s.ctx r.cluster r.link r.publish).ctx.host =
      (s.ctx.host.addLinkdef sha256 ld r.publish).1 := hhost
  rcases (mem_heardAfter.mp h).2 with hold | hnew
  · exact .inl hold
  · rw [hrun, (addLinkdef_of_none sha256 s.ctx.host ld r.publish hfree).2.1] at hnew
    split at hnew
    · rename_i hsent
      rw [List.drop_left, List.mem_singleton] at hnew
      exact .inr ⟨hsent, congrArg LinkdefMessage.definition hnew⟩
    · rw [List.drop_length] at hnew
      cases hnew

/-- What is announced gets its entry in the same run. -/
theorem HeardCtx.Heeded.run (h : s.Heeded) (r : AddLinkRun) : (s.run sha256 r).Heeded := by
  refine ⟨fun ld hld => (mem_heardAfter.mp hld).1, fun ld hld => ?_⟩
  cases hres : resolveLink r.cluster r.link with
  | error action =>
    have hctx := @run_unresolved sha256 s r action hres
    rw [hctx]
    exact h.counted ld (heard_of_sameHost (by rw [hctx]) hld)
  | ok new =>
    rcases @addLink_cases sha256 s r new hres with
      ⟨found, names, hentry, hctx⟩ | ⟨hvacant, ⟨hused, hctx⟩ | ⟨hfree, hhost, hlinks⟩⟩
    · have hold := h.counted ld (heard_of_sameHost (by rw [hctx]) hld)
      rw [hctx, HashMap.lookup_insert_if]
      split
      · simp
      · exact hold
    · have hold := h.counted ld (heard_of_sameHost (by rw [hctx]) hld)
      rw [hctx, HashMap.lookup_insert_if]
      split
      · simp
      · exact hold
    · rw [hlinks]
      rcases heard_of_stored hfree hhost hld with hold | ⟨hsent, rfl⟩
      · split
        · rw [HashMap.lookup_insert_if]
          split
          · simp
          · exact h.counted ld hold
        · exact h.counted ld hold
      · rw [if_pos hsent]
        simp

/-- A run that finds its hash free announces what it counts. -/
theorem HeardCtx.Announced.run (h : s.Announced) (hheeded : s.Heeded)
    (hfree : s.AddsFree sha256 r) : (s.run sha256 r).Announced := by
  intro id ld names hentry
  have hkeeps : ∀ {ld}, ld ∈ s.heard → ld ∈ (s.run sha256 r).heard := heard_run hheeded.stored r
  cases hres : resolveLink r.cluster r.link with
  | error action =>
    rw [run_unresolved hres] at hentry
    exact hkeeps (h id ld names hentry)
  | ok new =>
    rcases @addLink_cases sha256 s r new hres with
      ⟨found, names', hold, hctx⟩ | ⟨hvacant, ⟨⟨found, hused⟩, -⟩ | ⟨hhash, hhost, hlinks⟩⟩
    · rw [hctx, HashMap.lookup_insert_if] at hentry
      split at hentry
      · cases hentry
        exact hkeeps (h new.id ld names' hold)
      · exact hkeeps (h id ld names hentry)
    · have hunused := hfree new hres hvacant
      rw [hused] at hunused
      cases hunused
    · rw [hlinks] at hentry
      split at hentry
      · rename_i hsent
        rw [HashMap.lookup_insert_if] at hentry
        split at hentry
        · cases hentry
          obtain ⟨hstored, hpublished, -⟩ :=
            addLinkdef_of_none sha256 s.ctx.host ld r.publish hhash
          have hmem : ld ∈ (s.run sha256 r).ctx.host.links.values := by
            rw [hhost, hstored]
            exact (HashMap.mem_values_insert hhash).mpr (.inl rfl)
          have hnew : (s.run sha256 r).ctx.host.published =
              s.ctx.host.published ++ [⟨.put, ld⟩] := by
            rw [hhost, hpublished, if_pos hsent]
          have hdrop : (s.run sha256 r).ctx.host.published.drop s.ctx.host.published.length =
              [⟨.put, ld⟩] := by
            rw [hnew, List.drop_left]
          refine mem_heardAfter.mpr ⟨hmem, .inr ?_⟩
          exact hdrop ▸ List.mem_singleton_self _
        · exact hkeeps (h id ld names hentry)
      · exact hkeeps (h id ld names hentry)

/-- A run that finds its hash in use counts a definition without announcing
it. -/
theorem HeardCtx.Heeded.addsFree (h : s.Heeded) (hafter : (s.run sha256 r).Announced) :
    s.AddsFree sha256 r := by
  intro ld hld hvacant
  rcases @addLink_cases sha256 s r ld hld with
    ⟨found, names, hentry, -⟩ | ⟨-, ⟨-, hctx⟩ | ⟨hfree, -⟩⟩
  · rw [hvacant] at hentry
    cases hentry
  · have hentry : (s.run sha256 r).ctx.links.lookup ld.id = some (ld, {r.link.name}) := by
      rw [hctx]
      exact AList.lookup_insert _
    have hheard := heard_of_sameHost (by rw [hctx]) (hafter ld.id ld _ hentry)
    exact absurd hvacant (h.counted ld hheard)
  · exact hfree

end Runs

/-! ## All runs -/

section Sha256

variable (sha256 : String → String) (latticePrefix : String)

theorem heeded_of_reachable {s : HeardCtx}
    (h : (heardMachine sha256 latticePrefix).Reachable s) : s.Heeded := by
  have hnone : ∀ ld, ld ∉ (heardMachine sha256 latticePrefix).init.heard := fun _ => List.not_mem_nil
  refine h.invariant ⟨fun ld hld => absurd hld (hnone ld), fun ld hld => absurd hld (hnone ld)⟩ ?_
  intro s r s' hs hstep
  cases hstep
  exact hs.run r

/-- Every counted definition is announced all along exactly in the runs in
which a definition that is not counted finds its hash free. -/
theorem announced_iff (tr : List AddLinkRun) (s : HeardCtx) :
    (heardMachine sha256 latticePrefix).RunWhen (fun s _ => s.Announced) tr s ∧ s.Announced ↔
      (heardMachine sha256 latticePrefix).RunWhen (HeardCtx.AddsFree sha256) tr s := by
  refine Machine.runWhen_always_iff ?_ ?_
  · intro tr s hrun
    refine hrun.induction (I := fun _ s => s.Announced) ?_ ?_
    · intro id ld names hentry
      cases hentry
    · intro tr s r s' hrun hs hfree hstep
      cases hstep
      exact hs.run (heeded_of_reachable sha256 latticePrefix hrun.reachable) hfree
  · intro s r s' hs _ hstep hafter
    cases hstep
    exact (heeded_of_reachable sha256 latticePrefix hs).addsFree hafter

end Sha256

/-- A call of `add_linkdef` leaves the tables as they were when it fails
exactly if it does not fail after storing its definition; and what the
controller counts is announced exactly as long as no such definition is found
again. -/
theorem addLinkdef_retry_iff (sha256 : String → String) (latticePrefix : String) :
    (∀ host ld outcome,
      (∀ e, (host.addLinkdef sha256 ld outcome).2 = .error e →
          LinkTablesKept host (host.addLinkdef sha256 ld outcome).1) ↔
        (∃ found, host.links.lookup (ld.hash sha256) = some found) ∨ outcome = .sent) ∧
    ∀ tr s, (heardMachine sha256 latticePrefix).RunWhen (fun s _ => s.Announced) tr s ∧
        s.Announced ↔
      (heardMachine sha256 latticePrefix).RunWhen (HeardCtx.AddsFree sha256) tr s :=
  ⟨addLinkdef_clean_iff sha256, announced_iff sha256 latticePrefix⟩

/-! ## A failed publish and a retry -/

def echoLink : Link where
  name := "httpserver-echo"
  spec :=
    { contractId := "wasmcloud:httpserver"
      linkName := "default"
      provider := { name := "", key := "VHTTP" }
      actor := { name := "", key := "MECHO" }
      values := ∅ }
  status := none

def echoRun (publish : PublishOutcome) : AddLinkRun :=
  ⟨echoLink, ⟨fun _ => none, fun _ => none⟩, publish⟩

/-- The message of the first run is lost and the second run sends none. -/
def retriedEnd : HeardCtx :=
  (((heardMachine id "default").exec (heardMachine id "default").init
    [echoRun .publishFailed, echoRun .sent]).getD ⟨.new "", []⟩)

theorem retriedAdd_not_announced :
    (¬ ∀ host, (apiMachine id "default").Reachable host → ∀ ld outcome e,
      (host.addLinkdef id ld outcome).2 = .error e →
        LinkTablesKept host (host.addLinkdef id ld outcome).1) ∧
    ¬ ∀ tr s, (heardMachine id "default").Run tr s → s.Announced := by
  constructor
  · intro hall
    have hkept := hall (.new "default") ⟨[], .nil⟩ ⟨"MECHO", "VHTTP", "default", "", ∅⟩ .publishFailed
      _ rfl
    exact addLinkdef_not_kept id (.new "default") _ .publishFailed rfl hkept
  · intro hall
    have hrun : (heardMachine id "default").Run [echoRun .publishFailed, echoRun .sent] retriedEnd :=
      Machine.run_of_exec rfl
    have hentry : retriedEnd.ctx.links.lookup "wasmcloud:httpserver.MECHO.default" =
        some (⟨"MECHO", "VHTTP", "default", "wasmcloud:httpserver", ∅⟩, {"httpserver-echo"}) := by
      decide
    have hheard : retriedEnd.heard = [] := by decide
    have hmem := hall _ _ hrun _ _ _ hentry
    rw [hheard] at hmem
    cases hmem

end KasmCloud
