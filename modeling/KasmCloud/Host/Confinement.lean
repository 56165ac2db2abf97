/-
KasmCloud.Host.Confinement — an actor's calls stay inside its signed
capabilities.

The capability check looks at the contract of the resolved entity only. It
guards the package of the operation because of an invariant of the links
tables: what a table holds under a contract and a link name is an entity
with that contract and that link name (`TablesKeyed`). With that,
`exchange_wp` follows the call through all its exits, and
`calls_confined` puts the two together for the instances of a host in any
reachable state, also after they have been removed.
-/
import KasmCloud.Host.Routing
import KasmCloud.Host.Handler

namespace KasmCloud

open Lib

/-! ## What a call may do -/

/-- A request is published. -/
def CallOp.publishes : CallOp → Bool
  | .sendRequest .. => true
  | _ => false

/-- Something is published or put into the chunk store. -/
def CallOp.leavesTrace : CallOp → Bool
  | .sendRequest .. | .chunkify .. => true
  | _ => false

/-- The link name a target asks the package's links for; an actor target asks
for none. -/
def targetLink : Option TargetEntity → Option String
  | none => some defaultLinkName
  | some (.link linkName) => some (linkName.getD defaultLinkName)
  | some (.actor _) => none

/-- The claims have the capability, or the contract is empty. -/
def Capable (claims : Jwt.Claims Jwt.Actor) (contractId : String) : Prop :=
  contractId = "" ∨ ∃ metadata caps, claims.metadata = some metadata ∧
    metadata.caps = some caps ∧ contractId ∈ caps

/-- A published request carries the actor as its origin and goes to the entity
its target resolves to; where the target is a link, that is the link of the
operation's package, with the package as its contract. -/
def SentRight (handler : Handler) (links : LinkTable) (aliases : HashMap String WasmCloudEntity)
    (target : Option TargetEntity) (operation : String) : CallOp → Prop
  | .sendRequest topic invocation _ =>
    invocation.origin.publicKey = handler.claims.subject ∧
      ∃ package rest entity, splitOnce operation '/' = some (package, rest) ∧
        resolveTarget target (links.lookup package) aliases = .ok entity ∧
        invocation.target = entity ∧ topic = callTopic handler.latticePrefix target entity ∧
        Capable handler.claims entity.contractId ∧
        ∀ l, targetLink target = some l →
          links.entity? package l = some entity ∧ entity.contractId = package
  | _ => True

/-- The call is refused: the operation has no package, the target does not
resolve, or the claims lack the capability. -/
def Refused (handler : Handler) (links : LinkTable) (aliases : HashMap String WasmCloudEntity)
    (target : Option TargetEntity) (operation : String) : Prop :=
  ∀ package rest entity, splitOnce operation '/' = some (package, rest) →
    resolveTarget target (links.lookup package) aliases = .ok entity →
    ensureActorCapability handler.claims.metadata entity.contractId ≠ .ok ()

structure Confined (handler : Handler) (links : LinkTable)
    (aliases : HashMap String WasmCloudEntity) (target : Option TargetEntity)
    (operation : String) (t : List (Prog.Event callInterface)) : Prop where
  atMostOne : t.countP (fun e => CallOp.publishes e.1) ≤ 1
  sentRight : ∀ e ∈ t, SentRight handler links aliases target operation e.1
  refused : Refused handler links aliases target operation →
    ∀ e ∈ t, CallOp.leavesTrace e.1 = false

/-- No request is published. -/
def NoRequest (t : List (Prog.Event callInterface)) : Prop :=
  ∀ e ∈ t, CallOp.publishes e.1 = false

/-- At most one request is published, and it goes from the actor to the
entity. -/
def OneRequest (handler : Handler) (target : Option TargetEntity) (entity : WasmCloudEntity)
    (t : List (Prog.Event callInterface)) : Prop :=
  t.countP (fun e => CallOp.publishes e.1) ≤ 1 ∧
    ∀ topic invocation extraTime answer,
      (⟨.sendRequest topic invocation extraTime, answer⟩ : Prog.Event callInterface) ∈ t →
        invocation.origin = handler.origin ∧ invocation.target = entity ∧
          topic = callTopic handler.latticePrefix target entity

/-! ## The two checks -/

theorem resolveTarget_link {target : Option TargetEntity} {links : LinkTable}
    {aliases : HashMap String WasmCloudEntity} {package l : String} {entity : WasmCloudEntity}
    (h : resolveTarget target (links.lookup package) aliases = .ok entity)
    (hl : targetLink target = some l) : links.entity? package l = some entity := by
  unfold resolveTarget at h
  unfold targetLink at hl
  split at h
  · cases hl
    split at h
    · rename_i found hfound
      cases h
      exact hfound
    · cases h
  · cases hl
    split at h
    · rename_i found hfound
      cases h
      exact hfound
    · cases h
  · cases hl
  · cases hl

theorem capable_of_ok {claims : Jwt.Claims Jwt.Actor} {contractId : String}
    (h : ensureActorCapability claims.metadata contractId = .ok ()) :
    Capable claims contractId := by
  unfold ensureActorCapability at h
  split at h
  · rename_i hempty
    exact .inl hempty
  · split at h
    · rename_i name caps provider rev ver callAlias hmeta
      split at h
      · rename_i hmem
        exact .inr ⟨_, caps, hmeta, rfl, hmem⟩
      · cases h
    · cases h

/-! ## The program -/

section Program

variable {handler : Handler} {links : LinkTable} {aliases : HashMap String WasmCloudEntity}
  {target : Option TargetEntity} {operation : String}

/-- What leaves no trace is no request. -/
theorem CallOp.publishes_of_quiet {op : CallOp} (h : op.leavesTrace = false) :
    op.publishes = false := by
  cases op with
  | sendRequest topic invocation extraTime => cases h
  | _ => rfl

theorem sentRight_of_quiet {op : CallOp} (h : op.leavesTrace = false) :
    SentRight handler links aliases target operation op := by
  cases op with
  | sendRequest topic invocation extraTime => cases h
  | _ => trivial

theorem countP_publishes_of_quiet {t : List (Prog.Event callInterface)}
    (h : ∀ e ∈ t, CallOp.leavesTrace e.1 = false) :
    t.countP (fun e => CallOp.publishes e.1) = 0 := by
  refine List.countP_eq_zero.mpr fun e he => ?_
  rw [CallOp.publishes_of_quiet (h e he)]
  exact Bool.false_ne_true

/-- A trace that leaves nothing behind is confined. -/
theorem confined_of_quiet {t : List (Prog.Event callInterface)}
    (h : ∀ e ∈ t, CallOp.leavesTrace e.1 = false) :
    Confined handler links aliases target operation t := by
  refine ⟨?_, fun e he => sentRight_of_quiet (h e he), fun _ => h⟩
  rw [countP_publishes_of_quiet h]
  exact Nat.zero_le 1

/-- Quiet events around a confined trace change nothing. -/
theorem Confined.around {t : List (Prog.Event callInterface)}
    (h : Confined handler links aliases target operation t)
    (before after : List (Prog.Event callInterface))
    (hbefore : ∀ e ∈ before, CallOp.leavesTrace e.1 = false)
    (hafter : ∀ e ∈ after, CallOp.leavesTrace e.1 = false) :
    Confined handler links aliases target operation (before ++ t ++ after) := by
  have hb : Confined handler links aliases target operation before := confined_of_quiet hbefore
  have ha : Confined handler links aliases target operation after := confined_of_quiet hafter
  refine ⟨?_, fun e he => ?_, fun hrefused e he => ?_⟩
  · rw [List.countP_append, List.countP_append, countP_publishes_of_quiet hbefore,
      countP_publishes_of_quiet hafter, Nat.zero_add, Nat.add_zero]
    exact h.atMostOne
  · rcases List.mem_append.mp he with he | he
    · rcases List.mem_append.mp he with he | he
      · exact hb.sentRight e he
      · exact h.sentRight e he
    · exact ha.sentRight e he
  · rcases List.mem_append.mp he with he | he
    · rcases List.mem_append.mp he with he | he
      · exact hbefore e he
      · exact h.refused hrefused e he
    · exact hafter e he

/-- Once the checks have passed, one request to the resolved entity is in
order. -/
theorem confined_of_checked {package rest : String} {entity : WasmCloudEntity}
    (horigin : handler.origin.publicKey = handler.claims.subject)
    (hkeyed : ∀ c l e, links.entity? c l = some e → e.contractId = c)
    (hparts : splitOnce operation '/' = some (package, rest))
    (hresolved : resolveTarget target (links.lookup package) aliases = .ok entity)
    (hcapable : ensureActorCapability handler.claims.metadata entity.contractId = .ok ())
    {t : List (Prog.Event callInterface)}
    (hone : t.countP (fun e => CallOp.publishes e.1) ≤ 1)
    (hsent : ∀ topic invocation extraTime answer,
      (⟨.sendRequest topic invocation extraTime, answer⟩ : Prog.Event callInterface) ∈ t →
        invocation.origin = handler.origin ∧ invocation.target = entity ∧
          topic = callTopic handler.latticePrefix target entity) :
    Confined handler links aliases target operation t := by
  refine ⟨hone, ?_, fun hrefused => absurd hcapable (hrefused _ _ _ hparts hresolved)⟩
  rintro ⟨op, answer⟩ he
  cases op with
  | sendRequest topic invocation extraTime =>
    obtain ⟨ho, ht, htopic⟩ := hsent topic invocation extraTime answer he
    refine ⟨by rw [ho, horigin], package, rest, entity, hparts, hresolved, ht, htopic,
      capable_of_ok hcapable, fun l hl => ?_⟩
    have hentity := resolveTarget_link hresolved hl
    exact ⟨hentity, hkeyed package l entity hentity⟩
  | _ => trivial

/-! ### One request at most -/

variable {t : List (Prog.Event callInterface)} {entity : WasmCloudEntity}

theorem NoRequest.one (h : NoRequest t) : OneRequest handler target entity t := by
  refine ⟨?_, fun topic invocation extraTime answer he => ?_⟩
  · rw [List.countP_eq_zero.mpr fun e he => by simp [h e he]]
    exact Nat.zero_le 1
  · have hquiet := h _ he
    simp [CallOp.publishes] at hquiet

theorem NoRequest.snoc (h : NoRequest t) {e : Prog.Event callInterface}
    (he : CallOp.publishes e.1 = false) : NoRequest (t ++ [e]) := by
  intro e' he'
  rcases List.mem_append.mp he' with he' | he'
  · exact h e' he'
  · rw [List.mem_singleton.mp he']
    exact he

theorem OneRequest.snoc (h : OneRequest handler target entity t)
    {e : Prog.Event callInterface} (he : CallOp.publishes e.1 = false) :
    OneRequest handler target entity (t ++ [e]) := by
  refine ⟨?_, fun topic invocation extraTime answer hmem => ?_⟩
  · have hnone : [e].countP (fun e => CallOp.publishes e.1) = 0 := by simp [he]
    rw [List.countP_append, hnone]
    exact h.1
  · rcases List.mem_append.mp hmem with hmem | hmem
    · exact h.2 topic invocation extraTime answer hmem
    · rw [← List.mem_singleton.mp hmem] at he
      simp [CallOp.publishes] at he

/-- After a trace without a request, the one that is sent. -/
theorem NoRequest.send (h : NoRequest t) {invocation : Invocation}
    (horigin : invocation.origin = handler.origin) (htarget : invocation.target = entity)
    (extraTime : Bool) (answer : Except String Bytes) :
    OneRequest handler target entity (t ++ [⟨.sendRequest
      (callTopic handler.latticePrefix target entity) invocation extraTime, answer⟩]) := by
  refine ⟨?_, fun topic invocation' extraTime' answer' hmem => ?_⟩
  · rw [List.countP_append, List.countP_eq_zero.mpr fun e he => by simp [h e he]]
    simp [CallOp.publishes]
  · rcases List.mem_append.mp hmem with hmem | hmem
    · have hquiet := h _ hmem
      simp [CallOp.publishes] at hquiet
    · rw [List.mem_singleton, Sigma.mk.injEq, CallOp.sendRequest.injEq] at hmem
      obtain ⟨⟨rfl, rfl, rfl⟩, -⟩ := hmem
      exact ⟨horigin, htarget, rfl⟩

variable {chunkThreshold : Nat} {request : Bytes} {sendError id : String} {payload : Bytes}

theorem storeRequest_wp (h : NoRequest t) :
    (storeRequest chunkThreshold id request).wp t fun t _ => NoRequest t := by
  unfold storeRequest
  split
  · rw [Prog.wp_bind]
    exact Prog.forall_answer.mpr ⟨fun reply => h.snoc rfl, fun e => h.snoc rfl⟩
  · exact h

theorem receiveResponse_wp (h : OneRequest handler target entity t) :
    (receiveResponse chunkThreshold id payload).wp t
      fun t _ => OneRequest handler target entity t := by
  unfold receiveResponse
  rw [Prog.wp_bind]
  refine Prog.forall_answer.mpr ⟨fun response => ?_, fun e => h.snoc rfl⟩
  have hdecoded := h.snoc (e := ⟨.decodeResponse payload, .ok response⟩) rfl
  change Prog.wp (if _ then _ else if _ then _ else _) _ _
  split
  · exact hdecoded
  · split
    · rw [Prog.wp_bind]
      exact Prog.forall_answer.mpr ⟨fun msg => hdecoded.snoc rfl, fun e => hdecoded.snoc rfl⟩
    · split <;> exact hdecoded

/-! ### The call -/

/-- The common part of the two paths, in every execution. -/
theorem exchange_wp (horigin : handler.origin.publicKey = handler.claims.subject)
    (hkeyed : ∀ c l e, links.entity? c l = some e → e.contractId = c) :
    (handler.exchange chunkThreshold links aliases target operation request sendError).wp []
      fun t _ => Confined handler links aliases target operation t := by
  unfold Handler.exchange
  rw [Prog.wp_bind, Prog.wp_lift]
  cases hparts : splitOnce operation '/' with
  | none => exact confined_of_quiet (by simp)
  | some parts =>
    obtain ⟨package, rest⟩ := parts
    dsimp only
    rw [Prog.wp_bind, Prog.wp_lift]
    cases hresolved : resolveTarget target (links.lookup package) aliases with
    | error e => exact confined_of_quiet (by simp)
    | ok entity =>
      dsimp only
      rw [Prog.wp_bind]
      refine Prog.forall_answer.mpr
        ⟨fun id => ?_, fun e => confined_of_quiet (by simp [CallOp.leavesTrace])⟩
      change Prog.wp (_ >>= _) _ _
      rw [Prog.wp_bind, Prog.wp_lift]
      cases hcapable : ensureActorCapability handler.claims.metadata entity.contractId with
      | error e => exact confined_of_quiet (by simp [CallOp.leavesTrace])
      | ok u =>
        -- the checks have passed: every exit from here on is one request at most
        dsimp only
        refine Prog.wp_mono (fun t _ (hend : OneRequest handler target entity t) =>
          confined_of_checked horigin hkeyed hparts hresolved hcapable hend.1 hend.2) ?_
        rw [Prog.wp_bind]
        refine Prog.wp_mono (fun t stored hquiet => ?_) (storeRequest_wp ?_)
        · cases stored with
          | error e => exact hquiet.one
          | ok msg =>
            dsimp only
            rw [Prog.wp_bind]
            refine Prog.forall_answer.mpr ⟨fun _ => ?_, fun e => (hquiet.snoc rfl).one⟩
            change Prog.wp (_ >>= _) _ _
            rw [Prog.wp_bind]
            refine Prog.forall_answer.mpr ⟨fun payload => ?_, fun e => ?_⟩
            · apply receiveResponse_wp
              apply NoRequest.send
              · exact hquiet.snoc rfl
              · rfl
              · rfl
            · apply NoRequest.send
              · exact hquiet.snoc rfl
              · rfl
              · rfl
        · intro e he
          rw [List.nil_append, List.mem_singleton] at he
          rw [he]
          rfl

/-- The direct path, in every execution. -/
theorem callOperationWithPayload_confined
    (horigin : handler.origin.publicKey = handler.claims.subject)
    (hkeyed : ∀ c l e, links.entity? c l = some e → e.contractId = c)
    {r : Except String (Except String Bytes)}
    (h : (handler.callOperationWithPayload chunkThreshold links aliases target operation
      request).Exec t r) : Confined handler links aliases target operation t := by
  have hwp : (handler.callOperationWithPayload chunkThreshold links aliases target operation
      request).wp [] fun t _ => Confined handler links aliases target operation t := by
    unfold Handler.callOperationWithPayload
    rw [Prog.wp_bind]
    refine Prog.wp_mono (fun t r hconfined => ?_) (exchange_wp horigin hkeyed)
    match r with
    | .error e => exact hconfined
    | .ok (some error, msg) => exact hconfined
    | .ok (none, msg) => exact hconfined
  exact Prog.exec_wp h hwp

/-- The streaming path, in every execution. -/
theorem call_confined (horigin : handler.origin.publicKey = handler.claims.subject)
    (hkeyed : ∀ c l e, links.entity? c l = some e → e.contractId = c)
    {r : Except String Unit}
    (h : (handler.call chunkThreshold links aliases target operation).Exec t r) :
    Confined handler links aliases target operation t := by
  have hwp : (handler.call chunkThreshold links aliases target operation).wp []
      fun t _ => Confined handler links aliases target operation t := by
    unfold Handler.call
    rw [Prog.wp_bind]
    refine Prog.forall_answer.mpr
      ⟨fun _ => ?_, fun e => confined_of_quiet (by simp [CallOp.leavesTrace])⟩
    change Prog.wp (_ >>= _) _ _
    rw [Prog.wp_bind]
    refine Prog.forall_answer.mpr
      ⟨fun _ => ?_, fun e => confined_of_quiet (by simp [CallOp.leavesTrace])⟩
    change Prog.wp (_ >>= _) _ _
    rw [Prog.wp_bind]
    refine Prog.forall_answer.mpr
      ⟨fun request => ?_, fun e => confined_of_quiet (by simp [CallOp.leavesTrace])⟩
    change Prog.wp (_ >>= _) _ _
    rw [Prog.wp_bind]
    refine Prog.wp_shift (Prog.wp_mono (fun t r hconfined => ?_) (exchange_wp horigin hkeyed))
    have haround := fun after => hconfined.around
      [⟨.socketPair, .ok ()⟩, ⟨.socketPair, .ok ()⟩, ⟨.readRequest, .ok request⟩] after
      (by simp [CallOp.leavesTrace])
    match r with
    | .error e => simpa using haround [] (by simp)
    | .ok (some error, msg) => simpa using haround [] (by simp)
    | .ok (none, msg) =>
      refine Prog.forall_answer.mpr ⟨fun reply => ?_, fun e => ?_⟩
      · exact haround [⟨.writeReply msg, .ok reply⟩] (by simp [CallOp.leavesTrace])
      · exact haround [⟨.writeReply msg, .error e⟩] (by simp [CallOp.leavesTrace])
  exact Prog.exec_wp h hwp

end Program

/-! ## The tables and handlers of a host -/

/-- Every links table holds, under a contract and a link name, an entity with
that contract and that link name. -/
def TablesKeyed (host : Host) : Prop :=
  ∀ ref hd, host.header? ref = some hd → ∀ c l e, hd.2.entity? c l = some e →
    e.contractId = c ∧ e.linkName = l

/-- Every actor has a handler made for its group, and its instances have that
handler. -/
def HandlersBuilt (host : Host) : Prop :=
  ∀ ref name a, host.actorAt ref name = some a →
    (∃ host₀ claims, a.handler = Host.actorHandler host₀ claims ref) ∧
      ∀ i ∈ a.instances, i.handler = a.handler

section Sha256

variable {sha256 : String → String} {s s' : System}

/-- A folded table is keyed. -/
theorem getActorLinks_keyed (host : Host) (key : String) {c l : String} {e : WasmCloudEntity}
    (h : (host.getActorLinks key).entity? c l = some e) : e.contractId = c ∧ e.linkName = l := by
  rcases LinkTable.entity?_foldl_route h with ⟨ld, -, hc, hl, rfl⟩ | hempty
  · exact ⟨hc, hl⟩
  · simp at hempty

theorem edit_keyed (call : LinkdefCall) {table : LinkTable}
    (htable : ∀ c l e, table.entity? c l = some e → e.contractId = c ∧ e.linkName = l)
    {c l : String} {e : WasmCloudEntity} (h : (call.edit table).entity? c l = some e) :
    e.contractId = c ∧ e.linkName = l := by
  unfold LinkdefCall.edit at h
  split at h
  · rw [LinkTable.entity?_route] at h
    split at h
    · rename_i hplace
      cases h
      exact ⟨hplace.1.symm, hplace.2.symm⟩
    · exact htable c l e h
  · rw [LinkTable.entity?_unroute] at h
    split at h
    · cases h
    · exact htable c l e h

theorem tablesKeyed_of_reachable {latticePrefix : String}
    (h : (hostMachine sha256 latticePrefix).Reachable s) : TablesKeyed s.host := by
  refine h.invariant (I := fun s => TablesKeyed s.host) ?_ fun s step s' hI hs =>
    hostInvariant_step ?_ (fun _ _ h => h) ?_ (fun _ _ h => h) hI hs
  · intro ref hd hheader
    cases hheader
  · intro host name failAt call hkeyed ref hd hheader c l e he
    rcases actorSection_header? _ _ _ _ hheader with hold | ⟨key, rfl⟩
    · exact hkeyed ref hd hold c l e he
    · exact getActorLinks_keyed _ _ he
  · intro host call hkeyed ref hd hheader c l e he
    rw [onGroupLinks_header?] at hheader
    split at hheader
    · obtain ⟨hd', hheader', rfl⟩ := Option.map_eq_some_iff.mp hheader
      exact edit_keyed call (hkeyed ref hd' hheader') he
    · exact hkeyed ref hd hheader c l e he

theorem handlersBuilt_section {host : Host} (h : HandlersBuilt host) (name : String) (failAt : Option Nat)
    (call : ActorCall) : HandlersBuilt (host.actorSection name failAt call).1 := by
  intro ref m a ha
  rcases actorSection_actorAt ha with hold | ⟨job, group, -, hfilled⟩
  · exact h ref m a hold
  · rcases fillGroup_images job.claims_eq group name job.actorRef job.replica failAt hfilled with
      ⟨old, hold, hgrown⟩ | ⟨⟨rfl, rfl⟩, -, rfl⟩
    · obtain ⟨hbuilt, hshared⟩ := h ref m old hold
      rw [← hgrown.handler] at hbuilt hshared
      refine ⟨hbuilt, fun i hi => ?_⟩
      rcases hgrown.instances i hi with hi | ⟨hhandler, -⟩
      · exact hshared i hi
      · exact hhandler
    · exact ⟨⟨_, _, rfl⟩, fun i hi => (mem_freshInstances hi).1⟩

theorem handlersBuilt_step {step : SystemStep} (h : HandlersBuilt s.host)
    (hs : s.step sha256 step = some s') : HandlersBuilt s'.host := by
  refine hostInvariant_step (I := HandlersBuilt)
    (fun _ name failAt call h => handlersBuilt_section h name failAt call) (fun _ _ h => h) ?_
    (fun _ _ h => h) h hs
  intro host call h ref name a ha
  rw [onGroupLinks_actorAt] at ha
  exact h ref name a ha

theorem handlersBuilt_of_reachable {latticePrefix : String}
    (h : (hostMachine sha256 latticePrefix).Reachable s) : HandlersBuilt s.host := by
  refine h.invariant (I := fun s => HandlersBuilt s.host) ?_ fun s step s' => handlersBuilt_step
  intro ref name a ha
  cases ha

/-- A group's cell stays, whatever happens after. -/
theorem header?_stays {latticePrefix : String} {ls : List SystemStep} {ref : Ref} {key : String}
    {table : LinkTable} (h : (hostMachine sha256 latticePrefix).exec s ls = some s')
    (hheader : s.host.header? ref = some (key, table)) :
    ∃ table', s'.host.header? ref = some (key, table') := by
  refine Machine.exec_invariant (I := fun s => ∃ table', s.host.header? ref = some (key, table'))
    (fun s step s' hI hs => hostInvariant_step
      (I := fun host => ∃ table', host.header? ref = some (key, table'))
      ?_ (fun _ _ h => h) ?_ (fun _ _ h => h) hI hs) h ⟨table, hheader⟩
  · rintro host name failAt call ⟨table', hkept⟩
    exact ⟨table', actorSection_keeps_header _ _ _ _ hkept⟩
  · rintro host call ⟨table', hkept⟩
    rw [onGroupLinks_header?, hkept]
    split
    · exact ⟨_, rfl⟩
    · exact ⟨_, rfl⟩

/-- **Confinement.** For every instance of an actor in a reachable state, and
the links table its handler reads in that state or any later one: every
execution of either call path publishes at most one request, from the actor
and to the entity its target resolves to, which for a link is the group's
link for the operation's package, with a contract the claims allow; and a
call that is refused publishes nothing and stores no chunk. -/
theorem calls_confined (sha256 : String → String) (latticePrefix : String) (s s' : System)
    (ls : List SystemStep) (ref : Ref) (name : String) (i : ActorInstance)
    (hs : (hostMachine sha256 latticePrefix).Reachable s)
    (hi : i ∈ s.host.instancesAt ref name)
    (hlater : (hostMachine sha256 latticePrefix).exec s ls = some s') :
    ∃ g, s'.host.groups.get? i.handler.links = some g ∧
      ∀ (chunkThreshold : Nat) (target : Option TargetEntity) (operation : String)
        (t : List (Prog.Event callInterface)),
        (∀ request r, (i.handler.callOperationWithPayload chunkThreshold g.links s'.host.aliases
            target operation request).Exec t r →
          Confined i.handler g.links s'.host.aliases target operation t) ∧
        ∀ r, (i.handler.call chunkThreshold g.links s'.host.aliases target operation).Exec t r →
          Confined i.handler g.links s'.host.aliases target operation t := by
  cases hat : s.host.actorAt ref name with
  | none =>
    rw [instancesAt_of_none hat] at hi
    cases hi
  | some a =>
    rw [instancesAt_of_some hat] at hi
    obtain ⟨⟨host₀, claims, hbuilt⟩, hshared⟩ := handlersBuilt_of_reachable hs ref name a hat
    rw [hshared i hi, hbuilt]
    obtain ⟨g₀, hg₀, -⟩ := group_of_actorAt hat
    obtain ⟨table, hheader⟩ := header?_stays hlater (header?_isSome hg₀)
    obtain ⟨g, hg, htable⟩ := Option.map_eq_some_iff.mp hheader
    have hs' : (hostMachine sha256 latticePrefix).Reachable s' := hs.exec hlater
    have hkeyed : ∀ c l e, g.links.entity? c l = some e → e.contractId = c :=
      fun c l e he => (tablesKeyed_of_reachable hs' ref _ (header?_isSome hg) c l e he).1
    refine ⟨g, hg, fun chunkThreshold target operation t => ⟨fun request r h => ?_, fun r h => ?_⟩⟩
    · exact callOperationWithPayload_confined rfl hkeyed h
    · exact call_confined rfl hkeyed h

end Sha256

/-! ## A call that goes out -/

/-- An image of actor `M` with one capability. -/
def imageKeyvalue : WasmActor where
  module := "kvcounter"
  claims := some ⟨"A", "M", 0, none, none,
    some ⟨none, some ["wasmcloud:keyvalue"], false, none, none, none⟩⟩

def keyvalueLink : LinkDefinition :=
  ⟨"M", "V", "default", "wasmcloud:keyvalue", ∅⟩

/-- The actor runs and has its link. -/
def keyvalueRun : List SystemStep :=
  [.reconcileActor "kvcounter" "image" (.ok imageKeyvalue) 1, .actorSection "kvcounter" none,
    .actorSection "kvcounter" none, .actorSection "kvcounter" none,
    .actorSection "kvcounter" none,
    .addLinkdef keyvalueLink, .routeLinkdef, .publishLinkdef .sent]

def keyvalueSystem : System :=
  ((hostMachine id "default").exec (System.new "default") keyvalueRun).get (by decide)

/-- The actor's one instance. -/
def keyvalueInstance : ActorInstance :=
  ⟨0, Host.actorHandler (.new "default") ⟨"A", "M", 0, none, none,
    some ⟨none, some ["wasmcloud:keyvalue"], false, none, none, none⟩⟩ 0, imageKeyvalue⟩

/-- Surroundings that answer every operation. -/
def keyvalueAnswers : (op : CallOp) → Except String op.Reply
  | .newInvocation .. => .ok ⟨"id", "KeyValue.Get"⟩
  | .decodeResponse _ => .ok ⟨"id", [], 0, none⟩
  | .socketPair | .chunkify .. | .encode _ | .writeReply _ => .ok ()
  | .readRequest | .sendRequest .. | .getUnchunkified _ => .ok []

/-- One request goes out, in a trace that is confined. -/
theorem keyvalueCall_confined :
    ∃ g t r, keyvalueSystem.host.groups.get? keyvalueInstance.handler.links = some g ∧
      (keyvalueInstance.handler.callOperationWithPayload 1024 g.links
        keyvalueSystem.host.aliases none "wasmcloud:keyvalue/KeyValue.Get" [1]).Exec t r ∧
      t.countP (fun e => CallOp.publishes e.1) = 1 ∧
      Confined keyvalueInstance.handler g.links keyvalueSystem.host.aliases none
        "wasmcloud:keyvalue/KeyValue.Get" t := by
  have hexec : (hostMachine id "default").exec (System.new "default") keyvalueRun =
      some keyvalueSystem := (Option.some_get _).symm
  obtain ⟨g, hg, hconfined⟩ := calls_confined id "default" keyvalueSystem keyvalueSystem [] 0
    "kvcounter" keyvalueInstance (Machine.run_of_exec hexec).reachable (by decide) rfl
  have hfollow := Prog.exec_follow (F := callInterface) keyvalueAnswers
    (keyvalueInstance.handler.callOperationWithPayload 1024 g.links
      keyvalueSystem.host.aliases none "wasmcloud:keyvalue/KeyValue.Get" [1])
  refine ⟨g, _, _, hg, hfollow, ?_, (hconfined 1024 none _ _).1 _ _ hfollow⟩
  have hlinks : (keyvalueSystem.host.groups.get? keyvalueInstance.handler.links).map
      (fun g => ((keyvalueInstance.handler.callOperationWithPayload 1024 g.links
        keyvalueSystem.host.aliases none "wasmcloud:keyvalue/KeyValue.Get" [1]).follow
          keyvalueAnswers).1.countP fun e => CallOp.publishes e.1) = some 1 := by decide
  rw [hg] at hlinks
  exact Option.some.inj hlinks

end KasmCloud
