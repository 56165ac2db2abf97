/-
KasmCloud.Host.Replies — what `handle_message` sends back
(`crates/host/src/actor.rs`).

`handle_call` fails with an error of the host, or returns an encoded
response, which carries an error if it is the actor's own. `handle_message`
publishes what was returned and logs the other kind: `handleCall_reports`
tells the two apart by what the surroundings answered, and
`handleMessage_answered_iff` says when the caller hears something.
-/
import KasmCloud.Host.Serving

namespace KasmCloud

open Lib

/-! ## handle_message -/

/-- A message published on a subject. -/
structure PublishOp where
  subject : String
  payload : Bytes
  deriving DecidableEq

abbrev publishInterface : Interface := ⟨PublishOp, fun _ => Unit⟩

abbrev MessageProg (H : HttpTypes) := Prog ((serveInterface H).sum publishInterface)

abbrev MessageEvent (H : HttpTypes) := Prog.Event ((serveInterface H).sum publishInterface)

variable {H : HttpTypes}

/-- An attempt to publish; a failure is only logged. -/
def publishReply (reply : String) (buf : Bytes) : MessageProg H Unit :=
  .ask (.inr ⟨reply, buf⟩) fun _ => pure ()

variable (H) in
/-- `ActorInstance::handle_message`. -/
def ActorInstance.handleMessage (chunkThreshold : Nat) (inst : ActorInstance)
    (reply : Option String) (payload : Bytes) : MessageProg H Unit := do
  let res ← (inst.handleCall H chunkThreshold payload).inl.settle
  match reply, res with
  | some reply, .ok buf => publishReply reply buf
  | _, .error _ => pure ()
  | none, .ok _ => pure ()

/-! ## Errors of the host and errors of the actor -/

/-- What the actor itself returned is a result. -/
def ServeOp.replyOk : (op : ServeOp H) → op.Reply → Bool
  | .callActor .., .error _ => false
  | _, _ => true

/-- The operation succeeded, the actor's own result included. -/
def succeeds : Prog.Event (serveInterface H) → Bool
  | ⟨op, .ok reply⟩ => op.replyOk reply
  | ⟨_, .error _⟩ => false

/-- The host got what it asked for; that the actor's HTTP handler fails is the
actor's error. -/
def hostOk : Prog.Event (serveInterface H) → Bool
  | ⟨.handleHttp _, _⟩ => true
  | ⟨_, .ok _⟩ => true
  | ⟨_, .error _⟩ => false

/-- The actor may be called under this contract. -/
def ActorInstance.Grants (inst : ActorInstance) (contractId : String) : Prop :=
  ensureActorCapability inst.handler.claims.metadata contractId = .ok ()

/-- No error of the host: the actor may be called, and every operation that
was asked for succeeded, but for an error of the actor. -/
def ActorInstance.Undisturbed (inst : ActorInstance) (invocation : Invocation)
    (t : List (Prog.Event (serveInterface H))) : Prop :=
  inst.Grants invocation.origin.contractId ∧ ∀ e ∈ t, hostOk e = true

/-- No error at all. -/
def ActorInstance.Succeeded (inst : ActorInstance) (invocation : Invocation)
    (t : List (Prog.Event (serveInterface H))) : Prop :=
  inst.Grants invocation.origin.contractId ∧ ∀ e ∈ t, succeeds e = true

/-! ## What makes a call fail -/

/-- An operation in which the actor has no part. -/
def ServeOp.IsHost : ServeOp H → Prop
  | .handleHttp _ | .callActor .. => False
  | _ => True

theorem ServeOp.goodIsOk_hostOk {op : ServeOp H} (h : op.IsHost) :
    Prog.GoodIsOk (F := serveInterface H) hostOk op := by
  cases op <;> first | exact h.elim | exact ⟨fun _ => rfl, fun _ => rfl⟩

theorem ServeOp.goodIsOk_succeeds {op : ServeOp H} (h : op.IsHost) :
    Prog.GoodIsOk (F := serveInterface H) succeeds op := by
  cases op <;> first | exact h.elim | exact ⟨fun _ => rfl, fun _ => rfl⟩

variable {good : Prog.Event (serveInterface H) → Bool}

theorem fetchMessage_failsOnBad
    (hhost : ∀ op : ServeOp H, op.IsHost → Prog.GoodIsOk (F := serveInterface H) good op)
    (chunkThreshold : Nat) (invocation : Invocation) :
    (fetchMessage chunkThreshold invocation : ServeProg H Bytes).FailsOnBad good := by
  unfold fetchMessage
  split
  · exact Prog.failsOnBad_perform (hhost (.getUnchunkified _) trivial)
  · trivial

theorem respond_failsOnBad
    (hhost : ∀ op : ServeOp H, op.IsHost → Prog.GoodIsOk (F := serveInterface H) good op)
    (chunkThreshold : Nat) (id : String) (res : Except String VecU8) :
    (respond chunkThreshold id res : ServeProg H InvocationResponse).FailsOnBad good := by
  cases res with
  | error e => trivial
  | ok msg =>
    simp only [respond]
    split
    · refine .bind (Prog.failsOnBad_attempt (hhost (.chunkifyResponse _ _) trivial) _) fun _ => ?_
      trivial
    · trivial

/-- A granted invocation fails on bad answers only, if what goes on with the
actor's result does. -/
theorem ActorInstance.handleInvocation_failsOnBad {α : Type} {inst : ActorInstance}
    {contractId operation : String} {msg : Bytes} {k : Except String VecU8 → ServeProg H α}
    (hgrant : inst.Grants contractId)
    (hhost : ∀ op : ServeOp H, op.IsHost → Prog.GoodIsOk (F := serveInterface H) good op)
    (hok : ∀ res, (k (.ok res)).FailsOnBad good)
    (hhttp : ∀ req res, good ⟨.handleHttp req, .ok res⟩ = true)
    (herror : ∀ req e, if good ⟨.handleHttp req, .error e⟩ then (k (.error e)).FailsOnBad good
      else ∃ message, k (.error e) = .fail message)
    (hcrash : ∀ e, good ⟨.callActor operation msg, .error e⟩ = false)
    (hcalled : ∀ res, good ⟨.callActor operation msg, .ok (.ok res)⟩ = true)
    (hfailed : ∀ e, if good ⟨.callActor operation msg, .ok (.error e)⟩
      then (k (.error e)).FailsOnBad good else ∃ message, k (.error e) = .fail message) :
    (inst.handleInvocation H contractId operation msg >>= k).FailsOnBad good := by
  have hattempt (op : ServeOp H) (h : op.IsHost) (context : String) :
      (ServeOp.attempt op context).FailsOnBad good := Prog.failsOnBad_attempt (hhost op h) context
  unfold ActorInstance.handleInvocation
  rw [show ensureActorCapability inst.handler.claims.metadata contractId = .ok () from hgrant]
  simp only [bind_assoc]
  refine .bind trivial fun _ => ?_
  refine .bind (hattempt .instantiate trivial _) fun _ => ?_
  refine .bind (hattempt .setStderr trivial _) fun _ => ?_
  split
  · simp only [bind_assoc]
    refine .bind (hattempt (.decodeHttpRequest _) trivial _) fun _ => ?_
    refine .bind (hattempt (.convertRequest _) trivial _) fun req => ?_
    refine .bind (hattempt .intoIncomingHttp trivial _) fun _ => ?_
    intro answer
    cases answer with
    | error e => exact herror req e
    | ok res =>
      rw [if_pos (hhttp req res)]
      show (_ >>= k).FailsOnBad good
      simp only [bind_assoc]
      refine .bind (hattempt (.convertResponse _) trivial _) fun _ => ?_
      exact .bind (hattempt (.encodeHttpResponse _) trivial _) fun res => hok res
  · intro answer
    rcases answer with e | e | res
    · rw [if_neg (by simp [hcrash e])]
      exact ⟨_, rfl⟩
    · exact hfailed e
    · rw [if_pos (hcalled res)]
      show (((ServeOp.attempt .unwrapBytes _ : ServeProg H Unit) >>= fun _ =>
        pure (.ok res)) >>= k).FailsOnBad good
      simp only [bind_assoc]
      exact .bind (hattempt .unwrapBytes trivial _) fun _ => hok res

/-- It fails on errors of the host only. -/
theorem ActorInstance.handleInvocation_failsOnBad_host {inst : ActorInstance} {contractId : String}
    (hgrant : inst.Grants contractId) (operation : String) (msg : Bytes) :
    (inst.handleInvocation H contractId operation msg).FailsOnBad hostOk := by
  rw [← bind_pure (inst.handleInvocation H contractId operation msg)]
  exact handleInvocation_failsOnBad hgrant (fun _ => ServeOp.goodIsOk_hostOk)
    (fun _ => trivial) (fun _ _ => rfl) (fun _ _ => trivial) (fun _ => rfl) (fun _ => rfl)
    fun _ => trivial

/-- With the actor's result taken for that of the program, it fails on errors
of the actor as well. -/
theorem ActorInstance.handleInvocation_failsOnBad_actor {inst : ActorInstance} {contractId : String}
    (hgrant : inst.Grants contractId) (operation : String) (msg : Bytes) :
    (inst.handleInvocation H contractId operation msg >>= Prog.lift).FailsOnBad succeeds := by
  exact handleInvocation_failsOnBad hgrant (fun _ => ServeOp.goodIsOk_succeeds)
    (fun _ => trivial) (fun _ _ => rfl) (fun _ e => ⟨e, rfl⟩) (fun _ => rfl) (fun _ => rfl)
    fun e => ⟨e, rfl⟩

/-! ## What a call returns -/

section Threshold

variable {chunkThreshold : Nat}

/-- What `handle_call` does once it has the invocation. -/
def ActorInstance.answer (inst : ActorInstance) (chunkThreshold : Nat) (invocation : Invocation) :
    ServeProg H Bytes := do
  ServeOp.perform (.validateAntiforgery invocation)
  let msg ← fetchMessage chunkThreshold invocation
  let res ← (inst.handleInvocation H invocation.origin.contractId invocation.operation
    msg).withContext "failed to handle invocation"
  let response ← respond chunkThreshold invocation.id res
  ServeOp.attempt (.encodeResponse response) "failed to encode response"

theorem ActorInstance.handleCall_of_decoded {inst : ActorInstance} {payload : Bytes}
    {invocation : Invocation} {t : List (Prog.Event (serveInterface H))} {r : Except String Bytes}
    (h : (inst.handleCall H chunkThreshold payload).Exec t r)
    (hhead : t.head? = some ⟨.decodeInvocation payload, .ok invocation⟩) :
    ∃ t', t = ⟨.decodeInvocation payload, .ok invocation⟩ :: t' ∧
      (inst.answer (H := H) chunkThreshold invocation).Exec t' r := by
  cases h with
  | @ask _ _ answer t' _ hrest =>
    cases hhead
    exact ⟨t', rfl, hrest⟩

/-- A granted call fails on errors of the host only. -/
theorem ActorInstance.answer_failsOnBad {inst : ActorInstance} {invocation : Invocation}
    (hgrant : inst.Grants invocation.origin.contractId) :
    (inst.answer (H := H) chunkThreshold invocation).FailsOnBad hostOk := by
  have hhost (op : ServeOp H) (h : op.IsHost) := ServeOp.goodIsOk_hostOk h
  refine .bind (Prog.failsOnBad_perform (hhost (.validateAntiforgery _) trivial)) fun _ => ?_
  refine .bind (fetchMessage_failsOnBad hhost _ _) fun msg => ?_
  refine .bind ((inst.handleInvocation_failsOnBad_host hgrant _ msg).withContext _) fun res => ?_
  refine .bind (respond_failsOnBad hhost _ _ res) fun response => ?_
  exact Prog.failsOnBad_attempt (hhost (.encodeResponse _) trivial) _

/-- A call that returns a response: its parts. -/
theorem ActorInstance.answer_parts {inst : ActorInstance} {invocation : Invocation}
    {t : List (Prog.Event (serveInterface H))} {buf : Bytes}
    (h : (inst.answer (H := H) chunkThreshold invocation).Exec t (.ok buf)) :
    ∃ msg res response t₁ t₂ t₃,
      t = ⟨.validateAntiforgery invocation, .ok ()⟩ :: (t₁ ++ (t₂ ++ (t₃ ++
        [⟨.encodeResponse response, .ok buf⟩]))) ∧
      (fetchMessage (H := H) chunkThreshold invocation).Exec t₁ (.ok msg) ∧
      (inst.handleInvocation H invocation.origin.contractId invocation.operation msg).Exec t₂
        (.ok res) ∧
      (respond (H := H) chunkThreshold invocation.id res).Exec t₃ (.ok response) := by
  obtain ⟨_, t₀, _, rfl, hvalidate, h⟩ := Prog.exec_bind_ok h
  obtain ⟨msg, t₁, _, rfl, hfetch, h⟩ := Prog.exec_bind_ok h
  obtain ⟨res, t₂, _, rfl, hinv, h⟩ := Prog.exec_bind_ok h
  obtain ⟨response, t₃, _, rfl, hrespond, hencode⟩ := Prog.exec_bind_ok h
  rw [Prog.exec_perform_ok hvalidate, Prog.exec_attempt_ok hencode]
  exact ⟨msg, res, response, t₁, t₂, t₃, rfl, hfetch, Prog.exec_withContext_ok hinv, hrespond⟩

/-- The response has the id of the request, and an error only if the actor
returned one. -/
theorem respond_reports {id : String} {res : Except String VecU8}
    {t : List (Prog.Event (serveInterface H))} {response : InvocationResponse}
    (h : (respond (H := H) chunkThreshold id res).Exec t (.ok response)) :
    response.invocationId = id ∧ (response.error = none ↔ ∃ msg, res = .ok msg) := by
  cases res with
  | error e =>
    cases h
    simp
  | ok msg =>
    simp only [respond] at h
    split at h
    · obtain ⟨_, _, _, rfl, _, h⟩ := Prog.exec_bind_ok h
      cases h
      simp
    · cases h
      simp

/-- A denied call is an error. -/
theorem ActorInstance.grants_of_exec {inst : ActorInstance} {contractId operation : String}
    {msg : Bytes} {t : List (Prog.Event (serveInterface H))} {res : Except String VecU8}
    (h : (inst.handleInvocation H contractId operation msg).Exec t (.ok res)) :
    inst.Grants contractId := by
  obtain ⟨_, _, _, rfl, hgrant, _⟩ := Prog.exec_bind_ok h
  exact (Prog.exec_lift hgrant).2.symm

/-- `handle_call` returns a response exactly when nothing of the host failed. -/
theorem ActorInstance.handleCall_ok_iff {inst : ActorInstance} {payload : Bytes}
    {invocation : Invocation} {t : List (Prog.Event (serveInterface H))} {r : Except String Bytes}
    (h : (inst.handleCall H chunkThreshold payload).Exec t r)
    (hhead : t.head? = some ⟨.decodeInvocation payload, .ok invocation⟩) :
    (∃ buf, r = .ok buf) ↔ inst.Undisturbed invocation t := by
  obtain ⟨t', rfl, hanswer⟩ := handleCall_of_decoded h hhead
  constructor
  · rintro ⟨buf, rfl⟩
    obtain ⟨_, _, _, _, _, _, _, _, hinv, _⟩ := answer_parts hanswer
    have hgrant := grants_of_exec hinv
    exact ⟨hgrant, List.forall_mem_cons.mpr
      ⟨rfl, ((answer_failsOnBad hgrant).ok_iff hanswer).mp ⟨buf, rfl⟩⟩⟩
  · rintro ⟨hgrant, hall⟩
    exact ((answer_failsOnBad hgrant).ok_iff hanswer).mpr (List.forall_mem_cons.mp hall).2

/-- The response that it returns carries an error exactly when the call did not
succeed. -/
theorem ActorInstance.handleCall_reports {inst : ActorInstance} {payload : Bytes}
    {invocation : Invocation} {t : List (Prog.Event (serveInterface H))} {buf : Bytes}
    (h : (inst.handleCall H chunkThreshold payload).Exec t (.ok buf))
    (hhead : t.head? = some ⟨.decodeInvocation payload, .ok invocation⟩) :
    ∃ response, ⟨.encodeResponse response, .ok buf⟩ ∈ t ∧
      response.invocationId = invocation.id ∧
      (response.error = none ↔ inst.Succeeded invocation t) := by
  obtain ⟨t', rfl, hanswer⟩ := handleCall_of_decoded h hhead
  obtain ⟨msg, res, response, t₁, t₂, t₃, rfl, hfetch, hinv, hrespond⟩ := answer_parts hanswer
  obtain ⟨hid, herror⟩ := respond_reports hrespond
  refine ⟨response, by simp, hid, herror.trans ?_⟩
  have hhost (op : ServeOp H) (h : op.IsHost) := ServeOp.goodIsOk_succeeds h
  have hgrant := grants_of_exec hinv
  have h₁ := ((fetchMessage_failsOnBad hhost _ _).ok_iff hfetch).mp ⟨_, rfl⟩
  have h₃ := ((respond_failsOnBad hhost _ _ _).ok_iff hrespond).mp ⟨_, rfl⟩
  -- The actor's result decides, for the other parts succeed as they returned.
  have h₂ := (inst.handleInvocation_failsOnBad_actor hgrant _ msg).ok_iff
    (hinv.bind (Prog.exec_lift_self res))
  rw [List.append_nil] at h₂
  have hends : succeeds (H := H) ⟨.decodeInvocation payload, .ok invocation⟩ = true ∧
      succeeds (H := H) ⟨.validateAntiforgery invocation, .ok ()⟩ = true ∧
      succeeds (H := H) ⟨.encodeResponse response, .ok buf⟩ = true := ⟨rfl, rfl, rfl⟩
  simp only [ActorInstance.Succeeded, h₂, List.forall_mem_cons, List.forall_mem_append]
  exact ⟨fun hall => ⟨hgrant, hends.1, hends.2.1, h₁, hall, h₃, hends.2.2, by simp⟩,
    fun ⟨_, _, _, _, hall, _⟩ => hall⟩

/-! ## What the caller gets -/

/-- Every execution of `handle_message` is one of `handle_call`, and at most one
attempt to publish. -/
theorem ActorInstance.handleMessage_parts {inst : ActorInstance} {reply : String}
    {payload : Bytes} {t : List (MessageEvent H)} {r : Except String Unit}
    (h : (inst.handleMessage H chunkThreshold (some reply) payload).Exec t r) :
    ∃ res, (inst.handleCall H chunkThreshold payload).Exec (Prog.leftEvents t) res ∧
      Prog.rightOps t = match res with
        | .ok buf => [⟨reply, buf⟩]
        | .error _ => [] := by
  rcases Prog.exec_bind h with ⟨res, t₁, t₂, rfl, hsettle, hrest⟩ | ⟨e, _, hsettle⟩
  · obtain ⟨res', hres, hinl⟩ := Prog.exec_settle hsettle
    cases hres
    obtain ⟨t', rfl, hcall⟩ := Prog.exec_inl hinl
    rw [Prog.leftEvents_append, Prog.rightOps_append]
    refine ⟨res, ?_⟩
    cases res with
    | error e =>
      cases hrest
      simpa [Prog.leftEvents, Prog.rightOps] using hcall
    | ok buf =>
      cases hrest with
      | ask hend =>
        cases hend
        simpa [Prog.leftEvents, Prog.rightOps] using hcall
  · obtain ⟨_, hres, _⟩ := Prog.exec_settle hsettle
    cases hres

/-- One attempt to publish, on the reply subject, of the encoding of a response
that has the id of the request and an error if and only if the call did not
succeed. -/
def ActorInstance.Answered (inst : ActorInstance) (reply : String) (invocation : Invocation)
    (t : List (MessageEvent H)) : Prop :=
  ∃ response buf, Prog.rightOps t = [⟨reply, buf⟩] ∧
    ⟨.encodeResponse response, .ok buf⟩ ∈ Prog.leftEvents t ∧
    response.invocationId = invocation.id ∧
    (response.error ≠ none ↔ ¬ inst.Succeeded invocation (Prog.leftEvents t))

/-- A request with a reply subject is answered exactly when nothing of the
host failed; an error of the actor is an answer. -/
theorem ActorInstance.handleMessage_answered_iff {inst : ActorInstance} {reply : String}
    {payload : Bytes} {invocation : Invocation} {t : List (MessageEvent H)} {r : Except String Unit}
    (h : (inst.handleMessage H chunkThreshold (some reply) payload).Exec t r)
    (hhead : (Prog.leftEvents t).head? = some ⟨.decodeInvocation payload, .ok invocation⟩) :
    inst.Answered reply invocation t ↔ inst.Undisturbed invocation (Prog.leftEvents t) := by
  obtain ⟨res, hcall, hops⟩ := handleMessage_parts h
  rw [← handleCall_ok_iff hcall hhead]
  constructor
  · rintro ⟨response, buf, hone, _⟩
    cases res with
    | error e => cases hops.symm.trans hone
    | ok buf' => exact ⟨buf', rfl⟩
  · rintro ⟨buf, rfl⟩
    obtain ⟨response, hmem, hid, herror⟩ := handleCall_reports hcall hhead
    exact ⟨response, buf, hops, hmem, hid, not_congr herror⟩

end Threshold

/-! ## A request with and without an answer -/

/-- Without HTTP. -/
abbrev plainTypes : HttpTypes := ⟨Unit, Unit, Unit, Unit⟩

/-- An instance of actor `N`, whose calls come from other actors. -/
def plainInstance : ActorInstance :=
  ⟨0, ⟨"default", ⟨"A", "N", 0, none, none, none⟩, ⟨"N", "", ""⟩, 0, 0⟩, ⟨"callee", none⟩⟩

def plainInvocation : Invocation :=
  ⟨"1", ⟨"M", "", ""⟩, ⟨"N", "", ""⟩, "iface.op", [], 0⟩

/-- What an instance gets whose actor returns an error, if the request is
genuine. -/
def failingActor (antiforgery : Except String Unit) :
    (op : ServeOp plainTypes) → Except String op.Reply
  | .decodeInvocation _ => .ok plainInvocation
  | .validateAntiforgery _ => antiforgery
  | .callActor .. => .ok (.error "no such key")
  | .encodeHttpResponse _ => .ok ⟨[], by decide⟩
  | .getUnchunkified _ | .encodeResponse _ => .ok []
  | .instantiate | .setStderr | .decodeHttpRequest _ | .convertRequest _ | .intoIncomingHttp
  | .handleHttp _ | .convertResponse _ | .unwrapBytes | .chunkifyResponse .. => .ok ()

/-- The message is handled; a publication succeeds. -/
def failingRun (antiforgery : Except String Unit) :
    List (MessageEvent plainTypes) × Except String Unit :=
  (plainInstance.handleMessage plainTypes 1024 (some "_INBOX.1") []).follow fun
    | .inl op => failingActor antiforgery op
    | .inr _ => .ok ()

theorem failingRun_exec (antiforgery : Except String Unit) :
    (plainInstance.handleMessage plainTypes 1024 (some "_INBOX.1") []).Exec
      (failingRun antiforgery).1 (failingRun antiforgery).2 :=
  Prog.exec_follow _ _

/-- The error of an actor is an answer. -/
theorem actorError_answered :
    plainInstance.Answered "_INBOX.1" plainInvocation (failingRun (.ok ())).1 :=
  (ActorInstance.handleMessage_answered_iff (failingRun_exec (.ok ())) rfl).mpr
    ⟨rfl, List.all_eq_true.mp rfl⟩

/-- A request that fails the antiforgery check is not answered. -/
theorem forgedRequest_unanswered :
    ¬ ∀ (H : HttpTypes) (chunkThreshold : Nat) (inst : ActorInstance) (reply : String)
      (payload : Bytes) (invocation : Invocation) (t : List (MessageEvent H))
      (r : Except String Unit),
      (inst.handleMessage H chunkThreshold (some reply) payload).Exec t r →
        (Prog.leftEvents t).head? = some ⟨.decodeInvocation payload, .ok invocation⟩ →
          inst.Answered reply invocation t := by
  intro h
  obtain ⟨_, _, hone, _⟩ := h plainTypes 1024 plainInstance "_INBOX.1" [] plainInvocation _ _
    (failingRun_exec (.error "invalid issuer")) rfl
  have hnone : Prog.rightOps (failingRun (.error "invalid issuer")).1 = [] := rfl
  cases hnone.symm.trans hone

end KasmCloud
