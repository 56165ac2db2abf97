/-
KasmCloud.Host.Guard — what runs an actor (`crates/host/src/actor.rs`).

An instance answers whatever message comes to its subject. What it asks for
while it does so has an order (`ServeOp.stage`): nothing is asked for twice,
nothing but the decoding comes before the antiforgery check, and the actor is
run for a genuine invocation only whose contract it may serve, on the message
of that invocation. What is encoded as the response is what the actor returned
(`handleMessage_guarded`).
-/
import KasmCloud.Host.Replies
import KasmCloud.Host.Transport

namespace KasmCloud

open Lib

variable {H : HttpTypes}

abbrev ServeEvent (H : HttpTypes) := Prog.Event (serveInterface H)

/-! ## The order of a call -/

/-- The place of an operation in a call. -/
def ServeOp.stage : ServeOp H → Nat
  | .decodeInvocation _ => 0
  | .validateAntiforgery _ => 1
  | .getUnchunkified _ => 2
  | .instantiate => 3
  | .setStderr => 4
  | .decodeHttpRequest _ => 5
  | .convertRequest _ => 6
  | .intoIncomingHttp => 7
  | .handleHttp _ | .callActor .. => 8
  | .convertResponse _ | .unwrapBytes => 9
  | .encodeHttpResponse _ => 10
  | .chunkifyResponse .. => 11
  | .encodeResponse _ => 12

section Order

variable {inst : ActorInstance} {chunkThreshold : Nat}

/-- An operation comes before what has higher stages. -/
theorem ServeOp.forward_then {α : Type} {op : ServeOp H} {context : String}
    {f : op.Reply → ServeProg H α} {n m : Nat} (hn : n ≤ op.stage) (hm : op.stage < m)
    (hf : ∀ reply, (f reply).Forward ServeOp.stage m (op.stage + 1)) :
    (op.attempt context >>= f).Forward ServeOp.stage m n :=
  .bind (Prog.forward_attempt hn (Nat.lt_succ_self op.stage) context) hf (by omega) hm

theorem fetchMessage_forward (invocation : Invocation) :
    (fetchMessage (H := H) chunkThreshold invocation).Forward ServeOp.stage 3 2 := by
  unfold fetchMessage
  split
  · exact Prog.forward_perform (by simp [ServeOp.stage]) (by simp [ServeOp.stage])
  · trivial

theorem handleInvocation_forward (contractId operation : String) (msg : Bytes) :
    (inst.handleInvocation H contractId operation msg).Forward ServeOp.stage 11 3 := by
  unfold ActorInstance.handleInvocation
  refine .bind (Prog.forward_lift (m := 3) _) (fun _ => ?_) (by simp) (by simp)
  refine ServeOp.forward_then (by simp [ServeOp.stage]) (by simp [ServeOp.stage]) fun _ => ?_
  refine ServeOp.forward_then (by simp [ServeOp.stage]) (by simp [ServeOp.stage]) fun _ => ?_
  split
  · refine ServeOp.forward_then (by simp [ServeOp.stage]) (by simp [ServeOp.stage]) fun _ => ?_
    refine ServeOp.forward_then (by simp [ServeOp.stage]) (by simp [ServeOp.stage]) fun _ => ?_
    refine ServeOp.forward_then (by simp [ServeOp.stage]) (by simp [ServeOp.stage]) fun _ => ?_
    refine ⟨by simp [ServeOp.stage], by simp [ServeOp.stage], fun answer => ?_⟩
    cases answer with
    | error e => trivial
    | ok res =>
      refine ServeOp.forward_then (by simp [ServeOp.stage]) (by simp [ServeOp.stage]) fun _ => ?_
      refine ServeOp.forward_then (by simp [ServeOp.stage]) (by simp [ServeOp.stage]) fun _ => ?_
      trivial
  · refine ServeOp.forward_then (by simp [ServeOp.stage]) (by simp [ServeOp.stage]) fun res => ?_
    cases res with
    | error e => trivial
    | ok bytes =>
      refine ServeOp.forward_then (by simp [ServeOp.stage]) (by simp [ServeOp.stage]) fun _ => ?_
      trivial

theorem respond_forward (id : String) (res : Except String VecU8) :
    (respond (H := H) chunkThreshold id res).Forward ServeOp.stage 12 11 := by
  unfold respond
  split
  · split
    · refine ServeOp.forward_then (by simp [ServeOp.stage]) (by simp [ServeOp.stage]) fun _ => ?_
      trivial
    · trivial
  · trivial

/-- What follows the fetching of the message. -/
def ActorInstance.serve (inst : ActorInstance) (chunkThreshold : Nat) (invocation : Invocation)
    (msg : Bytes) : ServeProg H Bytes := do
  let res ← (inst.handleInvocation H invocation.origin.contractId invocation.operation
    msg).withContext "failed to handle invocation"
  let response ← respond chunkThreshold invocation.id res
  ServeOp.attempt (.encodeResponse response) "failed to encode response"

theorem serve_forward (invocation : Invocation) (msg : Bytes) :
    (inst.serve (H := H) chunkThreshold invocation msg).Forward ServeOp.stage 13 3 := by
  refine .bind ((handleInvocation_forward _ _ _).withContext _) (fun _ => ?_) (by simp) (by simp)
  refine .bind (respond_forward _ _) (fun _ => ?_) (by simp) (by simp)
  exact Prog.forward_attempt (by simp [ServeOp.stage]) (by simp [ServeOp.stage]) _

theorem handleCall_forward (payload : Bytes) :
    (inst.handleCall H chunkThreshold payload).Forward ServeOp.stage 13 0 := by
  unfold ActorInstance.handleCall
  refine ServeOp.forward_then (by simp [ServeOp.stage]) (by simp [ServeOp.stage]) fun _ => ?_
  refine .bind (k := 2) (Prog.forward_perform (by simp [ServeOp.stage]) (by simp [ServeOp.stage]))
    (fun _ => ?_) (by simp [ServeOp.stage]) (by simp)
  refine .bind (fetchMessage_forward _) (fun msg => ?_) (by simp) (by simp)
  exact serve_forward _ msg

end Order

/-! ## What is handed on -/

/-- The message of an invocation: its own, or for a long one that of the chunk
store. -/
def MessageOf (chunkThreshold : Nat) (invocation : Invocation) (t : List (ServeEvent H))
    (msg : Bytes) : Prop :=
  if chunkThreshold < invocation.contentLength then
    ⟨.getUnchunkified invocation.id, .ok msg⟩ ∈ t
  else msg = invocation.msg

/-- The actor is handed the message, an HTTP handler what was decoded from
it. -/
def ServeOp.Handed (contractId operation : String) (msg : Bytes) (t : List (ServeEvent H)) :
    ServeOp H → Prop
  | .callActor op m => ¬ servesHttp contractId operation ∧ op = operation ∧ m = msg
  | .handleHttp req =>
    servesHttp contractId operation ∧ ∃ compat,
      ⟨.decodeHttpRequest msg, .ok compat⟩ ∈ t ∧ ⟨.convertRequest compat, .ok req⟩ ∈ t
  | _ => True

/-- What the actor returned. -/
inductive ActorReturned (t : List (ServeEvent H)) : Except String VecU8 → Prop where
  | called {operation : String} {msg : Bytes} {bytes : VecU8} :
      ⟨.callActor operation msg, .ok (.ok bytes)⟩ ∈ t → ⟨.unwrapBytes, .ok ()⟩ ∈ t →
        ActorReturned t (.ok bytes)
  | refused {operation : String} {msg : Bytes} {e : String} :
      ⟨.callActor operation msg, .ok (.error e)⟩ ∈ t → ActorReturned t (.error e)
  | failed {req : H.Request} {e : String} :
      ⟨.handleHttp req, .error e⟩ ∈ t → ActorReturned t (.error e)
  | served {req : H.Request} {res : H.Response} {compat : H.CompatResponse} {bytes : VecU8} :
      ⟨.handleHttp req, .ok res⟩ ∈ t → ⟨.convertResponse res, .ok compat⟩ ∈ t →
        ⟨.encodeHttpResponse compat, .ok bytes⟩ ∈ t → ActorReturned t (.ok bytes)

section Flow

variable {inst : ActorInstance} {chunkThreshold : Nat} {t t' : List (ServeEvent H)}

theorem ActorReturned.mono {res : Except String VecU8} (h : ActorReturned t res) (hsub : t ⊆ t') :
    ActorReturned t' res := by
  cases h with
  | called hcall hunwrap => exact .called (hsub hcall) (hsub hunwrap)
  | refused hmem => exact .refused (hsub hmem)
  | failed hmem => exact .failed (hsub hmem)
  | served hhandle hconvert hencode =>
    exact .served (hsub hhandle) (hsub hconvert) (hsub hencode)

theorem ServeOp.Handed.mono {contractId operation : String} {msg : Bytes} {op : ServeOp H}
    (h : op.Handed contractId operation msg t) (hsub : t ⊆ t') :
    op.Handed contractId operation msg t' := by
  cases op with
  | handleHttp req =>
    obtain ⟨hserves, compat, hdecode, hconvert⟩ := h
    exact ⟨hserves, compat, hsub hdecode, hsub hconvert⟩
  | callActor op m => exact h
  | _ => trivial

/-- The rule of sequence for an operation that the call needs. -/
theorem ServeOp.wp_then {α : Type} {op : ServeOp H} {context : String}
    {f : op.Reply → ServeProg H α} {Q : List (ServeEvent H) → Except String α → Prop} :
    (op.attempt context >>= f).wp t Q ↔
      (∀ reply, (f reply).wp (t ++ [⟨op, .ok reply⟩]) Q) ∧
        ∀ e, Q (t ++ [⟨op, .error e⟩]) (.error context) := by
  rw [Prog.wp_bind]
  exact Prog.wp_attempt (F := serveInterface H) op context t _

theorem fetchMessage_flow {invocation : Invocation} {r : Except String Bytes}
    (h : (fetchMessage (H := H) chunkThreshold invocation).Exec t r) :
    ∀ msg, r = .ok msg → MessageOf chunkThreshold invocation t msg := by
  rintro msg rfl
  unfold fetchMessage at h
  unfold MessageOf
  split
  · rename_i hlong
    rw [if_pos hlong] at h
    rw [Prog.exec_perform_ok h]
    exact List.mem_singleton.mpr rfl
  · rename_i hshort
    rw [if_neg hshort] at h
    cases h
    rfl

/-- Only the message of a long invocation is fetched. -/
theorem fetchMessage_asks {invocation : Invocation} {r : Except String Bytes}
    (h : (fetchMessage (H := H) chunkThreshold invocation).Exec t r) :
    ∀ e ∈ t, e.1 = .getUnchunkified invocation.id ∧ chunkThreshold < invocation.contentLength := by
  unfold fetchMessage at h
  split at h
  · rename_i hlong
    cases h with
    | @ask _ _ answer t _ hend =>
      cases answer <;> cases hend <;> simpa using hlong
  · cases h
    exact nofun

/-- Every operation of a handled invocation: its contract is granted, and the
actor is handed the message. The result is the actor's. -/
theorem handleInvocation_flow {contractId operation : String} {msg : Bytes}
    {r : Except String (Except String VecU8)}
    (h : (inst.handleInvocation H contractId operation msg).Exec t r) :
    (∀ e ∈ t, inst.Grants contractId ∧ e.1.Handed contractId operation msg t) ∧
      ∀ res, r = .ok res → inst.Grants contractId ∧ ActorReturned t res := by
  rcases Prog.exec_bind h with ⟨_, t₁, t₂, rfl, hgrant, hrest⟩ | ⟨e, rfl, hdenied⟩
  · obtain ⟨rfl, hok⟩ := Prog.exec_lift hgrant
    have hgrants : inst.Grants contractId := hok.symm
    simp only [List.nil_append, hgrants, true_and]
    suffices hwp : Prog.wp (F := serveInterface H) _ [] fun t r =>
        (∀ e ∈ t, e.1.Handed contractId operation msg t) ∧
          ∀ res, r = .ok res → ActorReturned t res by
      exact Prog.exec_wp hrest hwp
    refine ServeOp.wp_then.mpr ⟨fun _ => ?_, fun e => by simp [ServeOp.Handed]⟩
    refine ServeOp.wp_then.mpr ⟨fun _ => ?_, fun e => by simp [ServeOp.Handed]⟩
    split
    · rename_i hserves
      refine ServeOp.wp_then.mpr ⟨fun compat => ?_, fun e => by simp [ServeOp.Handed]⟩
      refine ServeOp.wp_then.mpr ⟨fun req => ?_, fun e => by simp [ServeOp.Handed]⟩
      refine ServeOp.wp_then.mpr ⟨fun _ => ?_, fun e => by simp [ServeOp.Handed]⟩
      refine Prog.forall_answer.mpr ⟨fun res => ?_, fun e => ?_⟩
      · refine ServeOp.wp_then.mpr ⟨fun sent => ?_, fun e => by simp [ServeOp.Handed, hserves]⟩
        refine ServeOp.wp_then.mpr ⟨fun bytes => ?_, fun e => by simp [ServeOp.Handed, hserves]⟩
        refine ⟨by simp [ServeOp.Handed, hserves], fun result hresult => ?_⟩
        cases hresult
        exact @ActorReturned.served _ _ req res sent _ (by simp) (by simp) (by simp)
      · refine ⟨by simp [ServeOp.Handed, hserves], fun result hresult => ?_⟩
        cases hresult
        exact @ActorReturned.failed _ _ req _ (by simp)
    · rename_i hserves
      refine ServeOp.wp_then.mpr ⟨fun res => ?_, fun e => by simp [ServeOp.Handed, hserves]⟩
      cases res with
      | error e =>
        refine ⟨by simp [ServeOp.Handed, hserves], fun result hresult => ?_⟩
        cases hresult
        exact @ActorReturned.refused _ _ operation msg _ (by simp)
      | ok bytes =>
        refine ServeOp.wp_then.mpr ⟨fun _ => ?_, fun e => by simp [ServeOp.Handed, hserves]⟩
        refine ⟨by simp [ServeOp.Handed, hserves], fun result hresult => ?_⟩
        cases hresult
        exact @ActorReturned.called _ _ operation msg _ (by simp) (by simp)
  · obtain ⟨rfl, -⟩ := Prog.exec_lift hdenied
    exact ⟨nofun, nofun⟩

/-- The response is the one to the actor's result, and a long message is in the
chunk store. -/
theorem respond_flow {id : String} {res : Except String VecU8}
    {r : Except String InvocationResponse}
    (h : (respond (H := H) chunkThreshold id res).Exec t r) :
    (∀ e ∈ t, ∃ bytes, res = .ok bytes ∧ e.1 = .chunkifyResponse id bytes.val) ∧
      ∀ response, r = .ok response → response = responseTo chunkThreshold id res ∧
        ∀ bytes, res = .ok bytes → chunkThreshold < bytes.val.length →
          ⟨.chunkifyResponse id bytes.val, .ok ()⟩ ∈ t := by
  suffices hwp : (respond (H := H) chunkThreshold id res).wp [] fun t r =>
      (∀ e ∈ t, ∃ bytes, res = .ok bytes ∧ e.1 = .chunkifyResponse id bytes.val) ∧
        ∀ response, r = .ok response → response = responseTo chunkThreshold id res ∧
          ∀ bytes, res = .ok bytes → chunkThreshold < bytes.val.length →
            ⟨.chunkifyResponse id bytes.val, .ok ()⟩ ∈ t by
    exact Prog.exec_wp h hwp
  cases res with
  | error e =>
    refine ⟨nofun, fun response hresponse => ?_⟩
    cases hresponse
    exact ⟨rfl, nofun⟩
  | ok msg =>
    simp only [respond]
    split
    · rename_i hlong
      refine ServeOp.wp_then.mpr ⟨fun _ => ?_, fun e => by simp⟩
      refine ⟨by simp, fun response hresponse => ?_⟩
      cases hresponse
      simp only [responseTo, if_pos hlong]
      refine ⟨trivial, fun bytes hbytes _ => ?_⟩
      cases hbytes
      simp
    · rename_i hshort
      refine ⟨nofun, fun response hresponse => ?_⟩
      cases hresponse
      simp only [responseTo, if_neg hshort]
      refine ⟨trivial, fun bytes hbytes hlong => ?_⟩
      cases hbytes
      exact absurd hlong hshort

end Flow

/-! ## Guarded calls -/

/-- How an instance serves an invocation with a message: the check went
through, the contract is granted, the actor is handed the message, and what is
stored or encoded is what it returned. -/
structure ActorInstance.Serves (inst : ActorInstance) (chunkThreshold : Nat)
    (invocation : Invocation) (msg : Bytes) (t : List (ServeEvent H)) : Prop where
  genuine : ⟨.validateAntiforgery invocation, .ok ()⟩ ∈ t
  message : MessageOf chunkThreshold invocation t msg
  granted : inst.Grants invocation.origin.contractId
  handed : ∀ e ∈ t, e.1.Handed invocation.origin.contractId invocation.operation msg t
  stored : ∀ id bytes answer, ⟨.chunkifyResponse id bytes, answer⟩ ∈ t →
    id = invocation.id ∧ ∃ vec : VecU8, vec.val = bytes ∧ ActorReturned t (.ok vec)
  responded : ∀ response answer, ⟨.encodeResponse response, answer⟩ ∈ t →
    ∃ res, ActorReturned t res ∧ response = responseTo chunkThreshold invocation.id res ∧
      ∀ bytes, res = .ok bytes → chunkThreshold < bytes.val.length →
        ⟨.chunkifyResponse invocation.id bytes.val, .ok ()⟩ ∈ t

/-- What an instance asks for while it answers a payload: nothing twice, only
the decoding before the check, from the chunk store the message of the
invocation, and the rest for a genuine invocation that it may serve. -/
structure ActorInstance.Guarded (inst : ActorInstance) (chunkThreshold : Nat) (payload : Bytes)
    (t : List (ServeEvent H)) : Prop where
  inOrder : (t.map fun e => e.1.stage).Pairwise (· < ·)
  fetched : ∀ id answer, ⟨.getUnchunkified id, answer⟩ ∈ t → ∃ invocation,
    ⟨.decodeInvocation payload, .ok invocation⟩ ∈ t ∧ id = invocation.id ∧
      chunkThreshold < invocation.contentLength
  genuine : ∀ e ∈ t, 2 ≤ e.1.stage → ∃ invocation,
    ⟨.decodeInvocation payload, .ok invocation⟩ ∈ t ∧ ⟨.validateAntiforgery invocation, .ok ()⟩ ∈ t
  serves : ∀ e ∈ t, 3 ≤ e.1.stage → ∃ invocation msg,
    ⟨.decodeInvocation payload, .ok invocation⟩ ∈ t ∧ inst.Serves chunkThreshold invocation msg t

section Guarded

variable {inst : ActorInstance} {chunkThreshold : Nat} {t : List (ServeEvent H)}

/-- Once the message is at hand. -/
theorem serve_flow {invocation : Invocation} {msg : Bytes} {r : Except String Bytes}
    (h : (inst.serve (H := H) chunkThreshold invocation msg).Exec t r) :
    (∀ e ∈ t, inst.Grants invocation.origin.contractId ∧
        e.1.Handed invocation.origin.contractId invocation.operation msg t) ∧
      (∀ id bytes answer, ⟨.chunkifyResponse id bytes, answer⟩ ∈ t →
        id = invocation.id ∧ ∃ vec : VecU8, vec.val = bytes ∧ ActorReturned t (.ok vec)) ∧
      ∀ response answer, ⟨.encodeResponse response, answer⟩ ∈ t →
        ∃ res, ActorReturned t res ∧ response = responseTo chunkThreshold invocation.id res ∧
          ∀ bytes, res = .ok bytes → chunkThreshold < bytes.val.length →
            ⟨.chunkifyResponse invocation.id bytes.val, .ok ()⟩ ∈ t := by
  have hstages {t₁ : List (ServeEvent H)} {r₁ : Except String (Except String VecU8)}
      (hinv : (inst.handleInvocation H invocation.origin.contractId invocation.operation msg).Exec
        t₁ r₁) : ∀ e ∈ t₁, e.1.stage < 11 :=
    fun e he => (((handleInvocation_forward _ _ _).exec hinv).2 e he).2
  rcases Prog.exec_bind h with ⟨res, t₁, t₂, rfl, hinv, hrest⟩ | ⟨e, rfl, hinv⟩
  · have hinv := Prog.exec_withContext_ok hinv
    obtain ⟨hhanded, hreturned⟩ := handleInvocation_flow hinv
    obtain ⟨hgrants, hreturned⟩ := hreturned res rfl
    have hreturned {t₃ : List (ServeEvent H)} : ActorReturned (t₁ ++ t₃) res :=
      hreturned.mono (List.subset_append_left _ _)
    -- what comes after the actor's result
    have hlater : ∀ e ∈ t₂, (∃ bytes, res = .ok bytes ∧
          e.1 = .chunkifyResponse invocation.id bytes.val) ∨
        ∃ response, e.1 = .encodeResponse response ∧
          response = responseTo chunkThreshold invocation.id res ∧
          ∀ bytes, res = .ok bytes → chunkThreshold < bytes.val.length →
            ⟨.chunkifyResponse invocation.id bytes.val, .ok ()⟩ ∈ t₂ := by
      rcases Prog.exec_bind hrest with ⟨response, t₃, t₄, rfl, hrespond, hencode⟩ |
        ⟨e, -, hrespond⟩
      · obtain ⟨hchunks, hresponse⟩ := respond_flow hrespond
        obtain ⟨heq, hstored⟩ := hresponse response rfl
        intro e he
        rcases List.mem_append.mp he with he | he
        · exact .inl (hchunks e he)
        · refine .inr ⟨response, ?_, heq, fun bytes hbytes hlong =>
            List.mem_append_left _ (hstored bytes hbytes hlong)⟩
          cases hencode with
          | @ask _ _ answer t _ hend =>
            cases answer <;> cases hend <;> rw [List.mem_singleton.mp he]
      · exact fun e he => .inl ((respond_flow hrespond).1 e he)
    refine ⟨fun e he => ?_, fun id bytes answer he => ?_, fun response answer he => ?_⟩
    · rcases List.mem_append.mp he with he | he
      · exact ⟨hgrants, (hhanded e he).2.mono (List.subset_append_left _ _)⟩
      · refine ⟨hgrants, ?_⟩
        rcases hlater e he with ⟨bytes, -, hop⟩ | ⟨response, hop, -⟩
        · rw [hop]
          trivial
        · rw [hop]
          trivial
    · rcases List.mem_append.mp he with he | he
      · have hlow := hstages hinv _ he
        simp [ServeOp.stage] at hlow
      · rcases hlater _ he with ⟨vec, rfl, hop⟩ | ⟨response, hop, -⟩
        · cases hop
          exact ⟨rfl, vec, rfl, hreturned⟩
        · cases hop
    · rcases List.mem_append.mp he with he | he
      · have hlow := hstages hinv _ he
        simp [ServeOp.stage] at hlow
      · rcases hlater _ he with ⟨vec, -, hop⟩ | ⟨response', hop, heq, hstored⟩
        · cases hop
        · cases hop
          exact ⟨res, hreturned, heq, fun bytes hbytes hlong =>
            List.mem_append_right _ (hstored bytes hbytes hlong)⟩
  · obtain ⟨r', hinv⟩ := Prog.exec_withContext hinv
    refine ⟨(handleInvocation_flow hinv).1, fun id bytes answer he => ?_,
      fun response answer he => ?_⟩
    · have hlow := hstages hinv _ he
      simp [ServeOp.stage] at hlow
    · have hlow := hstages hinv _ he
      simp [ServeOp.stage] at hlow

/-- Once the invocation has passed the check. -/
theorem genuine_flow {invocation : Invocation} {r : Except String Bytes}
    (h : ((fetchMessage (H := H) chunkThreshold invocation) >>= fun msg =>
      inst.serve chunkThreshold invocation msg).Exec t r)
    (pre : List (ServeEvent H)) (hpre : ∀ e ∈ pre, e.1.stage < 2)
    (hgenuine : ⟨.validateAntiforgery invocation, .ok ()⟩ ∈ pre) :
    ∀ e ∈ pre ++ t, 3 ≤ e.1.stage →
      ∃ msg, inst.Serves chunkThreshold invocation msg (pre ++ t) := by
  intro e he hstage
  have hlate : e ∈ t := by
    rcases List.mem_append.mp he with he | he
    · have hlow := hpre e he
      omega
    · exact he
  rcases Prog.exec_bind h with ⟨msg, t₁, t₂, rfl, hfetch, hserve⟩ | ⟨_, -, hfetch⟩
  · have hearly : ∀ e ∈ pre ++ t₁, e.1.stage < 3 := by
      intro e he
      rcases List.mem_append.mp he with he | he
      · have hlow := hpre e he
        omega
      · exact (((fetchMessage_forward invocation).exec hfetch).2 e he).2
    have hin : e ∈ t₂ := by
      rcases List.mem_append.mp hlate with hfirst | hsecond
      · have hlow := hearly e (List.mem_append_right _ hfirst)
        omega
      · exact hsecond
    obtain ⟨hhanded, hstored, hresponded⟩ := serve_flow hserve
    have hsub : t₂ ⊆ pre ++ (t₁ ++ t₂) := fun e he =>
      List.mem_append_right _ (List.mem_append_right _ he)
    -- an operation of the last part is not among those before it
    have hlast {op : ServeOp H} {answer : Except String op.Reply}
        (he : ⟨op, answer⟩ ∈ pre ++ (t₁ ++ t₂)) (hstage : 3 ≤ op.stage) :
        (⟨op, answer⟩ : ServeEvent H) ∈ t₂ := by
      rw [← List.append_assoc] at he
      rcases List.mem_append.mp he with he | he
      · have hlow := hearly _ he
        simp only at hlow
        omega
      · exact he
    refine ⟨msg, List.mem_append_left _ hgenuine, ?_, (hhanded e hin).1, fun e he => ?_,
      fun id bytes answer he => ?_, fun response answer he => ?_⟩
    · have hmessage := fetchMessage_flow hfetch msg rfl
      unfold MessageOf at hmessage ⊢
      split
      · rename_i hlong
        rw [if_pos hlong] at hmessage
        exact List.mem_append_right _ (List.mem_append_left _ hmessage)
      · rename_i hshort
        rw [if_neg hshort] at hmessage
        exact hmessage
    · by_cases hstage : 3 ≤ e.1.stage
      · exact (hhanded e (hlast he hstage)).2.mono hsub
      · cases hop : e.1 with
        | callActor op m => simp [hop, ServeOp.stage] at hstage
        | handleHttp req => simp [hop, ServeOp.stage] at hstage
        | _ => trivial
    · obtain ⟨hid, vec, hvec, hreturned⟩ :=
        hstored id bytes answer (hlast he (by simp [ServeOp.stage]))
      exact ⟨hid, vec, hvec, hreturned.mono hsub⟩
    · obtain ⟨res, hreturned, heq, hlong⟩ :=
        hresponded response answer (hlast he (by simp [ServeOp.stage]))
      exact ⟨res, hreturned.mono hsub, heq, fun bytes hbytes hlen => hsub (hlong bytes hbytes hlen)⟩
  · have hlow := (((fetchMessage_forward invocation).exec hfetch).2 e hlate).2
    omega

/-- What is fetched once the invocation has passed the check. -/
theorem fetched_flow {invocation : Invocation} {r : Except String Bytes}
    (h : ((fetchMessage (H := H) chunkThreshold invocation) >>= fun msg =>
      inst.serve chunkThreshold invocation msg).Exec t r) {id : String}
    {answer : Except String Bytes} (he : ⟨.getUnchunkified id, answer⟩ ∈ t) :
    id = invocation.id ∧ chunkThreshold < invocation.contentLength := by
  have hfirst {t₁ : List (ServeEvent H)} {r₁ : Except String Bytes}
      (hfetch : (fetchMessage (H := H) chunkThreshold invocation).Exec t₁ r₁)
      (he : ⟨.getUnchunkified id, answer⟩ ∈ t₁) :
      id = invocation.id ∧ chunkThreshold < invocation.contentLength := by
    obtain ⟨hop, hlong⟩ := fetchMessage_asks hfetch _ he
    exact ⟨ServeOp.getUnchunkified.inj hop, hlong⟩
  rcases Prog.exec_bind h with ⟨msg, t₁, t₂, rfl, hfetch, hserve⟩ | ⟨_, -, hfetch⟩
  · rcases List.mem_append.mp he with he | he
    · exact hfirst hfetch he
    · have hlate := (((serve_forward invocation msg).exec hserve).2 _ he).1
      simp [ServeOp.stage] at hlate
  · exact hfirst hfetch he

theorem ActorInstance.handleCall_guarded {payload : Bytes} {r : Except String Bytes}
    (h : (inst.handleCall H chunkThreshold payload).Exec t r) :
    inst.Guarded chunkThreshold payload t := by
  have horder := ((handleCall_forward payload).exec h).1
  cases h with
  | @ask _ _ answer t₁ _ hrest =>
    cases answer with
    | error e =>
      -- the payload is no invocation
      cases hrest
      exact ⟨horder, by simp, by simp [ServeOp.stage], by simp [ServeOp.stage]⟩
    | ok invocation =>
      have hanswer : (inst.answer (H := H) chunkThreshold invocation).Exec t₁ r := hrest
      cases hanswer with
      | @ask _ _ answer t₂ _ hrest =>
        cases answer with
        | error e =>
          -- the invocation fails the check
          cases hrest
          exact ⟨horder, by simp, by simp [ServeOp.stage], by simp [ServeOp.stage]⟩
        | ok _ =>
          have hflow := @genuine_flow H inst chunkThreshold t₂ invocation r hrest
            [⟨.decodeInvocation payload, .ok invocation⟩, ⟨.validateAntiforgery invocation, .ok ()⟩]
            (by simp [ServeOp.stage]) (by simp)
          refine ⟨horder, fun id answer he => ⟨invocation, by simp, ?_⟩,
            fun e _ _ => ⟨invocation, by simp, by simp⟩, fun e he hstage => ?_⟩
          · exact @fetched_flow H inst chunkThreshold t₂ invocation r hrest id answer
              (by simpa using he)
          obtain ⟨msg, hserves⟩ := hflow e he hstage
          exact ⟨invocation, msg, by simp, hserves⟩

/-- What a call returns is an encoded response. -/
theorem ActorInstance.handleCall_encodes {payload buf : Bytes}
    (h : (inst.handleCall H chunkThreshold payload).Exec t (.ok buf)) :
    ∃ response, ⟨.encodeResponse response, .ok buf⟩ ∈ t := by
  obtain ⟨invocation, t₀, _, rfl, -, h⟩ := Prog.exec_bind_ok h
  have hanswer : (inst.answer (H := H) chunkThreshold invocation).Exec _ (.ok buf) := h
  obtain ⟨_, _, response, t₁, t₂, t₃, rfl, -⟩ := answer_parts hanswer
  exact ⟨response, by simp⟩

/-- Every execution of `handle_message` is one of `handle_call`. What it
returns is published on the reply subject, if there is one. -/
theorem ActorInstance.handleMessage_published {reply : Option String} {payload : Bytes}
    {t : List (MessageEvent H)} {r : Except String Unit}
    (h : (inst.handleMessage H chunkThreshold reply payload).Exec t r) :
    ∃ res, (inst.handleCall H chunkThreshold payload).Exec (Prog.leftEvents t) res ∧
      Prog.rightOps t = match reply, res with
        | some reply, .ok buf => [⟨reply, buf⟩]
        | _, _ => [] := by
  cases reply with
  | some reply =>
    obtain ⟨res, hcall, hops⟩ := handleMessage_parts h
    refine ⟨res, hcall, ?_⟩
    cases res <;> exact hops
  | none =>
    rcases Prog.exec_bind h with ⟨res, t₁, t₂, rfl, hsettle, hrest⟩ | ⟨e, _, hsettle⟩
    · obtain ⟨res', hres, hinl⟩ := Prog.exec_settle hsettle
      cases hres
      obtain ⟨t', rfl, hcall⟩ := Prog.exec_inl hinl
      rw [Prog.leftEvents_append, Prog.rightOps_append]
      cases res <;> cases hrest <;>
        exact ⟨_, by simpa [Prog.leftEvents] using hcall, rfl⟩
    · obtain ⟨_, hres, _⟩ := Prog.exec_settle hsettle
      cases hres

/-- The attempt to publish comes after everything else. -/
theorem ActorInstance.handleMessage_last {reply : Option String} {payload : Bytes}
    {t : List (MessageEvent H)} {r : Except String Unit}
    (h : (inst.handleMessage H chunkThreshold reply payload).Exec t r) :
    ∃ published, t = (Prog.leftEvents t).map Prog.eventInl ++ published ∧
      published.length ≤ 1 := by
  rcases Prog.exec_bind h with ⟨res, t₁, t₂, rfl, hsettle, hrest⟩ | ⟨e, _, hsettle⟩
  · obtain ⟨res', -, hinl⟩ := Prog.exec_settle hsettle
    obtain ⟨t', rfl, -⟩ := Prog.exec_inl hinl
    have hlast : Prog.leftEvents t₂ = [] ∧ t₂.length ≤ 1 := by
      cases reply with
      | none => cases res <;> cases hrest <;> exact ⟨rfl, Nat.zero_le 1⟩
      | some reply =>
        cases res with
        | error e =>
          cases hrest
          exact ⟨rfl, Nat.zero_le 1⟩
        | ok buf =>
          cases hrest with
          | ask hend =>
            cases hend
            exact ⟨rfl, le_rfl⟩
    exact ⟨t₂, by rw [Prog.leftEvents_append, hlast.1, List.append_nil], hlast.2⟩
  · obtain ⟨_, hres, _⟩ := Prog.exec_settle hsettle
    cases hres

end Guarded

/-- **What a message makes an instance do**: whoever sent it and whatever the
surroundings answer, the actor is run once at most, for an invocation that
passed the antiforgery check and whose contract the actor was granted, and is
handed the message of that invocation. What is published is at most one
encoded response, after everything else and on the reply subject, and it
carries what the actor returned. -/
theorem ActorInstance.handleMessage_guarded (H : HttpTypes) (chunkThreshold : Nat)
    (inst : ActorInstance) (reply : Option String) (payload : Bytes) {t : List (MessageEvent H)}
    {r : Except String Unit} (h : (inst.handleMessage H chunkThreshold reply payload).Exec t r) :
    inst.Guarded chunkThreshold payload (Prog.leftEvents t) ∧
      (∃ published, t = (Prog.leftEvents t).map Prog.eventInl ++ published ∧
        published.length ≤ 1) ∧ (Prog.rightOps t).length ≤ 1 ∧
      ∀ op ∈ Prog.rightOps t, reply = some op.subject ∧
        ∃ invocation msg response, ⟨.decodeInvocation payload, .ok invocation⟩ ∈ Prog.leftEvents t ∧
          inst.Serves chunkThreshold invocation msg (Prog.leftEvents t) ∧
          ⟨.encodeResponse response, .ok op.payload⟩ ∈ Prog.leftEvents t := by
  obtain ⟨res, hcall, hops⟩ := handleMessage_published h
  have hguarded := handleCall_guarded hcall
  refine ⟨hguarded, handleMessage_last h, ?_, fun op hop => ?_⟩
  · rw [hops]
    split
    · exact le_rfl
    · exact Nat.zero_le 1
  · rw [hops] at hop
    cases reply with
    | none => cases hop
    | some reply =>
      cases res with
      | error e => cases hop
      | ok buf =>
        obtain rfl := List.mem_singleton.mp hop
        obtain ⟨response, hresponse⟩ := handleCall_encodes hcall
        obtain ⟨invocation, msg, hdecode, hserves⟩ :=
          hguarded.serves _ hresponse (by simp [ServeOp.stage])
        exact ⟨rfl, invocation, msg, response, hdecode, hserves, hresponse⟩

/-- A request whose actor returns an error: the actor is run, and the answer
is guarded. -/
theorem failingRun_guarded :
    plainInstance.Guarded 1024 [] (Prog.leftEvents (failingRun (.ok ())).1) ∧
      (Prog.rightOps (failingRun (.ok ())).1).length = 1 :=
  ⟨(ActorInstance.handleMessage_guarded plainTypes 1024 plainInstance (some "_INBOX.1") []
    (failingRun_exec (.ok ()))).1, rfl⟩

end KasmCloud
