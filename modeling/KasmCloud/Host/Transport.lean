/-
KasmCloud.Host.Transport — request and response bytes between a caller and
an actor instance, through NATS and the chunk store.

`Peer` is what a call meets when it is delivered: an instance, the actor in
it, the message encoding and the chunk store. `Peer.serveEnv` and
`Peer.callEnv` are the surroundings of the two ends, in which nothing fails
but what the store does not have. Each id has a request key and a response
key there, and an object is gone once it is read: the callee stores a long
response under the second, and the caller looks it up under the first, where
nothing is. `transport_intact_iff` says for which messages that makes no
difference.
-/
import KasmCloud.Host.Serving

namespace KasmCloud

open Lib

/-! ## Both ends -/

/-- wasmcloud-core's chunk endpoint, over a store that works. `request` is the
object under the request key of an id: `chunkify` writes it, and
`get_unchunkified` reads and deletes it. `chunkify_response` writes under
another key. -/
structure ChunkEndpoint (σ : Type) where
  request : σ → String → Option Bytes
  chunkify : String → Bytes → σ → σ
  getUnchunkified : String → σ → Except String Bytes × σ
  chunkifyResponse : String → Bytes → σ → σ
  request_chunkify : ∀ id msg s id', request (chunkify id msg s) id' =
    if id' = id then some msg else request s id'
  found : ∀ {s id msg}, request s id = some msg → (getUnchunkified id s).1 = .ok msg
  missing : ∀ {s id}, request s id = none → ∃ e, (getUnchunkified id s).1 = .error e
  request_getUnchunkified : ∀ id s id', request (getUnchunkified id s).2 id' =
    if id' = id then none else request s id'
  request_chunkifyResponse : ∀ id msg s, request (chunkifyResponse id msg s) id = request s id

/-- An encoding of the messages that decodes what it has encoded. -/
structure Codec where
  encodeInvocation : Invocation → Bytes
  decodeInvocation : Bytes → Except String Invocation
  decode_encode_invocation : ∀ invocation,
    decodeInvocation (encodeInvocation invocation) = .ok invocation
  encodeResponse : InvocationResponse → Bytes
  decodeResponse : Bytes → Except String InvocationResponse
  decode_encode_response : ∀ response, decodeResponse (encodeResponse response) = .ok response

/-- The actor in an instance, as a function of what it is handed. -/
structure Guest (H : HttpTypes) where
  callActor : String → Bytes → Except String (Except String VecU8)
  decodeHttpRequest : Bytes → Except String H.CompatRequest
  convertRequest : H.CompatRequest → Except String H.Request
  handleHttp : H.Request → Except String H.Response
  convertResponse : H.Response → Except String H.CompatResponse
  encodeHttpResponse : H.CompatResponse → Except String VecU8

/-- What the actor makes of a request; an error outside is the host's. -/
def Guest.answer {H : HttpTypes} (guest : Guest H) (contractId operation : String) (msg : Bytes) :
    Except String (Except String VecU8) :=
  if servesHttp contractId operation then do
    let req ← guest.convertRequest (← guest.decodeHttpRequest msg)
    match guest.handleHttp req with
    | .error e => pure (.error e)
    | .ok res => do
      let res ← guest.encodeHttpResponse (← guest.convertResponse res)
      pure (.ok res)
  else guest.callActor operation msg

/-- What a call meets, with the id of its invocation and what is left of an
operation in one. -/
structure Peer (H : HttpTypes) (σ : Type) where
  id : String
  operation : String → String
  codec : Codec
  endpoint : ChunkEndpoint σ
  inst : ActorInstance
  antiforgery : Invocation → Except String Unit
  guest : Guest H

/-- The chunk store, what the actor has been handed, and what the caller has
written to the reply stream. -/
structure Wire (σ : Type) where
  store : σ
  received : List Bytes
  written : List Bytes

section Peer

variable {H : HttpTypes} {σ : Type} (chunkThreshold : Nat) (peer : Peer H σ)

def Wire.receive (wire : Wire σ) (msg : Bytes) : Wire σ :=
  { wire with received := wire.received ++ [msg] }

def Peer.getUnchunkified (id : String) (wire : Wire σ) : Except String Bytes × Wire σ :=
  ((peer.endpoint.getUnchunkified id wire.store).1,
    { wire with store := (peer.endpoint.getUnchunkified id wire.store).2 })

/-- The surroundings of the instance. -/
def Peer.serveEnv : Prog.Env (serveInterface H) (Wire σ)
  | .decodeInvocation payload, wire => (peer.codec.decodeInvocation payload, wire)
  | .validateAntiforgery invocation, wire => (peer.antiforgery invocation, wire)
  | .getUnchunkified id, wire => peer.getUnchunkified id wire
  | .instantiate, wire => (.ok (), wire)
  | .setStderr, wire => (.ok (), wire)
  | .decodeHttpRequest msg, wire => (peer.guest.decodeHttpRequest msg, wire.receive msg)
  | .convertRequest req, wire => (peer.guest.convertRequest req, wire)
  | .intoIncomingHttp, wire => (.ok (), wire)
  | .handleHttp req, wire => (peer.guest.handleHttp req, wire)
  | .convertResponse res, wire => (peer.guest.convertResponse res, wire)
  | .encodeHttpResponse res, wire => (peer.guest.encodeHttpResponse res, wire)
  | .callActor operation msg, wire => (peer.guest.callActor operation msg, wire.receive msg)
  | .unwrapBytes, wire => (.ok (), wire)
  | .chunkifyResponse id msg, wire =>
    (.ok (), { wire with store := peer.endpoint.chunkifyResponse id msg wire.store })
  | .encodeResponse response, wire => (.ok (peer.codec.encodeResponse response), wire)

/-- `handle_message`: what `handle_call` returns is published as the reply;
an error is only logged, and the request times out. -/
def Peer.handleMessage (payload : Bytes) (wire : Wire σ) : Except String Bytes × Wire σ :=
  match (peer.inst.handleCall H chunkThreshold payload).runIn peer.serveEnv wire with
  | (.ok buf, wire) => (.ok buf, wire)
  | (.error _, wire) => (.error "request timed out", wire)

/-- The surroundings of the caller; the request is what the actor that calls
writes to its stream. -/
def Peer.callEnv (request : Bytes) : Prog.Env callInterface (Wire σ)
  | .socketPair, wire => (.ok (), wire)
  | .readRequest, wire => (.ok request, wire)
  | .newInvocation _ _ operation _, wire => (.ok ⟨peer.id, peer.operation operation⟩, wire)
  | .chunkify id msg, wire =>
    (.ok (), { wire with store := peer.endpoint.chunkify id msg wire.store })
  | .encode _, wire => (.ok (), wire)
  | .sendRequest _ invocation _, wire =>
    peer.handleMessage chunkThreshold (peer.codec.encodeInvocation invocation) wire
  | .decodeResponse payload, wire => (peer.codec.decodeResponse payload, wire)
  | .getUnchunkified id, wire => peer.getUnchunkified id wire
  | .writeReply msg, wire => (.ok (), { wire with written := wire.written ++ [msg] })

/-- The invocation that is sent. -/
def Peer.invocation (handler : Handler) (target : WasmCloudEntity) (operation : String)
    (request : Bytes) : Invocation :=
  ⟨peer.id, handler.origin, target, peer.operation operation,
    if chunkThreshold < request.length then [] else request, request.length⟩

/-- A call is sent, and `handle_call` accepts it: the actor answers with a
result of its own. -/
structure Peer.Accepts (handler : Handler) (links : LinkTable)
    (aliases : HashMap String WasmCloudEntity) (target : Option TargetEntity) (operation : String)
    (request : Bytes) (result : Except String VecU8) : Prop where
  sent : ∃ package rest entity, splitOnce operation '/' = some (package, rest) ∧
    resolveTarget target (links.lookup package) aliases = .ok entity ∧
    ensureActorCapability handler.claims.metadata entity.contractId = .ok () ∧
    peer.antiforgery (peer.invocation chunkThreshold handler entity operation request) = .ok ()
  capable : ensureActorCapability peer.inst.handler.claims.metadata handler.origin.contractId =
    .ok ()
  answered : peer.guest.answer handler.origin.contractId (peer.operation operation) request =
    .ok result

/-- The id of the invocation is new: nothing is under its request key. -/
def Peer.Fresh (wire : Wire σ) : Prop := peer.endpoint.request wire.store peer.id = none

end Peer

/-! ## One call -/

section Call

variable (chunkThreshold : Nat)

/-- The response that is sent back. -/
def responseTo (id : String) : Except String VecU8 → InvocationResponse
  | .ok msg => ⟨id, if chunkThreshold < msg.val.length then [] else msg.val,
      .ofNat msg.val.length, none⟩
  | .error e => ⟨id, [], 0, some e⟩

variable {chunkThreshold} {H : HttpTypes} {σ : Type} {peer : Peer H σ} {wire : Wire σ}

/-- The actor is handed the message of the invocation. -/
theorem handleInvocation_runIn {contractId operation : String} {msg : Bytes}
    {result : Except String VecU8}
    (hcapable : ensureActorCapability peer.inst.handler.claims.metadata contractId = .ok ())
    (hanswer : peer.guest.answer contractId operation msg = .ok result) :
    (peer.inst.handleInvocation H contractId operation msg).runIn peer.serveEnv wire =
      (.ok result, wire.receive msg) := by
  unfold ActorInstance.handleInvocation
  rw [hcapable]
  refine (Prog.runIn_bind_ok _ (Prog.runIn_lift _ _ _)).trans ?_
  refine (Prog.runIn_bind_ok _ (Prog.runIn_attempt_ok _ rfl _)).trans ?_
  refine (Prog.runIn_bind_ok _ (Prog.runIn_attempt_ok _ rfl _)).trans ?_
  unfold Guest.answer at hanswer
  by_cases hhttp : servesHttp contractId operation
  · rw [if_pos hhttp] at hanswer ⊢
    obtain ⟨compat, hdecode, hanswer⟩ := Prog.except_bind_eq_ok hanswer
    obtain ⟨req, hconvert, hanswer⟩ := Prog.except_bind_eq_ok hanswer
    have hdecoded : peer.serveEnv (.decodeHttpRequest msg) wire = (.ok compat, wire.receive msg) :=
      congrArg (·, wire.receive msg) hdecode
    have hconverted (wire : Wire σ) :
        peer.serveEnv (.convertRequest compat) wire = (.ok req, wire) :=
      congrArg (·, wire) hconvert
    refine (Prog.runIn_bind_ok _ (Prog.runIn_attempt_ok _ hdecoded _)).trans ?_
    refine (Prog.runIn_bind_ok _ (Prog.runIn_attempt_ok _ (hconverted _) _)).trans ?_
    refine (Prog.runIn_bind_ok _ (Prog.runIn_attempt_ok _ rfl _)).trans ?_
    rw [Prog.runIn]
    dsimp only [Peer.serveEnv]
    cases hhandle : peer.guest.handleHttp req with
    | error e =>
      rw [hhandle] at hanswer
      cases hanswer
      rfl
    | ok res =>
      rw [hhandle] at hanswer
      obtain ⟨compatRes, hres, hanswer⟩ := Prog.except_bind_eq_ok hanswer
      obtain ⟨bytes, hbytes, hanswer⟩ := Prog.except_bind_eq_ok hanswer
      cases hanswer
      have hresConverted (wire : Wire σ) :
          peer.serveEnv (.convertResponse res) wire = (.ok compatRes, wire) :=
        congrArg (·, wire) hres
      have hencoded (wire : Wire σ) :
          peer.serveEnv (.encodeHttpResponse compatRes) wire = (.ok bytes, wire) :=
        congrArg (·, wire) hbytes
      refine (Prog.runIn_bind_ok _ (Prog.runIn_attempt_ok _ (hresConverted _) _)).trans ?_
      exact Prog.runIn_bind_ok _ (Prog.runIn_attempt_ok _ (hencoded _) _)
  · rw [if_neg hhttp] at hanswer ⊢
    have hcalled : peer.serveEnv (.callActor operation msg) wire =
        (.ok result, wire.receive msg) := congrArg (·, wire.receive msg) hanswer
    refine (Prog.runIn_bind_ok _ (Prog.runIn_attempt_ok _ hcalled _)).trans ?_
    cases result with
    | error e => rfl
    | ok bytes => exact Prog.runIn_bind_ok _ (Prog.runIn_attempt_ok _ rfl _)

/-- The store after the callee has put a long response into it, under a key
that is not the request's. -/
theorem respond_runIn (id : String) (result : Except String VecU8) (wire : Wire σ) :
    ∃ store, (respond chunkThreshold id result : ServeProg H InvocationResponse).runIn peer.serveEnv
        wire = (.ok (responseTo chunkThreshold id result), { wire with store }) ∧
      peer.endpoint.request store id = peer.endpoint.request wire.store id := by
  cases result with
  | error e => exact ⟨wire.store, rfl, rfl⟩
  | ok msg =>
    simp only [respond, responseTo]
    by_cases hlong : chunkThreshold < msg.val.length
    · rw [if_pos hlong, if_pos hlong]
      refine ⟨peer.endpoint.chunkifyResponse id msg.val wire.store, ?_,
        peer.endpoint.request_chunkifyResponse id msg.val wire.store⟩
      exact Prog.runIn_bind_ok _ (Prog.runIn_attempt_ok _ rfl _)
    · rw [if_neg hlong, if_neg hlong]
      exact ⟨wire.store, rfl, rfl⟩

/-- A long request is under its key when it is sent. -/
theorem storeRequest_runIn (hfresh : peer.Fresh wire) (request : Bytes) :
    ∃ store, (storeRequest chunkThreshold peer.id request).runIn
        (peer.callEnv chunkThreshold request) wire =
          (.ok (if chunkThreshold < request.length then [] else request), { wire with store }) ∧
      peer.endpoint.request store peer.id =
        if chunkThreshold < request.length then some request else none := by
  unfold storeRequest
  by_cases hlong : chunkThreshold < request.length
  · rw [if_pos hlong, if_pos hlong, if_pos hlong]
    refine ⟨peer.endpoint.chunkify peer.id request wire.store,
      Prog.runIn_bind_ok _ (Prog.runIn_attempt_ok _ rfl _), ?_⟩
    rw [peer.endpoint.request_chunkify, if_pos rfl]
  · rw [if_neg hlong, if_neg hlong, if_neg hlong]
    exact ⟨wire.store, rfl, hfresh⟩

/-- Whether it came inline or through the store, the callee has the request,
and the store has it no longer. -/
theorem fetchMessage_runIn (handler : Handler) (entity : WasmCloudEntity) (operation : String)
    {request : Bytes} (hstored : peer.endpoint.request wire.store peer.id =
      if chunkThreshold < request.length then some request else none) :
    ∃ store, (fetchMessage chunkThreshold
        (peer.invocation chunkThreshold handler entity operation request) :
          ServeProg H Bytes).runIn peer.serveEnv wire = (.ok request, { wire with store }) ∧
      peer.endpoint.request store peer.id = none := by
  unfold fetchMessage
  by_cases hlong : chunkThreshold < request.length
  · have hcontent : chunkThreshold <
        (peer.invocation chunkThreshold handler entity operation request).contentLength := hlong
    rw [if_pos hlong] at hstored
    rw [if_pos hcontent]
    refine ⟨(peer.endpoint.getUnchunkified peer.id wire.store).2, ?_, ?_⟩
    · exact (Prog.runIn_perform _ _ _).trans (congrArg (·, _) (peer.endpoint.found hstored))
    · rw [peer.endpoint.request_getUnchunkified, if_pos rfl]
  · have hcontent : ¬ chunkThreshold <
        (peer.invocation chunkThreshold handler entity operation request).contentLength := hlong
    have hinline : (peer.invocation chunkThreshold handler entity operation request).msg =
        request := if_neg hlong
    rw [if_neg hlong] at hstored
    rw [if_neg hcontent, hinline]
    exact ⟨wire.store, rfl, hstored⟩

/-- The callee: the actor is handed the request, and the response to its
answer goes back. -/
theorem handleCall_runIn {handler : Handler} {entity : WasmCloudEntity} {operation : String}
    {request : Bytes} {result : Except String VecU8}
    (hgenuine : peer.antiforgery
      (peer.invocation chunkThreshold handler entity operation request) = .ok ())
    (hcapable : ensureActorCapability peer.inst.handler.claims.metadata
      handler.origin.contractId = .ok ())
    (hanswer : peer.guest.answer handler.origin.contractId (peer.operation operation) request =
      .ok result)
    (hstored : peer.endpoint.request wire.store peer.id =
      if chunkThreshold < request.length then some request else none) :
    ∃ store, (peer.inst.handleCall H chunkThreshold (peer.codec.encodeInvocation
        (peer.invocation chunkThreshold handler entity operation request))).runIn peer.serveEnv
        wire = (.ok (peer.codec.encodeResponse (responseTo chunkThreshold peer.id result)),
          { wire.receive request with store }) ∧
      peer.endpoint.request store peer.id = none := by
  have hdecoded (wire : Wire σ) : peer.serveEnv (.decodeInvocation (peer.codec.encodeInvocation
      (peer.invocation chunkThreshold handler entity operation request))) wire =
        (.ok (peer.invocation chunkThreshold handler entity operation request), wire) :=
    congrArg (·, wire) (peer.codec.decode_encode_invocation _)
  have hvalidated (wire : Wire σ) : peer.serveEnv (.validateAntiforgery
      (peer.invocation chunkThreshold handler entity operation request)) wire = (.ok (), wire) :=
    congrArg (·, wire) hgenuine
  obtain ⟨store₁, hfetch, hgone⟩ := fetchMessage_runIn handler entity operation hstored
  obtain ⟨store₂, hrespond, hkept⟩ := @respond_runIn chunkThreshold H σ peer peer.id result
    ({ wire with store := store₁ }.receive request)
  refine ⟨store₂, ?_, hkept.trans hgone⟩
  unfold ActorInstance.handleCall
  refine (Prog.runIn_bind_ok _ (Prog.runIn_attempt_ok _ (hdecoded _) _)).trans ?_
  refine (Prog.runIn_bind_ok _ ((Prog.runIn_perform _ _ _).trans (hvalidated _))).trans ?_
  refine (Prog.runIn_bind_ok _ hfetch).trans ?_
  refine (Prog.runIn_bind_ok _ (Prog.runIn_withContext_ok _
    (handleInvocation_runIn hcapable hanswer))).trans ?_
  refine (Prog.runIn_bind_ok _ hrespond).trans ?_
  exact Prog.runIn_attempt_ok _ rfl _

/-- What the caller makes of the response: a long message is looked up under
the request key, where it is not. -/
def exchanged (chunkThreshold : Nat) :
    Except String VecU8 → Except String (Option String × Bytes)
  | .error e => .ok (some e, [])
  | .ok response =>
    if chunkThreshold < response.val.length then .error "failed to dechunk response"
    else .ok (none, response.val)

/-- The caller's end. -/
theorem receiveResponse_runIn (request : Bytes) (result : Except String VecU8)
    (hgone : peer.endpoint.request wire.store peer.id = none) :
    ∃ store, (receiveResponse chunkThreshold peer.id
        (peer.codec.encodeResponse (responseTo chunkThreshold peer.id result))).runIn
        (peer.callEnv chunkThreshold request) wire =
      (exchanged chunkThreshold result, { wire with store }) := by
  have hdecoded : peer.callEnv chunkThreshold request
      (.decodeResponse (peer.codec.encodeResponse (responseTo chunkThreshold peer.id result)))
        wire = (.ok (responseTo chunkThreshold peer.id result), wire) :=
    congrArg (·, wire) (peer.codec.decode_encode_response _)
  unfold receiveResponse
  cases result with
  | error e =>
    refine ⟨wire.store, (Prog.runIn_bind_ok _ (Prog.runIn_attempt_ok _ hdecoded _)).trans ?_⟩
    simp [responseTo, exchanged]
  | ok response =>
    have hlength : (UInt64.ofNat response.val.length).toNat = response.val.length :=
      UInt64.toNat_ofNat_of_lt response.property
    by_cases hlong : chunkThreshold < response.val.length
    · obtain ⟨e, hmissing⟩ := peer.endpoint.missing hgone
      have hread : peer.callEnv chunkThreshold request (.getUnchunkified peer.id) wire =
          (.error e, { wire with store := (peer.endpoint.getUnchunkified peer.id wire.store).2 }) :=
        congrArg (·, _) hmissing
      refine ⟨(peer.endpoint.getUnchunkified peer.id wire.store).2,
        (Prog.runIn_bind_ok _ (Prog.runIn_attempt_ok _ hdecoded _)).trans ?_⟩
      simp only [responseTo, exchanged, hlength, hlong, ne_eq, not_true_eq_false, if_true, if_false]
      exact Prog.runIn_bind_error _ (Prog.runIn_attempt_error _ hread _)
    · refine ⟨wire.store, (Prog.runIn_bind_ok _ (Prog.runIn_attempt_ok _ hdecoded _)).trans ?_⟩
      simp only [responseTo, exchanged, hlength, hlong, ne_eq, not_true_eq_false, if_true, if_false]
      rfl

/-- The part of a call that both paths have. -/
theorem exchange_runIn {handler : Handler} {links : LinkTable}
    {aliases : HashMap String WasmCloudEntity} {target : Option TargetEntity} {operation : String}
    {request : Bytes} {result : Except String VecU8}
    (h : peer.Accepts chunkThreshold handler links aliases target operation request result)
    (hfresh : peer.Fresh wire) (sendError : String) :
    ∃ store, (handler.exchange chunkThreshold links aliases target operation request
        sendError).runIn (peer.callEnv chunkThreshold request) wire =
      (exchanged chunkThreshold result, { wire.receive request with store }) := by
  obtain ⟨package, rest, entity, hparts, hresolve, hcapable, hgenuine⟩ := h.sent
  obtain ⟨store₁, hsend, hstored⟩ := storeRequest_runIn hfresh request
  obtain ⟨store₂, hcall, hgone⟩ := @handleCall_runIn chunkThreshold H σ peer
    { wire with store := store₁ } handler entity operation request result hgenuine h.capable
    h.answered hstored
  obtain ⟨store₃, hreceive⟩ := @receiveResponse_runIn chunkThreshold H σ peer
    { wire.receive request with store := store₂ } request result hgone
  have hreply : peer.handleMessage chunkThreshold (peer.codec.encodeInvocation
      (peer.invocation chunkThreshold handler entity operation request))
      { wire with store := store₁ } =
        (.ok (peer.codec.encodeResponse (responseTo chunkThreshold peer.id result)),
          { wire.receive request with store := store₂ }) := by
    unfold Peer.handleMessage
    rw [hcall]
    rfl
  refine ⟨store₃, ?_⟩
  unfold Handler.exchange
  rw [hparts]
  refine (Prog.runIn_bind_ok _ (Prog.runIn_lift _ _ _)).trans ?_
  dsimp only
  rw [hresolve]
  refine (Prog.runIn_bind_ok _ (Prog.runIn_lift _ _ _)).trans ?_
  refine (Prog.runIn_bind_ok _ ((Prog.runIn_perform _ _ _).trans rfl)).trans ?_
  rw [hcapable]
  refine (Prog.runIn_bind_ok _ (Prog.runIn_lift _ _ _)).trans ?_
  refine (Prog.runIn_bind_ok _ hsend).trans ?_
  refine (Prog.runIn_bind_ok _ (Prog.runIn_attempt_ok _ rfl _)).trans ?_
  refine (Prog.runIn_bind_ok _ (Prog.runIn_attempt_ok _ hreply _)).trans ?_
  exact hreceive

/-! ## Both paths -/

variable (chunkThreshold) (peer)

/-- The direct path hands the request over and returns what the actor did. -/
def DirectIntact (handler : Handler) (links : LinkTable) (aliases : HashMap String WasmCloudEntity)
    (target : Option TargetEntity) (operation : String) (request : Bytes)
    (result : Except String VecU8) (wire : Wire σ) : Prop :=
  let run := (handler.callOperationWithPayload chunkThreshold links aliases target operation
    request).runIn (peer.callEnv chunkThreshold request) wire
  run.2.received = wire.received ++ [request] ∧ run.1 = .ok (result.map (·.val))

/-- The streaming path does, too: a response is written to the reply stream,
and an error is returned. -/
def StreamIntact (handler : Handler) (links : LinkTable) (aliases : HashMap String WasmCloudEntity)
    (target : Option TargetEntity) (operation : String) (request : Bytes)
    (result : Except String VecU8) (wire : Wire σ) : Prop :=
  let run := (handler.call chunkThreshold links aliases target operation).runIn
    (peer.callEnv chunkThreshold request) wire
  run.2.received = wire.received ++ [request] ∧
    match result with
    | .ok response => run.1 = .ok () ∧ run.2.written = wire.written ++ [response.val]
    | .error e => run.1 = .error e ∧ run.2.written = wire.written

/-- The actor's error, or a response that is not chunked. -/
def Unchunked : Except String VecU8 → Prop
  | .error _ => True
  | .ok response => response.val.length ≤ chunkThreshold

variable {chunkThreshold} {peer} {handler : Handler} {links : LinkTable}
  {aliases : HashMap String WasmCloudEntity} {target : Option TargetEntity} {operation : String}
  {request : Bytes} {result : Except String VecU8}

theorem callOperationWithPayload_runIn
    (h : peer.Accepts chunkThreshold handler links aliases target operation request result)
    (hfresh : peer.Fresh wire) :
    ∃ store, (handler.callOperationWithPayload chunkThreshold links aliases target operation
        request).runIn (peer.callEnv chunkThreshold request) wire =
      (match exchanged chunkThreshold result with
        | .error e => .error e
        | .ok (some e, _) => .ok (.error e)
        | .ok (none, msg) => .ok (.ok msg), { wire.receive request with store }) := by
  obtain ⟨store, hrun⟩ := exchange_runIn h hfresh "failed to publish on NATS topic"
  refine ⟨store, ?_⟩
  unfold Handler.callOperationWithPayload
  rw [Prog.runIn_bind, hrun]
  rcases exchanged chunkThreshold result with e | ⟨_ | e, msg⟩ <;> rfl

theorem call_runIn
    (h : peer.Accepts chunkThreshold handler links aliases target operation request result)
    (hfresh : peer.Fresh wire) :
    ∃ store, (handler.call chunkThreshold links aliases target operation).runIn
        (peer.callEnv chunkThreshold request) wire =
      let after : Wire σ := { wire.receive request with store }
      match exchanged chunkThreshold result with
      | .error e => (.error e, after)
      | .ok (some e, _) => (.error e, after)
      | .ok (none, msg) => (.ok (), { after with written := after.written ++ [msg] }) := by
  obtain ⟨store, hrun⟩ := exchange_runIn h hfresh "failed to call provider"
  refine ⟨store, ?_⟩
  unfold Handler.call
  refine (Prog.runIn_bind_ok _ (Prog.runIn_attempt_ok _ rfl _)).trans ?_
  refine (Prog.runIn_bind_ok _ (Prog.runIn_attempt_ok _ rfl _)).trans ?_
  refine (Prog.runIn_bind_ok _ (Prog.runIn_attempt_ok _ rfl _)).trans ?_
  rw [Prog.runIn_bind, hrun]
  rcases exchanged chunkThreshold result with e | ⟨_ | e, msg⟩ <;> rfl

theorem directIntact_iff
    (h : peer.Accepts chunkThreshold handler links aliases target operation request result)
    (hfresh : peer.Fresh wire) :
    DirectIntact chunkThreshold peer handler links aliases target operation request result wire ↔
      Unchunked chunkThreshold result := by
  obtain ⟨store, hrun⟩ := callOperationWithPayload_runIn h hfresh
  unfold DirectIntact
  rw [hrun]
  cases result with
  | error e => simp [exchanged, Unchunked, Wire.receive, Except.map]
  | ok response =>
    by_cases hlong : chunkThreshold < response.val.length
    · have hnot := Nat.not_le_of_lt hlong
      simp [exchanged, Unchunked, hlong, hnot]
    · simp [exchanged, Unchunked, hlong, Wire.receive, Except.map, Nat.le_of_not_lt hlong]

theorem streamIntact_iff
    (h : peer.Accepts chunkThreshold handler links aliases target operation request result)
    (hfresh : peer.Fresh wire) :
    StreamIntact chunkThreshold peer handler links aliases target operation request result wire ↔
      Unchunked chunkThreshold result := by
  obtain ⟨store, hrun⟩ := call_runIn h hfresh
  unfold StreamIntact
  rw [hrun]
  cases result with
  | error e => simp [exchanged, Unchunked, Wire.receive]
  | ok response =>
    by_cases hlong : chunkThreshold < response.val.length
    · have hnot := Nat.not_le_of_lt hlong
      simp [exchanged, Unchunked, hlong, hnot]
    · simp [exchanged, Unchunked, hlong, Wire.receive, Nat.le_of_not_lt hlong]

/-- A call that is delivered hands over the request, and returns the response
or the error of the actor, exactly when the actor returns an error, or a
response that is not chunked. -/
theorem transport_intact_iff
    (h : peer.Accepts chunkThreshold handler links aliases target operation request result)
    (hfresh : peer.Fresh wire) :
    (DirectIntact chunkThreshold peer handler links aliases target operation request result wire ↔
        Unchunked chunkThreshold result) ∧
      (StreamIntact chunkThreshold peer handler links aliases target operation request result
          wire ↔
        Unchunked chunkThreshold result) :=
  ⟨directIntact_iff h hfresh, streamIntact_iff h hfresh⟩

end Call

/-! ## An encoding

A message is a list of fields, and a field is a list of numbers: each number
as so many ones and a zero, and a two after each field.
-/

section Encoding

def encodeFields : List (List Nat) → Bytes
  | [] => []
  | field :: fields =>
    field.flatMap (fun n => List.replicate n 1 ++ [0]) ++ 2 :: encodeFields fields

/-- `n` ones of a number have been read, after the numbers of `field`. -/
def decodeFields (n : Nat) (field : List Nat) : Bytes → List (List Nat)
  | [] => []
  | byte :: bytes =>
    if byte = 1 then decodeFields (n + 1) field bytes
    else if byte = 0 then decodeFields 0 (field ++ [n]) bytes
    else field :: decodeFields 0 [] bytes

theorem decodeFields_number (n m : Nat) (field : List Nat) (bytes : Bytes) :
    decodeFields n field (List.replicate m 1 ++ 0 :: bytes) =
      decodeFields 0 (field ++ [n + m]) bytes := by
  induction m generalizing n with
  | zero => simp [decodeFields]
  | succ m ih =>
    rw [List.replicate_succ, List.cons_append, decodeFields, if_pos rfl, ih]
    congr 3
    omega

theorem decodeFields_field (read field : List Nat) (bytes : Bytes) :
    decodeFields 0 read (field.flatMap (fun n => List.replicate n 1 ++ [0]) ++ 2 :: bytes) =
      (read ++ field) :: decodeFields 0 [] bytes := by
  induction field generalizing read with
  | nil => simp [decodeFields]
  | cons n field ih =>
    simp only [List.flatMap_cons, List.append_assoc, List.cons_append, List.nil_append]
    rw [decodeFields_number, ih]
    simp

theorem decode_encode_fields (fields : List (List Nat)) :
    decodeFields 0 [] (encodeFields fields) = fields := by
  induction fields with
  | nil => rfl
  | cons field fields ih =>
    rw [encodeFields, decodeFields_field, ih, List.nil_append]

def codesOf (s : String) : List Nat := s.toList.map Char.toNat

def ofCodes (codes : List Nat) : String := String.ofList (codes.map Char.ofNat)

@[simp] theorem ofCodes_codesOf (s : String) : ofCodes (codesOf s) = s := by
  simp [ofCodes, codesOf, Function.comp_def]

def invocationFields (invocation : Invocation) : List (List Nat) :=
  [codesOf invocation.id, codesOf invocation.origin.publicKey, codesOf invocation.origin.linkName,
    codesOf invocation.origin.contractId, codesOf invocation.target.publicKey,
    codesOf invocation.target.linkName, codesOf invocation.target.contractId,
    codesOf invocation.operation, invocation.msg.map UInt8.toNat, [invocation.contentLength]]

def ofInvocationFields : List (List Nat) → Except String Invocation
  | [id, originKey, originLink, originContract, targetKey, targetLink, targetContract, operation,
      msg, [contentLength]] =>
    .ok ⟨ofCodes id, ⟨ofCodes originKey, ofCodes originLink, ofCodes originContract⟩,
      ⟨ofCodes targetKey, ofCodes targetLink, ofCodes targetContract⟩, ofCodes operation,
      msg.map UInt8.ofNat, contentLength⟩
  | _ => .error "not an invocation"

def responseFields (response : InvocationResponse) : List (List Nat) :=
  [codesOf response.invocationId, response.msg.map UInt8.toNat, [response.contentLength.toNat]] ++
    (response.error.map codesOf).toList

def ofResponseFields : List (List Nat) → Except String InvocationResponse
  | [id, msg, [contentLength]] =>
    .ok ⟨ofCodes id, msg.map UInt8.ofNat, .ofNat contentLength, none⟩
  | [id, msg, [contentLength], error] =>
    .ok ⟨ofCodes id, msg.map UInt8.ofNat, .ofNat contentLength, some (ofCodes error)⟩
  | _ => .error "not a response"

def unaryCodec : Codec where
  encodeInvocation invocation := encodeFields (invocationFields invocation)
  decodeInvocation bytes := ofInvocationFields (decodeFields 0 [] bytes)
  decode_encode_invocation invocation := by
    rw [decode_encode_fields]
    simp [invocationFields, ofInvocationFields, Function.comp_def]
  encodeResponse response := encodeFields (responseFields response)
  decodeResponse bytes := ofResponseFields (decodeFields 0 [] bytes)
  decode_encode_response response := by
    rw [decode_encode_fields]
    obtain ⟨id, msg, contentLength, error⟩ := response
    cases error <;> simp [responseFields, ofResponseFields, Function.comp_def]

end Encoding

/-! ## A request and a response over the threshold -/

/-- 900 KiB. -/
def sampleThreshold : Nat := 921600

def sampleHandler : Handler where
  latticePrefix := "default"
  claims := ⟨"A", "M", 0, none, none, none⟩
  origin := ⟨"M", "", ""⟩
  links := 0
  targets := 0

/-- What follows the last `/`. -/
def lastPart (operation : String) : String :=
  String.ofList (operation.toList.reverse.takeWhile (· ≠ '/')).reverse

/-- Objects by name; a response has the id and a suffix. -/
def objectEndpoint : ChunkEndpoint (HashMap String Bytes) where
  request objects id := objects.lookup id
  chunkify id msg objects := objects.insert id msg
  getUnchunkified id objects :=
    match objects.lookup id with
    | some msg => (.ok msg, objects.erase id)
    | none => (.error "no such object", objects)
  chunkifyResponse id msg objects := objects.insert (id ++ "-r") msg
  request_chunkify id msg objects id' := HashMap.lookup_insert_if _ _ _ _
  found {objects id msg} h := by simp only [h]
  missing {objects id} h := by simp only [h]; exact ⟨_, rfl⟩
  request_getUnchunkified id objects id' := by
    cases h : objects.lookup id with
    | some msg => exact HashMap.lookup_erase_if _ _ _
    | none =>
      dsimp only
      split
      · rename_i hid
        rw [hid, h]
      · rfl
  request_chunkifyResponse id msg objects := by
    refine AList.lookup_insert_ne fun heq => ?_
    have hlength := congrArg String.length heq
    simp at hlength

/-- An actor that answers every call with `response`. -/
def samplePeer (response : VecU8) : Peer ⟨Unit, Unit, Unit, Unit⟩ (HashMap String Bytes) where
  id := "1"
  operation := lastPart
  codec := unaryCodec
  endpoint := objectEndpoint
  inst := ⟨0, sampleHandler, ⟨"callee", none⟩⟩
  antiforgery _ := .ok ()
  guest :=
    { callActor := fun _ _ => .ok (.ok response)
      decodeHttpRequest := fun _ => .ok ()
      convertRequest := fun _ => .ok ()
      handleHttp := fun _ => .ok ()
      convertResponse := fun _ => .ok ()
      encodeHttpResponse := fun _ => .ok response }

/-- One more byte than the threshold. -/
def longBytes (byte : UInt8) : VecU8 :=
  ⟨List.replicate (sampleThreshold + 1) byte, by rw [List.length_replicate]; decide⟩

/-- The actor is called by its key. -/
def calledByKey : Option TargetEntity := some (.actor (.key "N"))

theorem samplePeer_accepts (response : VecU8) (request : Bytes) :
    (samplePeer response).Accepts sampleThreshold sampleHandler ∅ ∅ calledByKey "ns:pkg/iface.op"
      request (.ok response) :=
  ⟨⟨"ns:pkg", "iface.op", ⟨"N", "", ""⟩, rfl, rfl, rfl, rfl⟩, rfl, rfl⟩

def emptyWire : Wire (HashMap String Bytes) := ⟨∅, [], []⟩

/-- The caller gets no response, through either path. -/
theorem longResponse_not_intact :
    ¬ DirectIntact sampleThreshold (samplePeer (longBytes 1)) sampleHandler ∅ ∅ calledByKey
        "ns:pkg/iface.op" (longBytes 0).val (.ok (longBytes 1)) emptyWire ∧
      ¬ StreamIntact sampleThreshold (samplePeer (longBytes 1)) sampleHandler ∅ ∅ calledByKey
        "ns:pkg/iface.op" (longBytes 0).val (.ok (longBytes 1)) emptyWire := by
  have haccepts := samplePeer_accepts (longBytes 1) (longBytes 0).val
  have hfresh : (samplePeer (longBytes 1)).Fresh emptyWire := rfl
  rw [directIntact_iff haccepts hfresh, streamIntact_iff haccepts hfresh, and_self]
  have hlong : sampleThreshold < (longBytes 1).val.length := by
    simp [longBytes]
  exact Nat.not_le_of_lt hlong

/-- A short response gets back, whatever the length of the request. -/
theorem shortResponse_intact :
    DirectIntact sampleThreshold (samplePeer ⟨[1], by decide⟩) sampleHandler ∅ ∅ calledByKey
        "ns:pkg/iface.op" (longBytes 0).val (.ok ⟨[1], by decide⟩) emptyWire ∧
      StreamIntact sampleThreshold (samplePeer ⟨[1], by decide⟩) sampleHandler ∅ ∅ calledByKey
        "ns:pkg/iface.op" (longBytes 0).val (.ok ⟨[1], by decide⟩) emptyWire := by
  have hshort : Unchunked sampleThreshold (.ok ⟨[1], by decide⟩) := by
    show [1].length ≤ sampleThreshold
    decide
  have hfresh : (samplePeer ⟨[1], by decide⟩).Fresh emptyWire := rfl
  obtain ⟨hdirect, hstream⟩ := transport_intact_iff
    (samplePeer_accepts ⟨[1], by decide⟩ (longBytes 0).val) hfresh
  exact ⟨hdirect.mpr hshort, hstream.mpr hshort⟩

end KasmCloud
