/-
KasmCloud.Host.CallPaths — the two copies of the outgoing call.

`Host/Handler.lean` gives the two paths their common part once. Here each is
written out as the source has it, with all its own exits: `Written.call` for
`Handler::call`, `Written.callOperationWithPayload` for
`Handler::call_operation_with_payload`, and `Written.callSync` for
`Handler::call_sync` on top of it. `call_eq` and
`callOperationWithPayload_eq` are the comparison of the copies, and
`paths_agree` says what follows from it in any surroundings.
-/
import KasmCloud.Host.Handler

namespace KasmCloud

open Lib

/-- `ensure!`. -/
def ensure (p : Prop) [Decidable p] (message : String) : Except String Unit :=
  if p then .ok () else .error message

@[simp] theorem ensure_eq_ok {p : Prop} [Decidable p] {message : String} :
    ensure p message = .ok () ↔ p := by
  unfold ensure
  split <;> simp [*]

@[simp] theorem ensure_bind_eq_ok {α : Type} {p : Prop} [Decidable p] {message : String}
    {x : Except String α} {a : α} : (ensure p message >>= fun _ => x) = .ok a ↔ p ∧ x = .ok a := by
  unfold ensure
  split <;> simp [*, bind, Except.bind]

/-- `split_once('/').context("failed to parse operation")`. -/
def parseOperation (operation : String) : Except String (String × String) :=
  match splitOnce operation '/' with
  | some parts => .ok parts
  | none => .error "failed to parse operation"

namespace Written

variable (chunkThreshold : Nat)

/-- `Handler::call_operation_with_payload`. -/
def callOperationWithPayload (handler : Handler) (links : LinkTable)
    (aliases : HashMap String WasmCloudEntity) (target : Option TargetEntity) (operation : String)
    (request : Bytes) : CallProg (Except String Bytes) := do
  let (package, _) ← Prog.lift (parseOperation operation)
  let invTarget ← Prog.lift (resolveTarget target (links.lookup package) aliases)
  let needsChunking := decide (chunkThreshold < request.length)
  let named : NewInvocation ←
    CallOp.perform (.newInvocation handler.origin invTarget operation request)
  let invocation : Invocation :=
    ⟨named.id, handler.origin, invTarget, named.operation, request, request.length⟩
  Prog.lift (ensureActorCapability handler.claims.metadata invocation.target.contractId)
  let invocation ← (
    if needsChunking then do
      CallOp.attempt (.chunkify invocation.id invocation.msg) "failed to chunk invocation"
      pure { invocation with msg := [] }
    else pure invocation : CallProg Invocation)
  CallOp.attempt (.encode invocation) "failed to encode invocation"
  let topic :=
    match target with
    | none | some (.link _) =>
      "wasmbus.rpc." ++ handler.latticePrefix ++ "." ++ invocation.target.publicKey ++ "." ++
        invocation.target.linkName
    | some (.actor _) =>
      "wasmbus.rpc." ++ handler.latticePrefix ++ "." ++ invocation.target.publicKey
  let payload : Bytes ← CallOp.attempt (.sendRequest topic invocation needsChunking)
    "failed to publish on NATS topic"
  let response : InvocationResponse ←
    CallOp.attempt (.decodeResponse payload) "failed to decode invocation response"
  Prog.lift (ensure (response.invocationId = invocation.id) "invocation ID mismatch")
  let respLength := response.contentLength.toNat
  let msg ← (
    if chunkThreshold < respLength then
      CallOp.attempt (.getUnchunkified response.invocationId) "failed to dechunk response"
    else do
      Prog.lift (ensure (respLength = response.msg.length) "message size mismatch")
      pure response.msg : CallProg Bytes)
  match response.error with
  | some error => pure (.error error)
  | none => pure (.ok msg)

/-- `Handler::call_sync`; the inner error is the chain of the remote error,
the outermost context first. -/
def callSync (handler : Handler) (links : LinkTable) (aliases : HashMap String WasmCloudEntity)
    (target : Option TargetEntity) (operation : String) (request : Bytes) :
    CallProg (Except (List String) Bytes) := do
  let res ← (callOperationWithPayload chunkThreshold handler links aliases target operation
    request).withContext "failed to call linked provider"
  pure (res.mapError fun e => ["provider call failed", e])

/-- `Handler::call`: the two socket pairs, then the future. -/
def call (handler : Handler) (links : LinkTable) (aliases : HashMap String WasmCloudEntity)
    (target : Option TargetEntity) (operation : String) : CallProg Unit := do
  CallOp.attempt .socketPair "failed to create an unnamed unix socket pair"
  CallOp.attempt .socketPair "failed to create an unnamed unix socket pair"
  let request : Bytes ← CallOp.attempt .readRequest "failed to read request"
  let (package, _) ← Prog.lift (parseOperation operation)
  let invTarget ← Prog.lift (resolveTarget target (links.lookup package) aliases)
  let needsChunking := decide (chunkThreshold < request.length)
  let named : NewInvocation ←
    CallOp.perform (.newInvocation handler.origin invTarget operation request)
  let invocation : Invocation :=
    ⟨named.id, handler.origin, invTarget, named.operation, request, request.length⟩
  Prog.lift (ensureActorCapability handler.claims.metadata invocation.target.contractId)
  let invocation ← (
    if needsChunking then do
      CallOp.attempt (.chunkify invocation.id invocation.msg) "failed to chunk invocation"
      pure { invocation with msg := [] }
    else pure invocation : CallProg Invocation)
  CallOp.attempt (.encode invocation) "failed to encode invocation"
  let topic :=
    match target with
    | none | some (.link _) =>
      "wasmbus.rpc." ++ handler.latticePrefix ++ "." ++ invocation.target.publicKey ++ "." ++
        invocation.target.linkName
    | some (.actor _) =>
      "wasmbus.rpc." ++ handler.latticePrefix ++ "." ++ invocation.target.publicKey
  let payload : Bytes ← CallOp.attempt (.sendRequest topic invocation needsChunking)
    "failed to call provider"
  let response : InvocationResponse ←
    CallOp.attempt (.decodeResponse payload) "failed to decode invocation response"
  if response.invocationId ≠ invocation.id then Prog.fail "invocation ID mismatch"
  else do
    let respLength := response.contentLength.toNat
    let msg ← (
      if chunkThreshold < respLength then
        CallOp.attempt (.getUnchunkified response.invocationId) "failed to dechunk response"
      else if respLength ≠ response.msg.length then Prog.fail "message size mismatch"
      else pure response.msg : CallProg Bytes)
    match response.error with
    | some error => Prog.fail error
    | none => CallOp.attempt (.writeReply msg) "failed to write reply"

end Written

/-! ## The copies are the same -/

section Copies

variable (chunkThreshold : Nat) (handler : Handler) (links : LinkTable)
  (aliases : HashMap String WasmCloudEntity) (target : Option TargetEntity) (operation : String)

/-- The two ways to put a long request into the store. -/
theorem storeRequest_eq (invocation : Invocation) :
    (if decide (chunkThreshold < invocation.msg.length) = true then do
        CallOp.attempt (.chunkify invocation.id invocation.msg) "failed to chunk invocation"
        pure { invocation with msg := [] }
      else pure invocation : CallProg Invocation) =
      storeRequest chunkThreshold invocation.id invocation.msg >>= fun msg =>
        pure { invocation with msg } := by
  unfold storeRequest
  by_cases hlong : chunkThreshold < invocation.msg.length
  · rw [if_pos (decide_eq_true hlong), if_pos hlong, bind_assoc]
    rfl
  · rw [if_neg (by simpa using hlong), if_neg hlong]
    rfl

/-- The checks of the response, as the direct path writes them. -/
theorem receiveResponse_ensured {β : Type} (id : String) (payload : Bytes)
    (k : Option String → Bytes → CallProg β) :
    (do
      let response : InvocationResponse ←
        CallOp.attempt (.decodeResponse payload) "failed to decode invocation response"
      Prog.lift (ensure (response.invocationId = id) "invocation ID mismatch")
      let msg ← (
        if chunkThreshold < response.contentLength.toNat then
          CallOp.attempt (.getUnchunkified response.invocationId) "failed to dechunk response"
        else do
          Prog.lift (ensure (response.contentLength.toNat = response.msg.length)
            "message size mismatch")
          pure response.msg : CallProg Bytes)
      k response.error msg) =
      receiveResponse chunkThreshold id payload >>= fun r => k r.1 r.2 := by
  unfold receiveResponse
  rw [bind_assoc]
  refine bind_congr fun response => ?_
  unfold ensure
  by_cases hid : response.invocationId = id
  · rw [if_pos hid, if_neg (not_not_intro hid)]
    by_cases hlong : chunkThreshold < response.contentLength.toNat
    · rw [if_pos hlong, if_pos hlong, bind_assoc]
      rfl
    · rw [if_neg hlong, if_neg hlong]
      by_cases hlength : response.contentLength.toNat = response.msg.length
      · rw [if_pos hlength, if_pos hlength]
        rfl
      · rw [if_neg hlength, if_neg hlength]
        rfl
  · rw [if_neg hid, if_pos hid]
    rfl

/-- The checks of the response, as the streaming path writes them. -/
theorem receiveResponse_returned {β : Type} (id : String) (payload : Bytes)
    (k : Option String → Bytes → CallProg β) :
    (do
      let response : InvocationResponse ←
        CallOp.attempt (.decodeResponse payload) "failed to decode invocation response"
      if response.invocationId ≠ id then Prog.fail "invocation ID mismatch"
      else do
        let msg ← (
          if chunkThreshold < response.contentLength.toNat then
            CallOp.attempt (.getUnchunkified response.invocationId) "failed to dechunk response"
          else if response.contentLength.toNat ≠ response.msg.length then
            Prog.fail "message size mismatch"
          else pure response.msg : CallProg Bytes)
        k response.error msg) =
      receiveResponse chunkThreshold id payload >>= fun r => k r.1 r.2 := by
  unfold receiveResponse
  rw [bind_assoc]
  refine bind_congr fun response => ?_
  by_cases hid : response.invocationId = id
  · rw [if_neg (not_not_intro hid), if_neg (not_not_intro hid)]
    by_cases hlong : chunkThreshold < response.contentLength.toNat
    · rw [if_pos hlong, if_pos hlong, bind_assoc]
      rfl
    · rw [if_neg hlong, if_neg hlong]
      by_cases hlength : response.contentLength.toNat = response.msg.length
      · rw [if_pos hlength, if_neg (not_not_intro hlength)]
        rfl
      · rw [if_neg hlength, if_pos hlength]
        rfl
  · rw [if_pos hid, if_pos hid]
    rfl

theorem callOperationWithPayload_eq (request : Bytes) :
    Written.callOperationWithPayload chunkThreshold handler links aliases target operation request =
      handler.callOperationWithPayload chunkThreshold links aliases target operation request := by
  unfold Written.callOperationWithPayload Handler.callOperationWithPayload Handler.exchange
    parseOperation
  simp only [bind_assoc]
  refine bind_congr fun parts => ?_
  refine bind_congr fun invTarget => ?_
  refine bind_congr fun named => ?_
  refine bind_congr fun _ => ?_
  refine (congrArg (· >>= _) (storeRequest_eq chunkThreshold
    ⟨named.id, handler.origin, invTarget, named.operation, request, request.length⟩)).trans ?_
  simp only [bind_assoc, pure_bind]
  refine bind_congr fun msg => ?_
  refine bind_congr fun _ => ?_
  have hreceive (payload : Bytes) := receiveResponse_ensured chunkThreshold named.id payload
    fun error msg =>
      match error with
      | some error => (pure (.error error) : CallProg (Except String Bytes))
      | none => pure (.ok msg)
  rcases target with _ | _ | _
  all_goals
    refine bind_congr fun payload => (hreceive payload).trans (bind_congr fun r => ?_)
    rcases r with ⟨_ | _, _⟩ <;> rfl

theorem call_eq :
    Written.call chunkThreshold handler links aliases target operation =
      handler.call chunkThreshold links aliases target operation := by
  unfold Written.call Handler.call Handler.exchange parseOperation
  simp only [bind_assoc]
  refine bind_congr fun _ => ?_
  refine bind_congr fun _ => ?_
  refine bind_congr fun request => ?_
  refine bind_congr fun parts => ?_
  refine bind_congr fun invTarget => ?_
  refine bind_congr fun named => ?_
  refine bind_congr fun _ => ?_
  refine (congrArg (· >>= _) (storeRequest_eq chunkThreshold
    ⟨named.id, handler.origin, invTarget, named.operation, request, request.length⟩)).trans ?_
  simp only [bind_assoc, pure_bind]
  refine bind_congr fun msg => ?_
  refine bind_congr fun _ => ?_
  have hreceive (payload : Bytes) := receiveResponse_returned chunkThreshold named.id payload
    fun error msg =>
      match error with
      | some error => (Prog.fail error : CallProg Unit)
      | none => CallOp.attempt (.writeReply msg) "failed to write reply"
  rcases target with _ | _ | _
  all_goals
    refine bind_congr fun payload => (hreceive payload).trans (bind_congr fun r => ?_)
    rcases r with ⟨_ | _, _⟩ <;> rfl

end Copies

/-! ## Both paths in the same surroundings -/

section Surroundings

variable {σ : Type}

/-- The chunk store and the NATS peer in any state, what they were asked for
and have answered, and what was written to the reply stream. -/
structure CallState (σ : Type) where
  remote : σ
  events : List (Prog.Event callInterface)
  written : List Bytes

/-- The sockets of the streaming path are local: the request can be read, and
what is written arrives. Everything else is up to the surroundings. -/
def localEnv (env : Prog.Env callInterface σ) (request : Bytes) :
    Prog.Env callInterface (CallState σ)
  | .socketPair, s => (.ok (), s)
  | .readRequest, s => (.ok request, s)
  | .writeReply msg, s => (.ok (), { s with written := s.written ++ [msg] })
  | op, s =>
    let answer := env op s.remote
    (answer.1, { s with remote := answer.2, events := s.events ++ [⟨op, answer.1⟩] })

/-- Both succeed with the same bytes, or both fail, and then with the same
remote error if there is one. -/
def SameOutcome (direct : Except String (Except (List String) Bytes)) (stream : Except String Unit)
    (written : List Bytes) : Prop :=
  match direct with
  | .ok (.ok msg) => stream = .ok () ∧ written = [msg]
  | .ok (.error chain) =>
    ∃ e, chain = ["provider call failed", e] ∧ stream = .error e ∧ written = []
  | .error _ => ∃ e, stream = .error e ∧ written = []

/-- An operation that is not local to the streaming path. -/
def CallOp.Remote : CallOp → Prop
  | .socketPair | .readRequest | .writeReply _ => False
  | _ => True

variable (chunkThreshold : Nat)

theorem exchange_remote (handler : Handler) (links : LinkTable)
    (aliases : HashMap String WasmCloudEntity) (target : Option TargetEntity) (operation : String)
    (request : Bytes) (sendError : String) :
    (handler.exchange chunkThreshold links aliases target operation request sendError).Asks
      CallOp.Remote := by
  unfold Handler.exchange
  refine (Prog.asks_lift _).bind fun parts => ?_
  refine (Prog.asks_lift _).bind fun invTarget => ?_
  refine (Prog.asks_perform trivial).bind fun named => ?_
  refine (Prog.asks_lift _).bind fun _ => ?_
  refine Prog.Asks.bind ?_ fun msg => ?_
  · unfold storeRequest
    split
    · exact (Prog.asks_attempt trivial _).bind fun _ => trivial
    · trivial
  · refine (Prog.asks_attempt trivial _).bind fun _ => ?_
    refine (Prog.asks_attempt trivial _).bind fun payload => ?_
    unfold receiveResponse
    refine (Prog.asks_attempt trivial _).bind fun response => ?_
    split
    · trivial
    · split
      · exact (Prog.asks_attempt trivial _).bind fun _ => trivial
      · split <;> trivial

/-- The two paths differ in the text of a failed request. -/
theorem exchange_alike (handler : Handler) (links : LinkTable)
    (aliases : HashMap String WasmCloudEntity) (target : Option TargetEntity) (operation : String)
    (request : Bytes) (sendError sendError' : String) :
    (handler.exchange chunkThreshold links aliases target operation request sendError).Alike
      (handler.exchange chunkThreshold links aliases target operation request sendError') := by
  unfold Handler.exchange
  refine (Prog.Alike.refl _).bind fun parts => ?_
  refine (Prog.Alike.refl _).bind fun invTarget => ?_
  refine (Prog.Alike.refl _).bind fun named => ?_
  refine (Prog.Alike.refl _).bind fun _ => ?_
  refine (Prog.Alike.refl _).bind fun msg => ?_
  refine (Prog.Alike.refl _).bind fun _ => ?_
  exact (Prog.Alike.attempt _ _ _).bind fun payload => .refl _

/-- In any surroundings the two paths send the same invocation on the same
subject with the same timeout, ask the chunk store for the same operations in
the same order, and have the same outcome. -/
theorem paths_agree (env : Prog.Env callInterface σ) (remote : σ) (handler : Handler)
    (links : LinkTable) (aliases : HashMap String WasmCloudEntity) (target : Option TargetEntity)
    (operation : String) (request : Bytes) :
    let direct := (Written.callSync chunkThreshold handler links aliases target operation
      request).runIn (localEnv env request) ⟨remote, [], []⟩
    let stream := (Written.call chunkThreshold handler links aliases target operation).runIn
      (localEnv env request) ⟨remote, [], []⟩
    direct.2.events = stream.2.events ∧ direct.2.remote = stream.2.remote ∧
      SameOutcome direct.1 stream.1 stream.2.written := by
  have halike := (exchange_alike chunkThreshold handler links aliases target operation request
    "failed to publish on NATS topic" "failed to call provider").runIn (localEnv env request)
    ⟨remote, [], []⟩
  have hquiet : ((handler.exchange chunkThreshold links aliases target operation request
      "failed to call provider").runIn (localEnv env request) ⟨remote, [], []⟩).2.written = [] := by
    refine (exchange_remote chunkThreshold handler links aliases target operation request
      _).invariant (I := fun s : CallState σ => s.written = []) _ (fun op s hop hs => ?_) rfl
    cases op <;> first | exact hs | exact hop.elim
  have hstream : (Written.call chunkThreshold handler links aliases target operation).runIn
      (localEnv env request) ⟨remote, [], []⟩ = _ :=
    (congrArg (Prog.runIn (localEnv env request) · ⟨remote, [], []⟩)
      (call_eq chunkThreshold handler links aliases target operation)).trans <|
    (Prog.runIn_bind_ok _ (Prog.runIn_attempt_ok _ rfl _)).trans <|
    (Prog.runIn_bind_ok _ (Prog.runIn_attempt_ok _ rfl _)).trans <|
    (Prog.runIn_bind_ok _ (Prog.runIn_attempt_ok _ rfl _)).trans (Prog.runIn_bind _ _ _ _)
  dsimp only
  rw [hstream]
  unfold Written.callSync
  rw [callOperationWithPayload_eq, Prog.runIn_bind, Prog.runIn_withContext]
  unfold Handler.callOperationWithPayload
  rw [Prog.runIn_bind]
  generalize (handler.exchange chunkThreshold links aliases target operation request
    "failed to publish on NATS topic").runIn (localEnv env request) ⟨remote, [], []⟩ = x at *
  generalize (handler.exchange chunkThreshold links aliases target operation request
    "failed to call provider").runIn (localEnv env request) ⟨remote, [], []⟩ = y at *
  obtain ⟨x, s⟩ := x
  obtain ⟨y, s'⟩ := y
  obtain ⟨hstate, hresult⟩ := halike
  dsimp only at hstate hresult hquiet
  subst hstate
  rcases hresult with ⟨⟨error, msg⟩, rfl, rfl⟩ | ⟨e, e', rfl, rfl⟩
  · cases error with
    | none => exact ⟨rfl, rfl, rfl, congrArg (· ++ [msg]) hquiet⟩
    | some error => exact ⟨rfl, rfl, error, rfl, rfl, hquiet⟩
  · exact ⟨rfl, rfl, e', rfl, hquiet⟩

end Surroundings

end KasmCloud
