/-
KasmCloud.Host.Handler — the outgoing calls of an actor
(`crates/host/src/handler.rs`).

`Handler.callOperationWithPayload` (which `call_sync` and every typed
interface method use) and `Handler.call` (the streaming path) are programs
over `CallOp`, the operations they ask NATS, the chunk store and the
encoder for. The two tables they read are arguments: the source takes the
read guards of both before it looks anything up and keeps them until it
returns. Trace headers carry no behaviour and are left out.

`CHUNK_THRESHOLD_BYTES` is a constant of wasmcloud-core and a parameter
here. Of `Invocation::new` the model uses that it keeps the origin, the target
and the message it is given, takes the length of the message as
`content_length`, chooses an id, and keeps some part of the operation: the
last two are its reply.
-/
import KasmCloud.Host.State
import KasmCloud.Lib.Prog

namespace KasmCloud

open Lib

abbrev Bytes := List UInt8

/-! ## Targets -/

/-- `str::split_once`: the parts before and after the first `c`. -/
def splitOnce (s : String) (c : Char) : Option (String × String) :=
  match s.toList.span (· ≠ c) with
  | (_, []) => none
  | (before, _ :: after) => some (String.ofList before, String.ofList after)

/-- The link name a target stands for. -/
def defaultLinkName : String := "default"

/-- `resolve_target`; `links` are the links of the operation's package. -/
def resolveTarget (target : Option TargetEntity) (links : Option (HashMap String WasmCloudEntity))
    (aliases : HashMap String WasmCloudEntity) : Except String WasmCloudEntity :=
  match target with
  | none =>
    match links.bind (·.lookup defaultLinkName) with
    | some entity => .ok entity
    | none => .error "link not found"
  | some (.link linkName) =>
    match links.bind (·.lookup (linkName.getD defaultLinkName)) with
    | some entity => .ok entity
    | none => .error "link not found"
  | some (.actor (.key publicKey)) => .ok ⟨publicKey, "", ""⟩
  | some (.actor (.alias callAlias)) =>
    match aliases.lookup callAlias with
    | some entity => .ok entity
    | none => .error "unknown actor call alias"

/-- `ensure_actor_capability`: an empty contract is an actor-to-actor call. -/
def ensureActorCapability (metadata : Option Jwt.Actor) (contractId : String) :
    Except String Unit :=
  if contractId = "" then .ok ()
  else
    match metadata with
    | some { caps := some caps, .. } =>
      if contractId ∈ caps then .ok ()
      else .error ("actor does not have capability claim `" ++ contractId ++ "`")
    | _ => .error "actor missing capability claims, denying invocation"

/-! ## Invocations -/

structure Invocation where
  id : String
  origin : WasmCloudEntity
  target : WasmCloudEntity
  operation : String
  msg : Bytes
  contentLength : Nat
  deriving DecidableEq, Repr

structure InvocationResponse where
  invocationId : String
  msg : Bytes
  contentLength : UInt64
  error : Option String
  deriving DecidableEq, Repr

/-- What `Invocation::new` makes of a call: an id, and the operation that is
left in the invocation. -/
structure NewInvocation where
  id : String
  operation : String
  deriving DecidableEq, Repr

/-- What an outgoing call asks its surroundings for. -/
inductive CallOp where
  | socketPair
  | readRequest
  | newInvocation (origin target : WasmCloudEntity) (operation : String) (msg : Bytes)
  | chunkify (id : String) (msg : Bytes)
  | encode (invocation : Invocation)
  | sendRequest (topic : String) (invocation : Invocation) (extraTime : Bool)
  | decodeResponse (payload : Bytes)
  | getUnchunkified (id : String)
  | writeReply (msg : Bytes)
  deriving DecidableEq, Repr

/-- The reply of each. -/
abbrev CallOp.Reply : CallOp → Type
  | .socketPair | .chunkify .. | .encode _ | .writeReply _ => Unit
  | .readRequest | .sendRequest .. | .getUnchunkified _ => Bytes
  | .newInvocation .. => NewInvocation
  | .decodeResponse _ => InvocationResponse

abbrev callInterface : Interface := ⟨CallOp, CallOp.Reply⟩

abbrev CallProg := Prog callInterface

def CallOp.attempt (op : CallOp) (context : String) : CallProg op.Reply :=
  Prog.attempt (F := callInterface) op context

def CallOp.perform (op : CallOp) : CallProg op.Reply :=
  Prog.perform (F := callInterface) op

/-- The NATS subject of a call. -/
def callTopic (latticePrefix : String) (target : Option TargetEntity) (entity : WasmCloudEntity) :
    String :=
  match target with
  | none | some (.link _) =>
    "wasmbus.rpc." ++ latticePrefix ++ "." ++ entity.publicKey ++ "." ++ entity.linkName
  | some (.actor _) => "wasmbus.rpc." ++ latticePrefix ++ "." ++ entity.publicKey

section Threshold

variable (chunkThreshold : Nat)

/-! ## The two paths

Both parse the operation, resolve the target, check the capability, chunk a
long request, send, and check the response, in this order; they differ in
where the request comes from, in one error text and in what becomes of the
response.
-/

/-- A request over the threshold goes into the chunk store and leaves the
invocation empty. -/
def storeRequest (id : String) (request : Bytes) : CallProg Bytes :=
  if chunkThreshold < request.length then do
    CallOp.attempt (.chunkify id request) "failed to chunk invocation"
    pure []
  else pure request

/-- The response to an invocation: its error and its message, which is fetched
from the chunk store if it is over the threshold. `usize` is 64 bits wide,
so every content length fits. -/
def receiveResponse (id : String) (payload : Bytes) : CallProg (Option String × Bytes) := do
  let response : InvocationResponse ←
    CallOp.attempt (.decodeResponse payload) "failed to decode invocation response"
  if response.invocationId ≠ id then Prog.fail "invocation ID mismatch"
  else if chunkThreshold < response.contentLength.toNat then do
    let msg ← CallOp.attempt (.getUnchunkified response.invocationId) "failed to dechunk response"
    pure (response.error, msg)
  else if response.contentLength.toNat = response.msg.length then
    pure (response.error, response.msg)
  else Prog.fail "message size mismatch"

/-- The part of a call that both paths have, with the text of a failed
request. -/
def Handler.exchange (handler : Handler) (links : LinkTable)
    (aliases : HashMap String WasmCloudEntity) (target : Option TargetEntity)
    (operation : String) (request : Bytes) (sendError : String) :
    CallProg (Option String × Bytes) := do
  let parts ← Prog.lift <|
    match splitOnce operation '/' with
    | some parts => .ok parts
    | none => .error "failed to parse operation"
  let invTarget ← Prog.lift (resolveTarget target (links.lookup parts.1) aliases)
  let named : NewInvocation ←
    CallOp.perform (.newInvocation handler.origin invTarget operation request)
  Prog.lift (ensureActorCapability handler.claims.metadata invTarget.contractId)
  let msg ← storeRequest chunkThreshold named.id request
  let invocation : Invocation :=
    ⟨named.id, handler.origin, invTarget, named.operation, msg, request.length⟩
  CallOp.attempt (.encode invocation) "failed to encode invocation"
  let payload : Bytes ← CallOp.attempt
    (.sendRequest (callTopic handler.latticePrefix target invTarget) invocation
      (decide (chunkThreshold < request.length)))
    sendError
  receiveResponse chunkThreshold named.id payload

/-- `Handler::call_operation_with_payload`; the inner result is the callee's. -/
def Handler.callOperationWithPayload (handler : Handler) (links : LinkTable)
    (aliases : HashMap String WasmCloudEntity) (target : Option TargetEntity)
    (operation : String) (request : Bytes) : CallProg (Except String Bytes) := do
  let response ← handler.exchange chunkThreshold links aliases target operation request
    "failed to publish on NATS topic"
  match response with
  | (some error, _) => pure (.error error)
  | (none, msg) => pure (.ok msg)

/-- `Handler::call`: the sockets, then the future it returns. -/
def Handler.call (handler : Handler) (links : LinkTable)
    (aliases : HashMap String WasmCloudEntity) (target : Option TargetEntity)
    (operation : String) : CallProg Unit := do
  CallOp.attempt .socketPair "failed to create an unnamed unix socket pair"
  CallOp.attempt .socketPair "failed to create an unnamed unix socket pair"
  let request : Bytes ← CallOp.attempt .readRequest "failed to read request"
  let response ← handler.exchange chunkThreshold links aliases target operation request
    "failed to call provider"
  match response with
  | (some error, _) => Prog.fail error
  | (none, msg) => CallOp.attempt (.writeReply msg) "failed to write reply"

end Threshold

end KasmCloud
