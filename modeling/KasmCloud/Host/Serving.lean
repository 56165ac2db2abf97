/-
KasmCloud.Host.Serving — an actor instance answers an invocation
(`crates/host/src/actor.rs`).

`ActorInstance.handleCall` decodes the invocation, fetches a long message
from the chunk store, lets `handleInvocation` run the actor and builds the
response; it is a program over `ServeOp`. The types of an HTTP request and
response, and of the compatible messages they are converted from and to, are
not part of the repository: they are the parameter `HttpTypes`.
-/
import KasmCloud.Host.Handler

namespace KasmCloud

open Lib

/-- The bytes of a Rust vector: there are fewer than `usize` can count. -/
abbrev VecU8 := { bytes : Bytes // bytes.length < 2 ^ 64 }

structure HttpTypes where
  CompatRequest : Type
  Request : Type
  Response : Type
  CompatResponse : Type

/-- What an instance asks its surroundings for while it answers. -/
inductive ServeOp (H : HttpTypes) where
  | decodeInvocation (payload : Bytes)
  | validateAntiforgery (invocation : Invocation)
  | getUnchunkified (id : String)
  | instantiate
  | setStderr
  | decodeHttpRequest (msg : Bytes)
  | convertRequest (req : H.CompatRequest)
  | intoIncomingHttp
  | handleHttp (req : H.Request)
  | convertResponse (res : H.Response)
  | encodeHttpResponse (res : H.CompatResponse)
  | callActor (operation : String) (msg : Bytes)
  | unwrapBytes
  | chunkifyResponse (id : String) (msg : Bytes)
  | encodeResponse (response : InvocationResponse)

/-- The reply of each; that of `callActor` is the actor's own, with the bytes it
has written. -/
abbrev ServeOp.Reply {H : HttpTypes} : ServeOp H → Type
  | .validateAntiforgery _ | .instantiate | .setStderr | .intoIncomingHttp | .unwrapBytes
  | .chunkifyResponse .. => Unit
  | .getUnchunkified _ | .encodeResponse _ => Bytes
  | .decodeInvocation _ => Invocation
  | .decodeHttpRequest _ => H.CompatRequest
  | .convertRequest _ => H.Request
  | .handleHttp _ => H.Response
  | .convertResponse _ => H.CompatResponse
  | .encodeHttpResponse _ => VecU8
  | .callActor .. => Except String VecU8

abbrev serveInterface (H : HttpTypes) : Interface := ⟨ServeOp H, ServeOp.Reply⟩

abbrev ServeProg (H : HttpTypes) := Prog (serveInterface H)

variable {H : HttpTypes}

def ServeOp.attempt (op : ServeOp H) (context : String) : ServeProg H op.Reply :=
  Prog.attempt (F := serveInterface H) op context

def ServeOp.perform (op : ServeOp H) : ServeProg H op.Reply :=
  Prog.perform (F := serveInterface H) op

/-- An HTTP server's request is handed to the actor decoded. -/
def servesHttp (contractId operation : String) : Prop :=
  contractId = "wasmcloud:httpserver" ∧ operation = "HttpServer.HandleRequest"

instance (contractId operation : String) : Decidable (servesHttp contractId operation) :=
  inferInstanceAs (Decidable (_ ∧ _))

/-- What the actor has written is taken out of its buffer. -/
def unwrapResult : Except String VecU8 → ServeProg H (Except String VecU8)
  | .ok res => do
    ServeOp.attempt .unwrapBytes "failed to unwrap bytes"
    pure (.ok res)
  | .error e => pure (.error e)

variable (H) in
/-- `ActorInstance::handle_invocation`; the inner result is the actor's. -/
def ActorInstance.handleInvocation (inst : ActorInstance) (contractId operation : String)
    (msg : Bytes) : ServeProg H (Except String VecU8) := do
  Prog.lift (ensureActorCapability inst.handler.claims.metadata contractId)
  ServeOp.attempt .instantiate "failed to instantiate actor"
  ServeOp.attempt .setStderr "failed to set stderr"
  if servesHttp contractId operation then do
    let req : H.CompatRequest ←
      ServeOp.attempt (.decodeHttpRequest msg) "failed to decode HTTP request"
    let req : H.Request ← ServeOp.attempt (.convertRequest req) "failed to convert request"
    ServeOp.attempt .intoIncomingHttp "failed to instantiate `wasi:http/incoming-handler`"
    .ask (.handleHttp req) fun
      | .error e => pure (.error e)
      | .ok res => do
        let res : H.CompatResponse ←
          ServeOp.attempt (.convertResponse res) "failed to convert response"
        let res : VecU8 ←
          ServeOp.attempt (.encodeHttpResponse res) "failed to encode response"
        pure (.ok res)
  else do
    let res ← ServeOp.attempt (.callActor operation msg) "failed to call actor"
    unwrapResult res

section Threshold

variable (chunkThreshold : Nat)

/-- The message of an invocation; a long one is fetched from the chunk
store. -/
def fetchMessage (invocation : Invocation) : ServeProg H Bytes :=
  if chunkThreshold < invocation.contentLength then
    ServeOp.perform (.getUnchunkified invocation.id)
  else pure invocation.msg

/-- The response to the actor's result. A long message goes into the chunk
store and leaves the response empty. -/
def respond (id : String) : Except String VecU8 → ServeProg H InvocationResponse
  | .ok msg =>
    if chunkThreshold < msg.val.length then do
      ServeOp.attempt (.chunkifyResponse id msg.val) "failed to chunk invocation response"
      pure ⟨id, [], .ofNat msg.val.length, none⟩
    else pure ⟨id, msg.val, .ofNat msg.val.length, none⟩
  | .error e => pure ⟨id, [], 0, some e⟩

variable (H) in
/-- `ActorInstance::handle_call`. -/
def ActorInstance.handleCall (inst : ActorInstance) (payload : Bytes) : ServeProg H Bytes := do
  let invocation : Invocation ←
    ServeOp.attempt (.decodeInvocation payload) "failed to decode invocation"
  ServeOp.perform (.validateAntiforgery invocation)
  let msg ← fetchMessage chunkThreshold invocation
  let res ← (inst.handleInvocation H invocation.origin.contractId invocation.operation
    msg).withContext "failed to handle invocation"
  let response ← respond chunkThreshold invocation.id res
  ServeOp.attempt (.encodeResponse response) "failed to encode response"

end Threshold

end KasmCloud
