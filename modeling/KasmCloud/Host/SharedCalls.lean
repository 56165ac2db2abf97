/-
KasmCloud.Host.SharedCalls — the calls of many actors at once.

Invocations run side by side, on any number of hosts, and what they call is
shared: the ids that are given out, the chunk store, and whoever answers on a
subject of the lattice. An operation of a call may fail, or be carried out and
lose its answer (the caller gives up on a request that was served).

* `Backend` — who answers on a subject, and the chunk store;
* `Backend.Held` — what the store has for the calls: nobody else writes under
  the id of a call, and its request is gone once it has been received;
* `Backend.sound` — the surroundings keep what a call relies on;
* `calls_linearizable` — the calls of any schedule take effect one after the
  other, each at most once and between its start and its end, and return what
  was answered, or find no answer where it is a long one.
-/
import KasmCloud.Host.Transport
import KasmCloud.Lib.Threads

namespace KasmCloud

open Lib

/-! ## Calls and what they meet -/

/-- A call over the direct path, with the tables it reads. -/
structure OutCall where
  handler : Handler
  links : LinkTable
  aliases : HashMap String WasmCloudEntity
  target : Option TargetEntity
  operation : String
  request : Bytes

/-- The entity that the call is for. -/
def OutCall.entity (c : OutCall) : Except String WasmCloudEntity :=
  match splitOnce c.operation '/' with
  | some parts => resolveTarget c.target (c.links.lookup parts.1) c.aliases
  | none => .error "failed to parse operation"

/-- The entity, if the actor may call it. -/
def OutCall.admitted (c : OutCall) : Except String WasmCloudEntity := do
  let entity ← c.entity
  ensureActorCapability c.handler.claims.metadata entity.contractId
  pure entity

def OutCall.topic (c : OutCall) (entity : WasmCloudEntity) : String :=
  callTopic c.handler.latticePrefix c.target entity

/-- Who answers on a subject, given the origin, the operation and the message
of an invocation, with a state behind it; what is left of an operation in an
invocation; how messages are encoded and stored; and the ids that invocations
get. -/
structure Backend (S σ : Type) where
  serve : String → WasmCloudEntity → String → Bytes → S → Except String VecU8 × S
  operation : String → String
  codec : Codec
  endpoint : ChunkEndpoint σ
  empty : σ
  ids : Nat → String
  ids_injective : Function.Injective ids
  /-- The ids are new. -/
  request_empty : ∀ k, endpoint.request empty (ids k) = none
  /-- No response is under the request key of another call. -/
  request_response : ∀ j k msg s,
    endpoint.request (endpoint.chunkifyResponse (ids j) msg s) (ids k) =
      endpoint.request s (ids k)

/-- The state behind the lattice, the chunk store, and how many ids were
given out. -/
structure LatticeState (S σ : Type) where
  state : S
  store : σ
  named : Nat

section Threshold

variable {S σ : Type} (chunkThreshold : Nat) (backend : Backend S σ)

def OutCall.program (c : OutCall) : CallProg (Except String Bytes) :=
  c.handler.callOperationWithPayload chunkThreshold c.links c.aliases c.target c.operation c.request

/-- The invocation that is sent. -/
def OutCall.invocation (c : OutCall) (new : NewInvocation) (entity : WasmCloudEntity) :
    Invocation :=
  ⟨new.id, c.handler.origin, entity, new.operation,
    if chunkThreshold < c.request.length then [] else c.request, c.request.length⟩

def Backend.getUnchunkified (id : String) (l : LatticeState S σ) :
    Except String Bytes × LatticeState S σ :=
  ((backend.endpoint.getUnchunkified id l.store).1,
    { l with store := (backend.endpoint.getUnchunkified id l.store).2 })

/-- The message of an invocation, as its receiver gets it. -/
def Backend.receive (invocation : Invocation) (l : LatticeState S σ) :
    Except String Bytes × LatticeState S σ :=
  if chunkThreshold < invocation.contentLength then backend.getUnchunkified invocation.id l
  else (.ok invocation.msg, l)

/-- A long response goes into the chunk store. -/
def Backend.storeResponse (id : String) (l : LatticeState S σ) :
    Except String VecU8 → LatticeState S σ
  | .ok msg =>
    if chunkThreshold < msg.val.length then
      { l with store := backend.endpoint.chunkifyResponse id msg.val l.store }
    else l
  | .error _ => l

/-- The surroundings of every call. -/
def Backend.env : Prog.Env callInterface (LatticeState S σ)
  | .socketPair, l => (.ok (), l)
  | .readRequest, l => (.ok [], l)
  | .newInvocation _ _ operation _, l =>
    (.ok ⟨backend.ids l.named, backend.operation operation⟩, { l with named := l.named + 1 })
  | .chunkify id msg, l => (.ok (), { l with store := backend.endpoint.chunkify id msg l.store })
  | .encode _, l => (.ok (), l)
  | .sendRequest topic invocation _, l =>
    match backend.receive chunkThreshold invocation l with
    | (.error _, l) => (.error "request timed out", l)
    | (.ok msg, l) =>
      match backend.serve topic invocation.origin invocation.operation msg l.state with
      | (answer, state) =>
        (.ok (backend.codec.encodeResponse (responseTo chunkThreshold invocation.id answer)),
          backend.storeResponse chunkThreshold invocation.id { l with state } answer)
  | .decodeResponse payload, l => (backend.codec.decodeResponse payload, l)
  | .getUnchunkified id, l => backend.getUnchunkified id l
  | .writeReply _, l => (.ok (), l)

/-- The callee's result in a response. -/
def calleeResult : Option String × Bytes → Except String Bytes
  | (some error, _) => .error error
  | (none, msg) => .ok msg

/-- What a call returns of an answer: a long one is looked up where it is
not. -/
def returned (answer : Except String VecU8) : Except String (Except String Bytes) :=
  (exchanged chunkThreshold answer).map calleeResult

end Threshold

/-- What a call does where it is received. -/
def Backend.apply {S σ : Type} (backend : Backend S σ) (c : OutCall) (s : S) :
    Except String VecU8 × S :=
  match c.entity with
  | .ok entity =>
    backend.serve (c.topic entity) c.handler.origin (backend.operation c.operation) c.request s
  | .error e => (.error e, s)

/-! ## The phases of a call -/

/-- How far a call is: it has its id, its long request is stored, or it has
been served. -/
inductive CallPhase where
  | fresh
  | named (new : NewInvocation)
  | stored (new : NewInvocation)
  | served (id : String) (answer : Except String VecU8)

section Phases

variable {S σ : Type} (chunkThreshold : Nat) (backend : Backend S σ)

def CallPhase.id? : CallPhase → Option String
  | .fresh => none
  | .named new | .stored new => some new.id
  | .served id _ => some id

/-- What the chunk store has under the request key of the call: it is gone
once the receiver has it. -/
def CallPhase.held (c : OutCall) : CallPhase → Option Bytes
  | .stored _ => some c.request
  | .fresh | .named _ | .served .. => none

def CallPhase.answer? : CallPhase → Option (Except String VecU8)
  | .served _ answer => some answer
  | _ => none

/-- The request goes to the call's entity, in the invocation that was named
for it. -/
def Backend.Sends (c : OutCall) (new : NewInvocation) (topic : String) (invocation : Invocation) :
    Prop :=
  new.operation = backend.operation c.operation ∧ ∃ entity, c.entity = .ok entity ∧
    topic = c.topic entity ∧ invocation = c.invocation chunkThreshold new entity

/-- What a call asks for in which phase. -/
def Backend.may (c : OutCall) : CallPhase → CallOp → Prop
  | .fresh, .newInvocation _ _ operation _ => operation = c.operation
  | .named new, .chunkify id msg =>
    id = new.id ∧ msg = c.request ∧ chunkThreshold < c.request.length
  | .named _, .encode _ => True
  | .named new, .sendRequest topic invocation _ =>
    ¬ chunkThreshold < c.request.length ∧ backend.Sends chunkThreshold c new topic invocation
  | .stored _, .encode _ => True
  | .stored new, .sendRequest topic invocation _ =>
    chunkThreshold < c.request.length ∧ backend.Sends chunkThreshold c new topic invocation
  | .served .., .decodeResponse _ => True
  | .served id _, .getUnchunkified id' => id' = id
  | _, _ => False

/-- What a call is answered, and the phase it is in then. -/
def Backend.sees (g : CallPhase) : (op : CallOp) → Except String op.Reply → CallPhase → Prop
  | .newInvocation _ _ operation _, answer, g' =>
    ∃ id, answer = .ok ⟨id, backend.operation operation⟩ ∧
      g' = .named ⟨id, backend.operation operation⟩
  | .chunkify .., answer, g' => answer = .ok () ∧ ∀ new, g = .named new → g' = .stored new
  | .encode _, answer, g' => answer = .ok () ∧ g' = g
  | .sendRequest _ invocation _, answer, g' => ∃ served,
      answer = .ok (backend.codec.encodeResponse
        (responseTo chunkThreshold invocation.id served)) ∧ g' = .served invocation.id served
  | .decodeResponse payload, answer, g' => answer = backend.codec.decodeResponse payload ∧ g' = g
  | .getUnchunkified _, answer, g' => (∃ e, answer = .error e) ∧ g' = g
  | _, _, g' => g' = g

def Backend.discipline (c : OutCall) : Discipline callInterface CallPhase where
  may := backend.may chunkThreshold c
  sees := backend.sees chunkThreshold

/-- The phase after an operation. -/
def Backend.note (c : OutCall) (g : CallPhase) (op : CallOp) (l : LatticeState S σ) : CallPhase :=
  match op with
  | .newInvocation _ _ operation _ => .named ⟨backend.ids l.named, backend.operation operation⟩
  | .chunkify .. =>
    match g with
    | .named new => .stored new
    | _ => g
  | .sendRequest _ invocation _ => .served invocation.id (backend.apply c l.state).1
  | _ => g

/-- The calls, in their surroundings: they take effect where the request is
received. -/
def Backend.setting (init : S) :
    Setting callInterface (Except String Bytes) OutCall CallPhase (Except String VecU8) S
      (LatticeState S σ) where
  program := OutCall.program chunkThreshold
  fresh := .fresh
  init := ⟨init, backend.empty, 0⟩
  env := backend.env chunkThreshold
  note := backend.note
  commits op l :=
    match op with
    | .sendRequest _ invocation _ => (backend.receive chunkThreshold invocation l).1.isOk
    | _ => false
  abs := LatticeState.state
  apply := backend.apply

end Phases

/-! ## The program of a call -/

section Program

variable {S σ α β : Type} {chunkThreshold : Nat} {backend : Backend S σ} {c : OutCall}

/-- The call is refused before it is sent. -/
def OutCall.Refused (c : OutCall) : Prop := ∃ e, c.admitted = .error e

/-- How a program ends whose call was served with an answer, or was not
served. If no operation has failed or lost its answer, it is not served only
if it is refused. -/
structure Ends (c : OutCall) (result : Except String VecU8 → Except String α) (g : CallPhase)
    (faulty : Bool) (r : Except String α) : Prop where
  faultless : faulty = false → match g.answer? with
    | some answer => r = result answer
    | none => c.Refused ∧ ∃ e, r = .error e
  ok : ∀ a, r = .ok a → ∃ answer, g.answer? = some answer ∧ result answer = .ok a

variable {result : Except String VecU8 → Except String α} {g : CallPhase}

/-- Whatever has gone wrong, a failure says nothing. -/
theorem Ends.faulty (g : CallPhase) (e : String) : Ends c result g true (.error e) where
  faultless h := by cases h
  ok a ha := by cases ha

theorem Ends.refused (hg : g.answer? = none) (h : c.Refused) (faulty : Bool) (e : String) :
    Ends c result g faulty (.error e) where
  faultless _ := by
    rw [hg]
    exact ⟨h, e, rfl⟩
  ok a ha := by cases ha

theorem Ends.served {answer : Except String VecU8} (hg : g.answer? = some answer)
    (faulty : Bool) : Ends c result g faulty (result answer) where
  faultless _ := by rw [hg]
  ok a ha := ⟨answer, hg, ha⟩

/-- A computation on the result. -/
theorem Ends.map {faulty : Bool} {r : Except String α} (h : Ends c result g faulty r)
    (k : α → β) : Ends c (fun answer => (result answer).map k) g faulty (r.map k) where
  faultless hfaulty := by
    have hexact := h.faultless hfaulty
    cases hg : g.answer? with
    | some answer =>
      simp only [hg] at hexact ⊢
      rw [hexact]
    | none =>
      simp only [hg] at hexact ⊢
      obtain ⟨hrefused, e, rfl⟩ := hexact
      exact ⟨hrefused, e, rfl⟩
  ok b hb := by
    cases r with
    | error e => cases hb
    | ok a =>
      cases hb
      obtain ⟨answer, hg, hanswer⟩ := h.ok a rfl
      exact ⟨answer, hg, by rw [hanswer]; rfl⟩

/-- The end of a call that has been served. -/
theorem receiveResponse_keeps (id : String) (answer : Except String VecU8) (faulty : Bool) :
    (receiveResponse chunkThreshold id
        (backend.codec.encodeResponse (responseTo chunkThreshold id answer))).Keeps
      (backend.discipline chunkThreshold c) (Ends c (exchanged chunkThreshold))
      (.served id answer) faulty := by
  unfold receiveResponse
  refine Prog.keeps_bind (Prog.keeps_attempt trivial (Ends.faulty _ _) ?_)
  rintro reply g' ⟨rfl, rfl⟩
  refine ⟨?_, Ends.faulty _ _⟩
  rw [backend.codec.decode_encode_response]
  have hread : ∀ r, exchanged chunkThreshold answer = r →
      Ends c (exchanged chunkThreshold) (.served id answer) faulty r := by
    rintro r rfl
    exact Ends.served rfl faulty
  cases answer with
  | error e =>
    simp only [responseTo, Except.mapError, ne_eq, not_true_eq_false, if_false]
    exact hread _ rfl
  | ok response =>
    have hlength : (UInt64.ofNat response.val.length).toNat = response.val.length :=
      UInt64.toNat_ofNat_of_lt response.property
    simp only [responseTo, Except.mapError, hlength, ne_eq, not_true_eq_false, if_false]
    by_cases hlong : chunkThreshold < response.val.length
    · rw [if_pos hlong]
      refine Prog.keeps_bind (Prog.keeps_attempt rfl (Ends.faulty _ _) ?_)
      rintro reply g' ⟨⟨e, rfl⟩, rfl⟩
      refine ⟨hread _ ?_, Ends.faulty _ _⟩
      simp [exchanged, hlong]
    · rw [if_neg hlong, if_neg hlong, if_pos rfl]
      refine hread _ ?_
      simp [exchanged, hlong]

/-- From the request to the response; `msg` is what is left in the
invocation. -/
theorem send_keeps {new : NewInvocation} {sendError : String} {msg : Bytes}
    {entity : WasmCloudEntity} (hoperation : new.operation = backend.operation c.operation)
    (hentity : c.entity = .ok entity)
    (hmsg : (if chunkThreshold < c.request.length then [] else c.request) = msg)
    (hencode : ∀ invocation, backend.may chunkThreshold c g (.encode invocation))
    (hsend : ∀ topic invocation extraTime, backend.Sends chunkThreshold c new topic invocation →
      backend.may chunkThreshold c g (.sendRequest topic invocation extraTime)) (faulty : Bool) :
    (let invocation : Invocation :=
      ⟨new.id, c.handler.origin, entity, new.operation, msg, c.request.length⟩
    (do
      CallOp.attempt (.encode invocation) "failed to encode invocation"
      let payload : Bytes ← CallOp.attempt
        (.sendRequest (c.topic entity) invocation (decide (chunkThreshold < c.request.length)))
        sendError
      receiveResponse chunkThreshold new.id payload : CallProg (Option String × Bytes))).Keeps
      (backend.discipline chunkThreshold c) (Ends c (exchanged chunkThreshold)) g faulty := by
  subst hmsg
  refine Prog.keeps_bind (Prog.keeps_attempt (hencode _) (Ends.faulty _ _) ?_)
  rintro answer g' ⟨rfl, rfl⟩
  refine ⟨?_, Ends.faulty _ _⟩
  refine Prog.keeps_bind (Prog.keeps_attempt
    (hsend _ _ _ ⟨hoperation, entity, hentity, rfl, rfl⟩) (Ends.faulty _ _) ?_)
  rintro answer g' ⟨served, rfl, rfl⟩
  exact ⟨receiveResponse_keeps new.id served faulty, Ends.faulty _ _⟩

/-- The part of a call that both paths have. -/
theorem exchange_keeps (sendError : String) :
    (c.handler.exchange chunkThreshold c.links c.aliases c.target c.operation c.request
        sendError).Keeps (backend.discipline chunkThreshold c) (Ends c (exchanged chunkThreshold))
      .fresh false := by
  unfold Handler.exchange
  cases hparts : splitOnce c.operation '/' with
  | none =>
    have hrefused : c.admitted = .error "failed to parse operation" := by
      simp only [OutCall.admitted, OutCall.entity, hparts]
      rfl
    exact Prog.keeps_bind (Ends.refused rfl ⟨_, hrefused⟩ _ _)
  | some parts =>
    refine Prog.keeps_bind ?_
    show Prog.Keeps _ _ _ _ _
    refine Prog.keeps_bind (Prog.keeps_lift _ |>.mpr ?_)
    cases hentity : resolveTarget c.target (c.links.lookup parts.1) c.aliases with
    | error e =>
      have hrefused : c.admitted = .error e := by
        simp only [OutCall.admitted, OutCall.entity, hparts, hentity]
        rfl
      exact Ends.refused rfl ⟨_, hrefused⟩ _ _
    | ok entity =>
      have hc : c.entity = .ok entity := by simp only [OutCall.entity, hparts, hentity]
      refine Prog.keeps_bind (Prog.keeps_perform rfl (fun e => Ends.faulty _ e) ?_)
      rintro answer g' ⟨id, rfl, rfl⟩
      refine ⟨?_, fun e => Ends.faulty _ e⟩
      have hoperation : (⟨id, backend.operation c.operation⟩ : NewInvocation).operation =
          backend.operation c.operation := rfl
      refine Prog.keeps_bind (Prog.keeps_lift _ |>.mpr ?_)
      cases hcapable : ensureActorCapability c.handler.claims.metadata entity.contractId with
      | error e =>
        have hrefused : c.admitted = .error e := by
          simp only [OutCall.admitted, hc]
          show (ensureActorCapability _ _ >>= _) = _
          rw [hcapable]
          rfl
        exact Ends.refused rfl ⟨_, hrefused⟩ _ _
      | ok _ =>
        refine Prog.keeps_bind ?_
        unfold storeRequest
        by_cases hlong : chunkThreshold < c.request.length
        · rw [if_pos hlong]
          refine Prog.keeps_bind (Prog.keeps_attempt ⟨rfl, rfl, hlong⟩ (Ends.faulty _ _) ?_)
          rintro answer g' ⟨rfl, hstored⟩
          obtain rfl := hstored _ rfl
          refine ⟨?_, Ends.faulty _ _⟩
          exact send_keeps (g := .stored _) hoperation hc (if_pos hlong) (fun _ => trivial)
            (fun _ _ _ hsends => ⟨hlong, hsends⟩) false
        · rw [if_neg hlong]
          exact send_keeps (g := .named _) hoperation hc (if_neg hlong) (fun _ => trivial)
            (fun _ _ _ hsends => ⟨hlong, hsends⟩) false

/-- The direct path. -/
theorem program_keeps :
    (c.program chunkThreshold).Keeps (backend.discipline chunkThreshold c)
      (Ends c (returned chunkThreshold)) .fresh false := by
  unfold OutCall.program Handler.callOperationWithPayload
  refine Prog.keeps_bind ((exchange_keeps _).mono fun g faulty r hends => ?_)
  have hmapped := hends.map calleeResult
  rcases r with e | ⟨_ | error, msg⟩
  · exact hmapped
  · exact hmapped
  · exact hmapped

end Program

/-! ## The surroundings -/

section Sound

variable {S σ : Type} {backend : Backend S σ} {chunkThreshold : Nat} {l l' : LatticeState S σ}
  {ts : List (OutCall × CallPhase)}

@[simp] theorem storeResponse_state (id : String) (l : LatticeState S σ)
    (answer : Except String VecU8) :
    (backend.storeResponse chunkThreshold id l answer).state = l.state := by
  cases answer with
  | error e => rfl
  | ok msg =>
    simp only [Backend.storeResponse]
    split <;> rfl

@[simp] theorem storeResponse_named (id : String) (l : LatticeState S σ)
    (answer : Except String VecU8) :
    (backend.storeResponse chunkThreshold id l answer).named = l.named := by
  cases answer with
  | error e => rfl
  | ok msg =>
    simp only [Backend.storeResponse]
    split <;> rfl

@[simp] theorem storeResponse_request (j k : Nat) (l : LatticeState S σ)
    (answer : Except String VecU8) :
    backend.endpoint.request (backend.storeResponse chunkThreshold (backend.ids j) l answer).store
        (backend.ids k) = backend.endpoint.request l.store (backend.ids k) := by
  cases answer with
  | error e => rfl
  | ok msg =>
    simp only [Backend.storeResponse]
    split
    · exact backend.request_response j k msg.val l.store
    · rfl

/-- Every call has an id of its own, and the chunk store has under its request
key what the call has put there, and nothing for the ids to come. -/
structure Backend.Held (backend : Backend S σ) (l : LatticeState S σ)
    (ts : List (OutCall × CallPhase)) : Prop where
  ids : ∀ {i : Nat} {c : OutCall} {g : CallPhase} {id : String}, ts[i]? = some (c, g) →
    g.id? = some id → ∃ k < l.named, backend.ids k = id
  apart : ∀ {i j : Nat} {c c' : OutCall} {g g' : CallPhase} {id : String}, ts[i]? = some (c, g) →
    ts[j]? = some (c', g') → g.id? = some id → g'.id? = some id → i = j
  held : ∀ {i : Nat} {c : OutCall} {g : CallPhase} {id : String}, ts[i]? = some (c, g) →
    g.id? = some id → backend.endpoint.request l.store id = g.held c
  free : ∀ k, l.named ≤ k → backend.endpoint.request l.store (backend.ids k) = none

/-- A thread after its phase is set, or another one. -/
theorem getElem?_set_cases {i j : Nat} {c c' : OutCall} {g g' : CallPhase}
    (h : (ts.set i (c, g))[j]? = some (c', g')) :
    i = j ∧ c' = c ∧ g' = g ∨ i ≠ j ∧ ts[j]? = some (c', g') := by
  rw [List.getElem?_set] at h
  split at h
  · rename_i hij
    split at h
    · cases h
      exact .inl ⟨hij, rfl, rfl⟩
    · cases h
  · rename_i hij
    exact .inr ⟨hij, h⟩

/-- A call goes on under its id. -/
theorem Backend.Held.set (h : backend.Held l ts) {i : Nat} {c : OutCall} {g g' : CallPhase}
    {id : String} (hi : ts[i]? = some (c, g)) (hid : g.id? = some id) (hid' : g'.id? = some id)
    (hnamed : l'.named = l.named)
    (hrequests : ∀ k, backend.endpoint.request l'.store (backend.ids k) =
      if backend.ids k = id then g'.held c
      else backend.endpoint.request l.store (backend.ids k)) :
    backend.Held l' (ts.set i (c, g')) where
  ids := by
    intro j c₁ g₁ id₁ hj hid₁
    rw [hnamed]
    rcases getElem?_set_cases hj with ⟨rfl, rfl, rfl⟩ | ⟨-, hj⟩
    · rw [hid', Option.some.injEq] at hid₁
      subst hid₁
      exact h.ids hi hid
    · exact h.ids hj hid₁
  apart := by
    intro j k c₁ c₂ g₁ g₂ id₁ hj hk hid₁ hid₂
    rcases getElem?_set_cases hj with ⟨rfl, rfl, rfl⟩ | ⟨-, hold⟩
    · rw [hid', Option.some.injEq] at hid₁
      subst hid₁
      rcases getElem?_set_cases hk with ⟨rfl, rfl, rfl⟩ | ⟨-, hold⟩
      · rfl
      · exact h.apart hi hold hid hid₂
    · rcases getElem?_set_cases hk with ⟨rfl, rfl, rfl⟩ | ⟨-, hold'⟩
      · rw [hid', Option.some.injEq] at hid₂
        subst hid₂
        exact h.apart hold hi hid₁ hid
      · exact h.apart hold hold' hid₁ hid₂
  held := by
    intro j c₁ g₁ id₁ hj hid₁
    rcases getElem?_set_cases hj with ⟨rfl, rfl, rfl⟩ | ⟨hne, hj⟩
    · rw [hid', Option.some.injEq] at hid₁
      obtain ⟨k, -, rfl⟩ := h.ids hi hid
      rw [← hid₁, hrequests, if_pos rfl]
    · obtain ⟨k, -, rfl⟩ := h.ids hj hid₁
      have hother : backend.ids k ≠ id := by
        rintro rfl
        exact hne (h.apart hi hj hid hid₁)
      rw [hrequests, if_neg hother, h.held hj hid₁]
  free := by
    intro k hk
    rw [hnamed] at hk
    have hother : backend.ids k ≠ id := by
      rintro rfl
      obtain ⟨k', hk', heq⟩ := h.ids hi hid
      have hkk := backend.ids_injective heq
      omega
    rw [hrequests, if_neg hother, h.free k hk]

/-- A call gets its id. -/
theorem Backend.Held.name (h : backend.Held l ts) {i : Nat} {c : OutCall} {g : CallPhase}
    (hi : ts[i]? = some (c, g)) (operation : String) :
    backend.Held { l with named := l.named + 1 }
      (ts.set i (c, .named ⟨backend.ids l.named, operation⟩)) where
  ids := by
    intro j c₁ g₁ id₁ hj hid₁
    rcases getElem?_set_cases hj with ⟨rfl, rfl, rfl⟩ | ⟨-, hj⟩
    · cases hid₁
      exact ⟨l.named, Nat.lt_succ_self _, rfl⟩
    · obtain ⟨k, hk, heq⟩ := h.ids hj hid₁
      exact ⟨k, Nat.lt_succ_of_lt hk, heq⟩
  apart := by
    have hnew : ∀ {j : Nat} {c₁ : OutCall} {g₁ : CallPhase}, ts[j]? = some (c₁, g₁) →
        g₁.id? ≠ some (backend.ids l.named) := by
      intro j c₁ g₁ hj hid₁
      obtain ⟨k, hk, heq⟩ := h.ids hj hid₁
      have hkk := backend.ids_injective heq
      omega
    intro j k c₁ c₂ g₁ g₂ id₁ hj hk hid₁ hid₂
    rcases getElem?_set_cases hj with ⟨rfl, rfl, rfl⟩ | ⟨-, hold⟩
    · cases hid₁
      rcases getElem?_set_cases hk with ⟨rfl, rfl, rfl⟩ | ⟨-, hold⟩
      · rfl
      · exact absurd hid₂ (hnew hold)
    · rcases getElem?_set_cases hk with ⟨rfl, rfl, rfl⟩ | ⟨-, hold'⟩
      · cases hid₂
        exact absurd hid₁ (hnew hold)
      · exact h.apart hold hold' hid₁ hid₂
  held := by
    intro j c₁ g₁ id₁ hj hid₁
    rcases getElem?_set_cases hj with ⟨rfl, rfl, rfl⟩ | ⟨-, hj⟩
    · cases hid₁
      exact h.free _ le_rfl
    · exact h.held hj hid₁
  free k hk := h.free k (Nat.le_of_succ_le hk)

/-- A call may send its request: what it has put into the store is the whole
of a long one. -/
structure Backend.Ready (backend : Backend S σ) (chunkThreshold : Nat) (c : OutCall)
    (g : CallPhase) (topic : String) (invocation : Invocation) : Prop where
  sends : ∃ new, new.id = invocation.id ∧ backend.Sends chunkThreshold c new topic invocation
  id : g.id? = some invocation.id
  unanswered : g.answer? = none
  held : g.held c = if chunkThreshold < c.request.length then some c.request else none

/-- What a call asks for. -/
theorem may_cases {c : OutCall} {g : CallPhase} {op : CallOp}
    (h : backend.may chunkThreshold c g op) :
    (g = .fresh ∧ ∃ origin target operation msg, op = .newInvocation origin target operation msg) ∨
      (∃ new, g = .named new ∧ op = .chunkify new.id c.request ∧
        chunkThreshold < c.request.length) ∨
      (∃ topic invocation extraTime, op = .sendRequest topic invocation extraTime ∧
        backend.Ready chunkThreshold c g topic invocation) ∨
      (∃ invocation, op = .encode invocation) ∨
      ∃ id answer, g = .served id answer ∧
        ((∃ payload, op = .decodeResponse payload) ∨ op = .getUnchunkified id) := by
  have hsends : ∀ {new topic invocation}, backend.Sends chunkThreshold c new topic invocation →
      new.id = invocation.id := by
    rintro new topic invocation ⟨-, entity, -, -, rfl⟩
    rfl
  cases g with
  | fresh =>
    cases op with
    | newInvocation origin target operation msg => exact .inl ⟨rfl, _, _, _, _, rfl⟩
    | _ => cases h
  | named new =>
    cases op with
    | chunkify id msg =>
      obtain ⟨rfl, rfl, hlong⟩ := h
      exact .inr (.inl ⟨_, rfl, rfl, hlong⟩)
    | encode invocation => exact .inr (.inr (.inr (.inl ⟨_, rfl⟩)))
    | sendRequest topic invocation extraTime =>
      obtain ⟨hshort, hsent⟩ := h
      have hid := hsends hsent
      exact .inr (.inr (.inl ⟨_, _, _, rfl, ⟨new, hid, hsent⟩, congrArg some hid, rfl,
        (if_neg hshort).symm⟩))
    | _ => cases h
  | stored new =>
    cases op with
    | encode invocation => exact .inr (.inr (.inr (.inl ⟨_, rfl⟩)))
    | sendRequest topic invocation extraTime =>
      obtain ⟨hlong, hsent⟩ := h
      have hid := hsends hsent
      exact .inr (.inr (.inl ⟨_, _, _, rfl, ⟨new, hid, hsent⟩, congrArg some hid, rfl,
        (if_pos hlong).symm⟩))
    | _ => cases h
  | served id answer =>
    cases op with
    | decodeResponse payload => exact .inr (.inr (.inr (.inr ⟨_, _, rfl, .inl ⟨_, rfl⟩⟩)))
    | getUnchunkified id' =>
      cases h
      exact .inr (.inr (.inr (.inr ⟨_, _, rfl, .inr rfl⟩)))
    | _ => cases h

/-- The receiver of a call's request gets the whole request, and the store has
it no longer. -/
theorem Backend.Held.receive (h : backend.Held l ts) {i : Nat} {c : OutCall} {g : CallPhase}
    {topic : String} {invocation : Invocation} (hi : ts[i]? = some (c, g))
    (hready : backend.Ready chunkThreshold c g topic invocation) :
    ∃ store, backend.receive chunkThreshold invocation l = (.ok c.request, { l with store }) ∧
      ∀ id, backend.endpoint.request store id =
        if id = invocation.id then none else backend.endpoint.request l.store id := by
  have hstored := h.held hi hready.id
  rw [hready.held] at hstored
  obtain ⟨new, -, -, entity, -, -, hinvocation⟩ := hready.sends
  have hlength : invocation.contentLength = c.request.length := by rw [hinvocation]; rfl
  have hmsg : invocation.msg = if chunkThreshold < c.request.length then [] else c.request := by
    rw [hinvocation]
    rfl
  unfold Backend.receive
  by_cases hlong : chunkThreshold < c.request.length
  · rw [if_pos hlong] at hstored
    rw [hlength, if_pos hlong]
    refine ⟨(backend.endpoint.getUnchunkified invocation.id l.store).2, ?_,
      backend.endpoint.request_getUnchunkified invocation.id l.store⟩
    exact congrArg (·, _) (backend.endpoint.found hstored)
  · rw [if_neg hlong] at hstored hmsg
    rw [hlength, if_neg hlong, hmsg]
    refine ⟨l.store, rfl, fun id => ?_⟩
    split
    · rename_i hid
      rw [hid, hstored]
    · rfl

/-- A request that is received takes effect, and the call goes on. -/
theorem Backend.Held.serve (h : backend.Held l ts) {i : Nat} {c : OutCall} {g : CallPhase}
    {topic : String} {invocation : Invocation} (hi : ts[i]? = some (c, g))
    (hready : backend.Ready chunkThreshold c g topic invocation) (extraTime : Bool) :
    let answered := backend.apply c l.state
    ∃ l', backend.env chunkThreshold (.sendRequest topic invocation extraTime) l =
        (.ok (backend.codec.encodeResponse (responseTo chunkThreshold invocation.id answered.1)),
          l') ∧
      l'.state = answered.2 ∧ backend.Held l' (ts.set i (c, .served invocation.id answered.1)) := by
  intro answered
  obtain ⟨store, hreceive, hgone⟩ := h.receive hi hready
  obtain ⟨new, -, hoperation, entity, hentity, rfl, hinvocation⟩ := hready.sends
  have hparts : invocation.origin = c.handler.origin ∧
      invocation.operation = backend.operation c.operation := by
    rw [hinvocation, ← hoperation]
    exact ⟨rfl, rfl⟩
  have hanswered : backend.serve (c.topic entity) invocation.origin invocation.operation c.request
      l.state = answered := by
    simp only [answered, Backend.apply, hentity, hparts]
  refine ⟨backend.storeResponse chunkThreshold invocation.id
    { l with state := answered.2, store } answered.1, ?_, by simp, ?_⟩
  · simp only [Backend.env, hreceive, hanswered]
  · refine h.set hi hready.id rfl (by simp) fun k => ?_
    obtain ⟨j, -, hj⟩ := h.ids hi hready.id
    rw [← hj, storeResponse_request, hj, hgone]
    rfl

/-- Nothing is under the request key of a call that has been served. -/
theorem Backend.Held.read (h : backend.Held l ts) {i : Nat} {c : OutCall} {id : String}
    {answer : Except String VecU8} (hi : ts[i]? = some (c, .served id answer)) :
    (∃ e, (backend.getUnchunkified id l).1 = .error e) ∧
      backend.Held (backend.getUnchunkified id l).2 (ts.set i (c, .served id answer)) := by
  refine ⟨backend.endpoint.missing (h.held hi rfl), h.set hi rfl rfl rfl fun k => ?_⟩
  exact backend.endpoint.request_getUnchunkified id l.store (backend.ids k)

theorem set_self {i : Nat} {x : OutCall × CallPhase} (hi : ts[i]? = some x) :
    ts.set i x = ts := by
  obtain ⟨hlt, rfl⟩ := List.getElem?_eq_some_iff.mp hi
  exact List.set_getElem_self hlt

/-- The surroundings keep to what a call relies on. -/
theorem Backend.sound (init : S) :
    (backend.setting chunkThreshold init).Sound (backend.discipline chunkThreshold)
      (fun c => Ends c (returned chunkThreshold)) CallPhase.answer? backend.Held
      (fun _ => True) where
  keeps _ _ := program_keeps
  fresh := rfl
  init := by
    constructor <;> simp [Backend.setting, backend.request_empty]
  start s ts c h _ := by
    have hold : ∀ {i : Nat} {c' : OutCall} {g : CallPhase} {id : String},
        (ts ++ [(c, CallPhase.fresh)])[i]? = some (c', g) → g.id? = some id →
          ts[i]? = some (c', g) := by
      intro i c' g id hi hid
      rw [List.getElem?_append] at hi
      split at hi
      · exact hi
      · obtain ⟨rfl, rfl⟩ := Prod.mk.inj (List.mem_singleton.mp (List.mem_of_getElem? hi))
        cases hid
    exact ⟨fun hi hid => h.ids (hold hi hid) hid,
      fun hi hj hid hid' => h.apart (hold hi hid) (hold hj hid') hid hid',
      fun hi hid => h.held (hold hi hid) hid, h.free⟩
  sees := by
    rintro l ts i c g op ⟨h, hi, hmay⟩
    rcases may_cases hmay with ⟨rfl, _, _, _, _, rfl⟩ | ⟨new, rfl, rfl, hlong⟩ |
      ⟨topic, invocation, extraTime, rfl, hready⟩ | ⟨invocation, rfl⟩ |
      ⟨id, answer, rfl, ⟨payload, rfl⟩ | rfl⟩
    · exact ⟨_, rfl, rfl⟩
    · exact ⟨rfl, fun _ hnew => by cases hnew; rfl⟩
    · obtain ⟨l', hsent, -, -⟩ := h.serve hi hready extraTime
      exact ⟨_, congrArg Prod.fst hsent, rfl⟩
    · exact ⟨rfl, rfl⟩
    · exact ⟨rfl, rfl⟩
    · exact ⟨(h.read hi).1, rfl⟩
  inv := by
    rintro l ts i c g op ⟨h, hi, hmay⟩
    rcases may_cases hmay with ⟨rfl, _, _, operation, _, rfl⟩ | ⟨new, rfl, rfl, hlong⟩ |
      ⟨topic, invocation, extraTime, rfl, hready⟩ | ⟨invocation, rfl⟩ |
      ⟨id, answer, rfl, ⟨payload, rfl⟩ | rfl⟩
    · exact h.name hi _
    · exact h.set hi rfl rfl rfl fun k => backend.endpoint.request_chunkify _ _ _ _
    · obtain ⟨l', hsent, -, hheld⟩ := h.serve hi hready extraTime
      obtain rfl : (backend.env chunkThreshold _ l).2 = l' := congrArg Prod.snd hsent
      exact hheld
    · exact (set_self hi).symm ▸ h
    · exact (set_self hi).symm ▸ h
    · exact (h.read hi).2
  commit := by
    rintro l ts i c g op ⟨h, hi, hmay⟩ hcommits
    rcases may_cases hmay with ⟨rfl, _, _, _, _, rfl⟩ | ⟨new, rfl, rfl, hlong⟩ |
      ⟨topic, invocation, extraTime, rfl, hready⟩ | ⟨invocation, rfl⟩ |
      ⟨id, answer, rfl, ⟨payload, rfl⟩ | rfl⟩
    · cases hcommits
    · cases hcommits
    · obtain ⟨l', hsent, hstate, -⟩ := h.serve hi hready extraTime
      obtain rfl : (backend.env chunkThreshold _ l).2 = l' := congrArg Prod.snd hsent
      exact ⟨hready.unanswered, hstate, rfl⟩
    · cases hcommits
    · cases hcommits
    · cases hcommits
  silent := by
    rintro l ts i c g op ⟨h, hi, hmay⟩ hcommits
    rcases may_cases hmay with ⟨rfl, _, _, _, _, rfl⟩ | ⟨new, rfl, rfl, hlong⟩ |
      ⟨topic, invocation, extraTime, rfl, hready⟩ | ⟨invocation, rfl⟩ |
      ⟨id, answer, rfl, ⟨payload, rfl⟩ | rfl⟩
    · exact ⟨rfl, rfl⟩
    · exact ⟨rfl, rfl⟩
    · obtain ⟨store, hreceive, -⟩ := h.receive hi hready
      have hreceived : (backend.receive chunkThreshold invocation l).1.isOk = false := hcommits
      rw [hreceive] at hreceived
      cases hreceived
    · exact ⟨rfl, rfl⟩
    · exact ⟨rfl, rfl⟩
    · exact ⟨rfl, rfl⟩

end Sound

/-! ## Any schedule -/

/-- A provider that hands out the next number, as many times as the request is
long. -/
def ticketBackend (codec : Codec) : Backend Nat (HashMap String Bytes) where
  serve _ _ _ msg s :=
    if h : msg.length < 2 ^ 64 then
      (.ok ⟨List.replicate msg.length (UInt8.ofNat s), by simpa using h⟩, s + 1)
    else (.error "request too long", s)
  operation := lastPart
  codec := codec
  endpoint := objectEndpoint
  empty := ∅
  ids n := String.ofList (List.replicate n 'i')
  ids_injective := by
    intro n m h
    have hlists := congrArg String.toList h
    simpa using congrArg List.length hlists
  request_empty _ := rfl
  request_response j k msg objects := by
    refine AList.lookup_insert_ne fun heq => ?_
    have hlists : List.replicate k 'i' = List.replicate j 'i' ++ ['-', 'r'] := by
      simpa using congrArg String.toList heq
    have hmem : '-' ∈ List.replicate k 'i' := by
      rw [hlists]
      simp
    have heq := List.eq_of_mem_replicate hmem
    revert heq
    decide

def ticketCall (request : Bytes) : OutCall where
  handler := sampleHandler
  links := ∅
  aliases := ∅
  target := calledByKey
  operation := "tickets/Take"
  request := request

/-- A call with a long request, which is answered at length, and two short
ones, of which the first loses its answer. -/
def ticketSteps : List (PoolStep OutCall) :=
  [.start (ticketCall [1, 2, 3]), .start (ticketCall [1]), .start (ticketCall [1]), .ask 0 .done,
    .ask 1 .done, .ask 2 .done, .ask 1 .done, .ask 0 .done, .ask 1 (.lost "timeout"), .ask 0 .done,
    .ask 0 .done, .ask 0 .done, .ask 2 .done, .ask 0 .done, .ask 2 .done, .ask 2 .done]

/-- In what order the calls were served, and what they have returned. -/
def outcome {α C γ Rep σ : Type} (p : Pool callInterface α C γ Rep σ) :
    List Nat × List (Option (Except String α)) :=
  (p.log.map Prod.fst, p.threads.map fun t => t.program.result?)

theorem ticketSteps_run :
    (((ticketBackend unaryCodec).setting 2 7).machine.exec ⟨⟨7, ∅, 0⟩, [], []⟩ ticketSteps).map
        outcome =
      some ([1, 0, 2], [some (.error "failed to dechunk response"),
        some (.error "failed to publish on NATS topic"), some (.ok (.ok [9]))]) := by
  rfl

end KasmCloud
