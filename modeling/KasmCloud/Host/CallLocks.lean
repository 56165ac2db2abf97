/-
KasmCloud.Host.CallLocks — the locks that invocations, link changes and
target changes share (`crates/host/src/handler.rs`, `lib.rs`).

`callMachine` interleaves any number of tasks on one host:

* an invocation runs its guest and, one operation after the other, what the
  guest asks its handler for. An outgoing call takes its guards in the order
  of the source and keeps them until the reply is there, or until it gives
  up; `identify_wasmbus_target` and `set_target` drop theirs at once;
* the future that `Bus::call` returns is a task of its own, which its
  invocation may wait for at any time, or drop;
* `add_linkdef` and `delete_linkdef` have two sections: the table of the
  host, then the links of the group, with the table of groups read-locked;
* a callee is another invocation, or a provider, which may call actors
  itself before it replies.

What the calls carry is not part of this state, and neither are the tasks
that start and stop actors. The chunk store and the message server answer by
themselves, so a wait for them is not a wait for a task.
-/
import KasmCloud.Host.State
import KasmCloud.Lib.Machine
import KasmCloud.Lib.RwLock
import Mathlib.Logic.Function.Basic

namespace KasmCloud

open Lib

/-! ## Locks and requests -/

inductive LockName where
  /-- The links of a group. -/
  | links (group : Ref)
  | targets (table : Ref)
  | aliases
  /-- `Host.links` -/
  | hostLinks
  /-- `Host.actors` -/
  | hostActors
  deriving DecidableEq, Repr

abbrev LockRequest := LockName × LockMode

/-- What a task does with its guards. -/
inductive Goal where
  /-- A request goes out, and they are kept until the reply. -/
  | send
  /-- They are dropped. -/
  | back
  /-- They are dropped, and the group is next. -/
  | route (group : Option Ref)

/-- What a guest asks its handler for and waits for. -/
inductive GuestOp where
  /-- A method of the blobstore, keyvalue or messaging interface. -/
  | interfaceCall
  | callSync
  | identifyWasmbusTarget
  | setTarget
  deriving DecidableEq, Repr

/-- `call_operation_with_payload`, and the future of `Bus::call`. -/
def Handler.callLocks (handler : Handler) : List LockRequest :=
  [(.links handler.links, .read), (.aliases, .read)]

def GuestOp.locks (handler : Handler) : GuestOp → List LockRequest
  | .interfaceCall => (.targets handler.targets, .read) :: handler.callLocks
  | .callSync => handler.callLocks
  | .identifyWasmbusTarget => [(.links handler.links, .read)]
  | .setTarget => [(.targets handler.targets, .write)]

def GuestOp.goal : GuestOp → Goal
  | .interfaceCall | .callSync => .send
  | .identifyWasmbusTarget | .setTarget => .back

/-- The second section of `add_linkdef` and `delete_linkdef`. -/
def routeLocks : Option Ref → List LockRequest
  | none => [(.hostActors, .read)]
  | some group => [(.hostActors, .read), (.links group, .write)]

/-! ## Tasks -/

abbrev TaskId := Nat

inductive TaskKind where
  | invocation (handler : Handler)
  /-- A future of `Bus::call`. -/
  | busCall (handler : Handler) (owner : TaskId)
  | provider
  | linkChange

inductive Phase where
  | idle
  /-- It takes these locks, the first one next. -/
  | taking (todo : List LockRequest) (goal : Goal)
  /-- It is in the queue of `lock`. -/
  | queued (lock : LockName) (todo : List LockRequest) (goal : Goal)
  | awaiting (callee : TaskId)
  | done

/-- The task whose reply is awaited. -/
def Phase.callee : Phase → Option TaskId
  | .awaiting callee => some callee
  | _ => none

/-- Whom a request is sent to. -/
inductive Callee where
  | actor (handler : Handler)
  | provider

def Callee.kind : Callee → TaskKind
  | .actor handler => .invocation handler
  | .provider => .provider

/-- Where a task is once a reply is there or its guards are dropped. -/
def TaskKind.atRest : TaskKind → Phase
  | .invocation _ | .provider => .idle
  | .busCall .. | .linkChange => .done

structure LockState where
  lock : LockName → RwLock TaskId
  kind : TaskId → TaskKind
  phase : TaskId → Phase
  /-- The tasks from here on do not exist yet. -/
  next : TaskId

def LockState.new : LockState where
  lock _ := .unlocked
  kind _ := .provider
  phase _ := .done
  next := 0

inductive CallStep where
  /-- A message for an actor arrives. -/
  | invoke (handler : Handler)
  /-- `add_linkdef` or `delete_linkdef` is called. The table of the host
  changes or does not (`changed`); `group` is the actor's, if it has one. -/
  | changeLink (changed : Bool) (group : Option Ref)
  | begin (t : TaskId) (op : GuestOp)
  /-- `Bus::call` -/
  | busCall (t : TaskId)
  | take (t : TaskId)
  /-- The first in the queue of the lock gets its guard. -/
  | grant (lock : LockName)
  | send (t : TaskId) (callee : Callee)
  /-- The guards are dropped: the work under them is done, or a call fails
  before its request is sent. -/
  | leave (t : TaskId)
  /-- The guest waits for a future of `Bus::call`. -/
  | join (t u : TaskId)
  /-- The reply arrives. -/
  | resume (t : TaskId)
  /-- No reply: an error or a timeout. -/
  | giveUp (t : TaskId)
  | reply (t : TaskId)
  /-- A future of `Bus::call` is dropped. -/
  | abandon (u : TaskId)

/-! ## Steps -/

namespace LockState

variable (s : LockState)

/-- The locks change, and one task moves on. -/
def move (t : TaskId) (phase : Phase) (lock : LockName → RwLock TaskId) : LockState :=
  { s with lock, phase := Function.update s.phase t phase }

def enter (kind : TaskKind) (phase : Phase) : LockState :=
  { s with
    kind := Function.update s.kind s.next kind
    phase := Function.update s.phase s.next phase
    next := s.next + 1 }

def without (t : TaskId) (l : LockName) : RwLock TaskId := (s.lock l).drop t

/-- The guards of a task are dropped, and it is at rest. -/
def rest (t : TaskId) : LockState :=
  s.move t (s.kind t).atRest (s.without t)

def changeLink (changed : Bool) (group : Option Ref) : LockState :=
  s.enter .linkChange
    (.taking [(.hostLinks, .write)] (if changed then .route group else .back))

def beginOp (t : TaskId) (op : GuestOp) : Option LockState :=
  match s.kind t, s.phase t with
  | .invocation handler, .idle => some (s.move t (.taking (op.locks handler) op.goal) s.lock)
  | _, _ => none

def busCall (t : TaskId) : Option LockState :=
  match s.kind t, s.phase t with
  | .invocation handler, .idle =>
    some (s.enter (.busCall handler t) (.taking handler.callLocks .send))
  | _, _ => none

def take (t : TaskId) : Option LockState :=
  match s.phase t with
  | .taking ((l, mode) :: todo) goal =>
    if (s.lock l).grants mode then
      some (s.move t (.taking todo goal) (Function.update s.lock l ((s.lock l).hold t mode)))
    else
      some (s.move t (.queued l todo goal) (Function.update s.lock l ((s.lock l).enqueue t mode)))
  | _ => none

def grant (l : LockName) : Option LockState :=
  match (s.lock l).advance with
  | some (t, lock) =>
    match s.phase t with
    | .queued _ todo goal => some (s.move t (.taking todo goal) (Function.update s.lock l lock))
    | _ => none
  | none => none

/-- The callee is a new task. -/
def await (t : TaskId) (callee : Callee) : LockState :=
  (s.enter callee.kind .idle).move t (.awaiting s.next) s.lock

def send (t : TaskId) (callee : Callee) : Option LockState :=
  match s.phase t with
  | .taking [] .send => some (s.await t callee)
  | .idle =>
    match s.kind t with
    | .provider => some (s.await t callee)
    | _ => none
  | _ => none

def leave (t : TaskId) : Option LockState :=
  match s.phase t with
  | .taking _ .send => some (s.rest t)
  | .taking [] .back => some (s.rest t)
  | .taking [] (.route group) => some (s.move t (.taking (routeLocks group) .back) (s.without t))
  | _ => none

def join (t u : TaskId) : Option LockState :=
  match s.kind u, s.phase t with
  | .busCall _ owner, .idle => if owner = t then some (s.move t (.awaiting u) s.lock) else none
  | _, _ => none

def resume (t : TaskId) : Option LockState :=
  match s.phase t with
  | .awaiting callee =>
    match s.phase callee with
    | .done => some (s.rest t)
    | _ => none
  | _ => none

def giveUp (t : TaskId) : Option LockState :=
  match s.phase t with
  | .awaiting _ => some (s.rest t)
  | _ => none

def reply (t : TaskId) : Option LockState :=
  match s.phase t with
  | .idle => some (s.move t .done s.lock)
  | _ => none

def abandon (u : TaskId) : Option LockState :=
  match s.kind u with
  | .busCall _ owner =>
    if (s.phase owner).callee = some u then none else some (s.move u .done (s.without u))
  | _ => none

def step : CallStep → Option LockState
  | .invoke handler => some (s.enter (.invocation handler) .idle)
  | .changeLink changed group => some (s.changeLink changed group)
  | .begin t op => s.beginOp t op
  | .busCall t => s.busCall t
  | .take t => s.take t
  | .grant l => s.grant l
  | .send t callee => s.send t callee
  | .leave t => s.leave t
  | .join t u => s.join t u
  | .resume t => s.resume t
  | .giveUp t => s.giveUp t
  | .reply t => s.reply t
  | .abandon u => s.abandon u

/-- Who waits for what. -/
def waits : Waits TaskId LockName where
  lock := s.lock
  awaits t := (s.phase t).callee

end LockState

/-- Invocations, link changes and target changes in any order that the locks
allow. -/
def callMachine : Machine LockState CallStep where
  init := .new
  step := LockState.step

end KasmCloud
