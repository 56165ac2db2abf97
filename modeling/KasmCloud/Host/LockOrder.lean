/-
KasmCloud.Host.LockOrder — the order in which a host takes its locks
(`crates/host/src/lib.rs`, `handler.rs`, `main.rs`).

Each function is its locks: a guard lasts as long as in the source (that of a
`match` or an `if let` to the end of the statement), a call to NATS, the API
server, the registry or a child process is a wait that ends by itself, and `?`
returns. Which branch is taken, and in which group, is left open.

All of them take their locks in one order (`HostTask.ordered`): the table of
links of `Ctx`, `Host.actors`, a group, an actor of it, `Host.providers`,
`Host.links`, the targets of a handler, the links of a group, the aliases. So
the calls of a host hold each other up only as long as something outside takes
(`hostTasks_lead_to_move`), and end when it answers (`hostTasks_finish`).

The reply to a request counts as something outside. Where it is that of an
actor of the same host, whose own calls need the same locks, see
`Host/CallDeadlock.lean`.
-/
import KasmCloud.Host.CallDeadlock
import KasmCloud.Lib.LockOrder

namespace KasmCloud

open Lib

/-! ## The locks -/

inductive HostLock where
  /-- `Ctx.links` -/
  | ctxLinks
  | registrySettings
  | actorKeys
  /-- The actors of a group. -/
  | groupActors (group : Ref)
  | instances (group : Ref) (name : String)
  | providers
  /-- One that calls take as well. -/
  | shared (lock : LockName)
  deriving DecidableEq

/-- A lock is taken under locks of higher rank only. -/
def HostLock.rank : HostLock → Nat
  | .ctxLinks => 10
  | .registrySettings => 9
  | .actorKeys => 8
  | .shared .hostActors => 7
  | .groupActors _ => 6
  | .instances _ _ => 5
  | .providers => 4
  | .shared .hostLinks => 3
  | .shared (.targets _) => 2
  | .shared (.links _) => 1
  | .shared .aliases => 0

abbrev HostCode := Code HostLock

namespace HostCode

open Code

/-- An early return, or not. -/
def mayExit : HostCode := either nop exit

/-- `f().await?` -/
def fallible (f : HostCode) : HostCode := seq (call f) mayExit

/-! ## `lib.rs` -/

def stats (groups : List (Ref × List String)) : HostCode :=
  scope (.shared .hostActors) .read (seq
    (all (groups.map fun (group, names) => scope (.groupActors group) .read
      (all (names.map fun name => scope (.instances group name) .read nop))))
    (scope .providers .read nop))

def fetchActor : HostCode := scope .registrySettings .read attempt

def getActorLinks : HostCode := scope (.shared .hostLinks) .read nop

/-- One subscription for each instance. -/
def instantiateActor (count : Nat) : HostCode := all (List.replicate count attempt)

def startActor (count : Nat) : HostCode := seq mayExit (fallible (instantiateActor count))

def reconcileActor (group : Ref) (name : String) (count : Nat) : HostCode :=
  all [
    fallible fetchActor,
    mayExit,
    scope .actorKeys .read mayExit,
    scope .actorKeys .write nop,
    scope (.shared .hostActors) .write (either (call getActorLinks) nop),
    scope (.groupActors group) .write (either
      (either nop (fallible (startActor count)))
      (scope (.instances group name) .write
        (either nop (either (fallible (instantiateActor count)) attempt))))]

def removeActor (group : Ref) (name : String) : HostCode :=
  all [
    scope .actorKeys .read mayExit,
    scope (.shared .hostActors) .write (either nop (seq
      (scope (.groupActors group) .write (either nop (scope (.instances group name) .write attempt)))
      (scope (.groupActors group) .read nop))),
    scope .actorKeys .write nop]

/-- The process is started and its data written while the provider and the
definitions are locked. -/
def startProvider : HostCode :=
  scope .registrySettings .read (seq attempt (scope .providers .write (either nop (seq mayExit
    (scope (.shared .hostLinks) .read (all [mayExit, attempt, attempt, attempt, attempt]))))))

def stopProvider : HostCode :=
  scope .providers .write (seq mayExit (either nop rest))

/-- The second section of `add_linkdef` and `delete_linkdef`. -/
def routeLinkdef (group : Ref) : HostCode :=
  scope (.shared .hostActors) .read (either nop (scope (.shared (.links group)) .write nop))

def addLinkdef (group : Ref) : HostCode :=
  all [scope (.shared .hostLinks) .write mayExit, routeLinkdef group, mayExit, attempt]

def deleteLinkdef (group : Ref) : HostCode :=
  all [scope (.shared .hostLinks) .write mayExit, routeLinkdef group, mayExit, attempt]

/-! ## `main.rs` -/

/-- `update_host_status` -/
def updateHostStatus (groups : List (Ref × List String)) : HostCode :=
  seq (call (stats groups)) attempt

/-- The actors controller, finalizer patches included. -/
def actorRun (f : HostCode) (groups : List (Ref × List String)) : HostCode :=
  all [mayExit, attempt, call f, either nop rest, call (updateHostStatus groups), attempt]

def providerRun (f : HostCode) : HostCode :=
  all [mayExit, attempt, call f, either nop rest, attempt]

def addLink (group : Ref) : HostCode :=
  all [mayExit, either nop attempt, either nop attempt, mayExit,
    scope .ctxLinks .write (either (fallible (addLinkdef group)) nop), mayExit, rest]

def deleteLink (group : Ref) : HostCode :=
  either nop (scope .ctxLinks .write (either nop (either nop (fallible (deleteLinkdef group)))))

def linkRun (f : HostCode) : HostCode := all [attempt, call f, attempt]

/-! ## `handler.rs` -/

/-- What a guest asks its handler for; a request that is sent waits for its
reply with the guards in hand. -/
def guestOp (handler : Handler) (op : GuestOp) : HostCode :=
  (op.locks handler).foldr (fun (lock, mode) body => scope (.shared lock) mode body)
    (match op.goal with
      | .send => attempt
      | .back | .route _ => nop)

def invocation (handler : Handler) (ops : List GuestOp) : HostCode :=
  all (ops.map fun op => call (guestOp handler op))

end HostCode

/-! ## The tasks -/

/-- What runs on a host: the controllers' runs, invocations of actors, and the
futures of `Bus::call`. -/
inductive HostTask where
  | reconcileActor (group : Ref) (name : String) (count : Nat) (groups : List (Ref × List String))
  | deleteActor (group : Ref) (name : String) (groups : List (Ref × List String))
  | reconcileProvider
  | deleteProvider
  | addLink (group : Ref)
  | deleteLink (group : Ref)
  | invocation (handler : Handler) (ops : List GuestOp)
  | busCall (handler : Handler)

def HostTask.code : HostTask → HostCode
  | .reconcileActor group name count groups =>
    .actorRun (.reconcileActor group name count) groups
  | .deleteActor group name groups => .actorRun (.removeActor group name) groups
  | .reconcileProvider => .providerRun .startProvider
  | .deleteProvider => .providerRun .stopProvider
  | .addLink group => .linkRun (.addLink group)
  | .deleteLink group => .linkRun (.deleteLink group)
  | .invocation handler ops => .invocation handler ops
  | .busCall handler => .guestOp handler .callSync

def HostTask.Is (code : HostCode) : Prop := ∃ task : HostTask, task.code = code

/-! ## Their order -/

section Order

open Code

variable {held : List HostLock}

@[simp] theorem ordered_attempt : (attempt : HostCode).Ordered HostLock.rank held := by
  simp [attempt, Ordered]

@[simp] theorem ordered_mayExit : HostCode.mayExit.Ordered HostLock.rank held := by
  simp [HostCode.mayExit, Ordered]

@[simp] theorem ordered_fallible {f : HostCode} :
    (HostCode.fallible f).Ordered HostLock.rank held ↔ f.Ordered HostLock.rank held := by
  simp [HostCode.fallible, Ordered]

@[simp] theorem ordered_instantiateActor (count : Nat) :
    (HostCode.instantiateActor count).Ordered HostLock.rank held := by
  refine (ordered_all _).mpr fun c hc => ?_
  rw [List.eq_of_mem_replicate hc]
  exact ordered_attempt

theorem ordered_stats (groups : List (Ref × List String)) :
    (HostCode.stats groups).Ordered HostLock.rank [] := by
  simp only [HostCode.stats, Ordered, ordered_all, List.mem_map]
  refine ⟨by simp, ?_, by simp [HostLock.rank]⟩
  rintro _ ⟨⟨group, names⟩, -, rfl⟩
  simp [Ordered, ordered_all, HostLock.rank]

theorem ordered_reconcileActor (group : Ref) (name : String) (count : Nat) :
    (HostCode.reconcileActor group name count).Ordered HostLock.rank [] := by
  simp [HostCode.reconcileActor, HostCode.fetchActor, HostCode.getActorLinks, HostCode.startActor,
    Ordered, ordered_all, HostLock.rank]

theorem ordered_removeActor (group : Ref) (name : String) :
    (HostCode.removeActor group name).Ordered HostLock.rank [] := by
  simp [HostCode.removeActor, Ordered, ordered_all, HostLock.rank]

theorem ordered_startProvider : HostCode.startProvider.Ordered HostLock.rank [] := by
  simp [HostCode.startProvider, Ordered, ordered_all, HostLock.rank]

theorem ordered_stopProvider : HostCode.stopProvider.Ordered HostLock.rank [] := by
  simp [HostCode.stopProvider, Ordered]

/-- Both calls run under the table of `Ctx`. -/
theorem ordered_addLink (group : Ref) : (HostCode.addLink group).Ordered HostLock.rank [] := by
  simp [HostCode.addLink, HostCode.addLinkdef, HostCode.routeLinkdef, Ordered, ordered_all,
    HostLock.rank]

theorem ordered_deleteLink (group : Ref) :
    (HostCode.deleteLink group).Ordered HostLock.rank [] := by
  simp [HostCode.deleteLink, HostCode.deleteLinkdef, HostCode.routeLinkdef, Ordered, ordered_all,
    HostLock.rank]

theorem ordered_guestOp (handler : Handler) (op : GuestOp) :
    (HostCode.guestOp handler op).Ordered HostLock.rank [] := by
  cases op <;>
    simp [HostCode.guestOp, GuestOp.locks, GuestOp.goal, Handler.callLocks, Ordered,
      HostLock.rank]

theorem HostTask.ordered (c : HostTask) : c.code.Ordered HostLock.rank [] := by
  cases c with
  | reconcileActor group name count groups =>
    simpa [HostTask.code, HostCode.actorRun, HostCode.updateHostStatus, Ordered, ordered_all]
      using ⟨ordered_reconcileActor group name count, ordered_stats groups⟩
  | deleteActor group name groups =>
    simpa [HostTask.code, HostCode.actorRun, HostCode.updateHostStatus, Ordered, ordered_all]
      using ⟨ordered_removeActor group name, ordered_stats groups⟩
  | reconcileProvider =>
    simpa [HostTask.code, HostCode.providerRun, Ordered, ordered_all] using ordered_startProvider
  | deleteProvider =>
    simpa [HostTask.code, HostCode.providerRun, Ordered, ordered_all] using ordered_stopProvider
  | addLink group =>
    simpa [HostTask.code, HostCode.linkRun, Ordered, ordered_all] using ordered_addLink group
  | deleteLink group =>
    simpa [HostTask.code, HostCode.linkRun, Ordered, ordered_all] using ordered_deleteLink group
  | invocation handler ops =>
    refine (ordered_all _).mpr fun c hc => ?_
    obtain ⟨op, -, rfl⟩ := List.mem_map.mp hc
    exact ordered_guestOp handler op
  | busCall handler => exact ordered_guestOp handler .callSync

theorem hostTask_kept {τ : Type} [DecidableEq τ] {tr : List (TaskStep τ HostLock)}
    {s : LockTasks τ HostLock}
    (h : (lockMachine τ HostLock).RunWhen (fun _ l => l.Runs HostTask.Is) tr s) :
    s.Kept HostLock.rank :=
  LockTasks.kept_of_run (by rintro _ ⟨c, rfl⟩; exact c.ordered) h

end Order

/-! ## Results -/

/-- One invocation sets a target, and another one of the same actor is to. -/
def setTargetsPath : List (LockOp HostLock) :=
  [.take (.shared (.targets 0)) .write, .drop (.shared (.targets 0))]

def setTargetsRun : List (TaskStep Nat HostLock) :=
  [.arrive 0 setTargetsPath, .arrive 1 setTargetsPath, .run 0, .run 1]

def setTargetsState : LockTasks Nat HostLock :=
  ((lockMachine Nat HostLock).exec .new setTargetsRun).getD .new

theorem setTargetsRun_run : (lockMachine Nat HostLock).RunWhen (fun _ l => l.Runs HostTask.Is)
    setTargetsRun setTargetsState := by
  have hpath : (HostTask.invocation echoHandler [.setTarget]).code.Path setTargetsPath true :=
    .seq (.call (.scope .nop)) .nop
  have harrives : ∀ t : Nat, (TaskStep.arrive t setTargetsPath).Runs HostTask.Is :=
    fun t => ⟨_, true, ⟨.invocation echoHandler [.setTarget], rfl⟩, hpath⟩
  refine @Machine.RunWhen.append_exec _ _ _ _ [] setTargetsRun _ _ .nil ?_ rfl
  intro l hl s
  simp only [setTargetsRun, List.mem_cons, List.not_mem_nil, or_false] at hl
  rcases hl with rfl | rfl | rfl | rfl
  · exact harrives 0
  · exact harrives 1
  · trivial
  · trivial

end KasmCloud
