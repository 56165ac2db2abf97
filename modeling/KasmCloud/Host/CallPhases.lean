/-
KasmCloud.Host.CallPhases — what the tasks of `callMachine` hold and wait for
in which phase.

`LockState.Coherent` ties the phases to the locks: a call keeps the guards it
has taken until its reply (`kept`), any other task waits at most with the
table of groups in hand (`Phase.MayHold`), which like the aliases is only ever
read (`reading`), and nobody awaits a link change (`newer`). `Coherent.effect`
says once what a step can do, and every effect keeps the invariant
(`Coherent.step`).
-/
import KasmCloud.Host.CallLocks

namespace KasmCloud

open Lib

/-! ## The invariant -/

/-- The locks that nobody writes here. -/
def LockName.ReadOnly : LockName → Prop
  | .aliases | .hostActors => True
  | .links _ | .targets _ | .hostLinks => False

/-- The handler whose operation a task runs. -/
def TaskKind.handler? : TaskKind → Option Handler
  | .invocation handler | .busCall handler _ => some handler
  | .provider | .linkChange => none

def TaskKind.IsBusCall : TaskKind → Prop
  | .busCall .. => True
  | _ => False

namespace Phase

/-- The requests that are still to come. -/
def todo : Phase → List LockRequest
  | .taking todo _ | .queued _ todo _ => todo
  | .idle | .awaiting _ | .done => []

/-- The locks a task is still to take. -/
def wanted : Phase → List LockName
  | .taking todo _ => todo.map Prod.fst
  | .queued l todo _ => l :: todo.map Prod.fst
  | .idle | .awaiting _ | .done => []

/-- An outgoing call takes its guards, or a reply is awaited. -/
def Calling : Phase → Prop
  | .taking _ goal | .queued _ _ goal => goal = .send
  | .awaiting _ => True
  | .idle | .done => False

/-- A task in this phase may have a guard of the lock: a call that waits has
any it has taken, another task the table of groups only. -/
def MayHold (l : LockName) : Phase → Prop
  | .idle | .done => False
  | phase => l ∉ phase.wanted ∧ (phase.wanted = [] ∨ phase.Calling ∨ l = .hostActors)

/-- The task is in no queue and awaits no reply. -/
def Runs : Phase → Prop
  | .queued .. | .awaiting _ => False
  | _ => True

theorem Runs.callee {phase : Phase} (h : phase.Runs) : phase.callee = none := by
  cases phase with
  | queued | awaiting => exact h.elim
  | idle | taking | done => rfl

/-- The phases that a task of a kind can be in. -/
structure Fits (phase : Phase) (kind : TaskKind) : Prop where
  distinct : phase.wanted.Nodup
  reads : ∀ r ∈ phase.todo, r.1.ReadOnly → r.2 = .read
  order : phase.Calling ∨ ∀ l ∈ phase.wanted.dropLast, l = .hostActors
  change : kind = .linkChange → phase ≠ .idle ∧ ¬ phase.Calling

theorem fits_done (kind : TaskKind) : done.Fits kind where
  distinct := List.nodup_nil
  reads r hr := by cases hr
  order := .inr fun l hl => by cases hl
  change _ := ⟨by simp, id⟩

theorem fits_idle {kind : TaskKind} (hkind : kind ≠ .linkChange) : idle.Fits kind where
  distinct := List.nodup_nil
  reads r hr := by cases hr
  order := .inr fun l hl => by cases hl
  change h := absurd h hkind

theorem fits_awaiting {kind : TaskKind} (hkind : kind ≠ .linkChange) (u : TaskId) :
    (awaiting u).Fits kind where
  distinct := List.nodup_nil
  reads r hr := by cases hr
  order := .inl trivial
  change h := absurd h hkind

theorem fits_atRest (kind : TaskKind) : kind.atRest.Fits kind := by
  cases kind with
  | invocation handler => exact fits_idle (by simp)
  | provider => exact fits_idle (by simp)
  | busCall handler owner => exact fits_done _
  | linkChange => exact fits_done _

/-- The locks of an operation of a guest. -/
theorem fits_locks {kind : TaskKind} (hkind : kind ≠ .linkChange) (handler : Handler)
    (op : GuestOp) : (taking (op.locks handler) op.goal).Fits kind where
  distinct := by cases op <;> simp [wanted, GuestOp.locks, Handler.callLocks]
  reads := by cases op <;> simp [todo, GuestOp.locks, Handler.callLocks, LockName.ReadOnly]
  order := by cases op <;> simp [Calling, wanted, GuestOp.locks, GuestOp.goal]
  change h := absurd h hkind

theorem fits_routeLocks (group : Option Ref) (kind : TaskKind) :
    (taking (routeLocks group) .back).Fits kind where
  distinct := by cases group <;> simp [wanted, routeLocks]
  reads := by cases group <;> simp [todo, routeLocks, LockName.ReadOnly]
  order := by cases group <;> simp [wanted, routeLocks]
  change _ := by simp [Calling]

/-- One lock that is written. -/
theorem fits_hostLinks {goal : Goal} (hgoal : goal ≠ .send) (kind : TaskKind) :
    (taking [(.hostLinks, .write)] goal).Fits kind where
  distinct := by simp [wanted]
  reads := by simp [todo, LockName.ReadOnly]
  order := by simp [wanted]
  change _ := by simpa [Calling] using hgoal

section Taken

variable {l : LockName} {todo : List LockRequest} {goal : Goal} {kind : TaskKind}

/-- The next lock is there. -/
theorem Fits.taken (h : (queued l todo goal).Fits kind) : (taking todo goal).Fits kind where
  distinct := (List.nodup_cons.mp h.distinct).2
  reads := h.reads
  order := by
    refine h.order.imp_right fun hlast k hk => hlast k ?_
    cases todo with
    | nil => cases hk
    | cons r todo => exact List.mem_cons_of_mem l hk
  change hkind := ⟨by simp, (h.change hkind).2⟩

/-- The next lock is not there. -/
theorem Fits.refused {mode : LockMode} (h : (taking ((l, mode) :: todo) goal).Fits kind) :
    (queued l todo goal).Fits kind where
  distinct := h.distinct
  reads r hr := h.reads r (List.mem_cons_of_mem _ hr)
  order := h.order
  change hkind := ⟨by simp, (h.change hkind).2⟩

/-- A task that has got a lock is a call, or it takes no other one, or the lock
is the table of groups. -/
theorem Fits.last (h : (queued l todo goal).Fits kind) :
    todo.map Prod.fst = [] ∨ goal = .send ∨ l = .hostActors := by
  cases todo with
  | nil => exact .inl rfl
  | cons r todo => exact .inr (h.order.imp_right fun hlast => hlast l List.mem_cons_self)

end Taken

/-- The phase is one of a call that has its guards, or is taking them. The
future of `Bus::call` has guards of its own. -/
def InCall (kind : TaskId → TaskKind) : Phase → Prop
  | .awaiting u => ¬ (kind u).IsBusCall
  | phase => phase.Calling

end Phase

namespace LockState

structure Coherent (s : LockState) : Prop where
  place : ∀ {t l}, (s.lock l).Queues t → ∃ todo goal, s.phase t = .queued l todo goal
  guards : ∀ {t l}, (s.lock l).Holds t → (s.phase t).MayHold l
  fits : ∀ t, (s.phase t).Fits (s.kind t)
  single : ∀ l, (s.lock l).QueueNodup
  reading : ∀ l, l.ReadOnly → (s.lock l).Reading
  newer : ∀ {t c}, s.phase t = .awaiting c → t < c ∧ c < s.next ∧ s.kind c ≠ .linkChange
  owner : ∀ {u handler t}, s.kind u = .busCall handler t → t < u ∧ u < s.next
  unborn : ∀ {t}, s.next ≤ t → s.phase t = .done
  kept : ∀ {t handler}, (s.kind t).handler? = some handler → (s.phase t).InCall s.kind →
    ∀ r ∈ handler.callLocks, r.1 ∈ (s.phase t).wanted ∨ (s.lock r.1).Holds t

theorem coherent_new : LockState.new.Coherent where
  place h := absurd h (RwLock.not_queues_unlocked _)
  guards h := absurd h (RwLock.not_holds_unlocked _)
  fits _ := Phase.fits_done _
  single _ := List.nodup_nil
  reading _ _ := ⟨rfl, by simp [LockState.new, RwLock.unlocked]⟩
  newer h := by cases h
  owner h := by cases h
  unborn _ := rfl
  kept h := by cases h

@[simp] theorem phase_move (s : LockState) (t : TaskId) (phase : Phase)
    (lock : LockName → RwLock TaskId) : (s.move t phase lock).phase t = phase := by
  simp [move]

theorem phase_move_ne (s : LockState) {t x : TaskId} (hx : x ≠ t) (phase : Phase)
    (lock : LockName → RwLock TaskId) : (s.move t phase lock).phase x = s.phase x := by
  simp [move, hx]

@[simp] theorem phase_enter (s : LockState) (kind : TaskKind) (phase : Phase) :
    (s.enter kind phase).phase s.next = phase := by
  simp [enter]

theorem phase_enter_ne (s : LockState) {x : TaskId} (hx : x ≠ s.next) (kind : TaskKind)
    (phase : Phase) : (s.enter kind phase).phase x = s.phase x := by
  simp [enter, hx]

@[simp] theorem kind_enter (s : LockState) (kind : TaskKind) (phase : Phase) :
    (s.enter kind phase).kind s.next = kind := by
  simp [enter]

theorem kind_enter_ne (s : LockState) {x : TaskId} (hx : x ≠ s.next) (kind : TaskKind)
    (phase : Phase) : (s.enter kind phase).kind x = s.kind x := by
  simp [enter, hx]

namespace Coherent

variable {s : LockState}

theorem not_queues (h : s.Coherent) {t : TaskId} (ht : (s.phase t).Runs) (l : LockName) :
    ¬ (s.lock l).Queues t := by
  intro hq
  obtain ⟨todo, goal, hphase⟩ := h.place hq
  rw [hphase] at ht
  exact ht

/-- A task that runs waits for nobody. -/
theorem free (h : s.Coherent) {t : TaskId} (ht : (s.phase t).Runs) (u : TaskId) :
    ¬ s.waits.Direct t u := by
  rintro (ha | ⟨l, hq, -⟩)
  · have hnone : s.waits.awaits t = none := ht.callee
    rw [hnone] at ha
    cases ha
  · exact h.not_queues ht l hq

theorem lt_next (h : s.Coherent) {t : TaskId} (ht : s.phase t ≠ .done) : t < s.next :=
  Nat.lt_of_not_le fun hle => ht (h.unborn hle)

theorem awaiting_of_awaits {t u : TaskId} (ha : s.waits.awaits t = some u) :
    s.phase t = .awaiting u := by
  have hphase : (s.phase t).callee = some u := ha
  cases hp : s.phase t with
  | awaiting c =>
    rw [hp] at hphase
    cases hphase
    rfl
  | idle | taking | queued | done =>
    rw [hp] at hphase
    cases hphase

theorem awaits_lt (h : s.Coherent) {t u : TaskId} (ha : s.waits.awaits t = some u) : t < u :=
  (h.newer (awaiting_of_awaits ha)).1

theorem tidy (h : s.Coherent) : s.waits.Tidy where
  lone hq := by
    obtain ⟨todo, goal, hphase⟩ := h.place hq
    show (s.phase _).callee = none
    rw [hphase]
    rfl
  once hq hq' := by
    obtain ⟨todo, goal, hphase⟩ := h.place hq
    obtain ⟨todo', goal', hphase'⟩ := h.place hq'
    rw [hphase] at hphase'
    cases hphase'
    rfl
  apart hq hh := by
    obtain ⟨todo, goal, hphase⟩ := h.place hq
    have hmay := h.guards hh
    rw [hphase] at hmay
    exact hmay.1 List.mem_cons_self
  other t ha := Nat.lt_irrefl t (h.awaits_lt ha)

/-- Calls go from older tasks to newer ones. -/
theorem inside_le (h : s.Coherent) {t u : TaskId} (hin : s.waits.Inside t u) : t ≤ u := by
  induction hin with
  | refl => exact Nat.le_refl t
  | tail _ ha ih => exact Nat.le_of_lt (Nat.lt_of_le_of_lt ih (h.awaits_lt ha))

/-- Nobody waits for a lock that is only read. -/
theorem ne_hostActors (h : s.Coherent) {t : TaskId} {l : LockName} (hq : (s.lock l).Queues t) :
    l ≠ .hostActors := by
  rintro rfl
  exact (h.reading .hostActors trivial).not_queues t hq

/-- A holder of a lock that is still to take another one, or that waits, is a
call in flight, unless the lock is the table of groups. -/
theorem calling (h : s.Coherent) {t : TaskId} {l : LockName} (hh : (s.lock l).Holds t)
    (hl : l ≠ .hostActors) (hwaits : (s.phase t).wanted ≠ [] ∨ ¬ (s.phase t).Runs) :
    (s.phase t).Calling := by
  have hmay := h.guards hh
  cases hphase : s.phase t with
  | idle | done =>
    rw [hphase] at hmay
    exact hmay.elim
  | awaiting u => trivial
  | taking todo goal =>
    rw [hphase] at hmay hwaits
    have hwanted := hwaits.resolve_right fun hnot => hnot trivial
    exact (hmay.2.resolve_left hwanted).resolve_right hl
  | queued k todo goal =>
    rw [hphase] at hmay
    exact (hmay.2.resolve_left (List.cons_ne_nil _ _)).resolve_right hl

/-! ## What the moves keep -/

/-- A new task keeps the invariant. -/
theorem enter (h : s.Coherent) {kind : TaskKind} {phase : Phase} (hruns : phase.Runs)
    (hfits : phase.Fits kind) (howner : ∀ handler t, kind = .busCall handler t → t < s.next)
    (hkept : ∀ handler, kind.handler? = some handler → phase.Calling →
      ∀ r ∈ handler.callLocks, r.1 ∈ phase.wanted) :
    (s.enter kind phase).Coherent := by
  have hdone : s.phase s.next = .done := h.unborn (Nat.le_refl _)
  have hold : ∀ {x}, s.phase x ≠ .done → (s.enter kind phase).phase x = s.phase x :=
    fun hx => s.phase_enter_ne (Nat.ne_of_lt (h.lt_next hx)) kind phase
  refine ⟨?place, ?guards, ?fits, h.single, h.reading, ?newer, ?owner, ?unborn, ?kept⟩
  case place =>
    intro t l hq
    obtain ⟨todo, goal, hphase⟩ := h.place hq
    exact ⟨todo, goal, by rw [hold (by simp [hphase]), hphase]⟩
  case guards =>
    intro t l hh
    have hmay := h.guards hh
    rw [hold]
    · exact hmay
    · intro hdead
      rw [hdead] at hmay
      exact hmay
  case fits =>
    intro t
    by_cases ht : t = s.next
    · subst ht
      simpa using hfits
    · rw [s.phase_enter_ne ht, s.kind_enter_ne ht]
      exact h.fits t
  case newer =>
    intro t c hphase
    by_cases ht : t = s.next
    · subst ht
      rw [phase_enter] at hphase
      rw [hphase] at hruns
      exact hruns.elim
    · rw [s.phase_enter_ne ht] at hphase
      obtain ⟨htc, hborn, hkind⟩ := h.newer hphase
      refine ⟨htc, Nat.lt_succ_of_lt hborn, ?_⟩
      rw [s.kind_enter_ne (Nat.ne_of_lt hborn)]
      exact hkind
  case owner =>
    intro u handler t hkind
    by_cases hu : u = s.next
    · subst hu
      rw [kind_enter] at hkind
      exact ⟨howner handler t hkind, Nat.lt_succ_self s.next⟩
    · rw [s.kind_enter_ne hu] at hkind
      obtain ⟨htu, hborn⟩ := h.owner hkind
      exact ⟨htu, Nat.lt_succ_of_lt hborn⟩
  case unborn =>
    intro t ht
    have hlt : s.next < t := ht
    rw [s.phase_enter_ne (Nat.ne_of_gt hlt)]
    exact h.unborn (Nat.le_of_lt hlt)
  case kept =>
    intro t handler hkind hcall r hr
    by_cases ht : t = s.next
    · subst ht
      rw [kind_enter] at hkind
      rw [phase_enter] at hcall ⊢
      refine .inl (hkept handler hkind ?_ r hr)
      cases phase with
      | awaiting | queued => exact hruns.elim
      | idle | taking | done => exact hcall
    · rw [s.kind_enter_ne ht] at hkind
      rw [s.phase_enter_ne ht] at hcall ⊢
      refine h.kept hkind ?_ r hr
      cases hphase : s.phase t with
      | awaiting c =>
        rw [hphase] at hcall
        have hcall : ¬ ((s.enter kind phase).kind c).IsBusCall := hcall
        rwa [s.kind_enter_ne (Nat.ne_of_lt (h.newer hphase).2.1)] at hcall
      | idle | taking | queued | done =>
        rw [hphase] at hcall
        exact hcall

/-- So does a task that moves on, if the locks of the others are left to
them and its own place and guards fit its new phase. -/
theorem move (h : s.Coherent) {t : TaskId} {phase : Phase} {lock : LockName → RwLock TaskId}
    (halive : t < s.next)
    (hothers : ∀ l x, x ≠ t →
      ((lock l).Queues x → (s.lock l).Queues x) ∧ ((lock l).Holds x ↔ (s.lock l).Holds x))
    (hplace : ∀ l, (lock l).Queues t → ∃ todo goal, phase = .queued l todo goal)
    (hguards : ∀ l, (lock l).Holds t → phase.MayHold l) (hfits : phase.Fits (s.kind t))
    (hsingle : ∀ l, (lock l).QueueNodup) (hreading : ∀ l, l.ReadOnly → (lock l).Reading)
    (hnewer : ∀ c, phase = .awaiting c → t < c ∧ c < s.next ∧ s.kind c ≠ .linkChange)
    (hkept : ∀ handler, (s.kind t).handler? = some handler → phase.InCall s.kind →
      ∀ r ∈ handler.callLocks, r.1 ∈ phase.wanted ∨ (lock r.1).Holds t) :
    (s.move t phase lock).Coherent := by
  refine ⟨?place, ?guards, ?fits, hsingle, hreading, ?newer, h.owner, ?unborn, ?kept⟩
  case place =>
    intro x l hq
    by_cases hx : x = t
    · subst hx
      simpa using hplace l hq
    · rw [s.phase_move_ne hx]
      exact h.place ((hothers l x hx).1 hq)
  case guards =>
    intro x l hh
    by_cases hx : x = t
    · subst hx
      simpa using hguards l hh
    · rw [s.phase_move_ne hx]
      exact h.guards ((hothers l x hx).2.mp hh)
  case fits =>
    intro x
    by_cases hx : x = t
    · subst hx
      rw [phase_move]
      exact hfits
    · rw [s.phase_move_ne hx]
      exact h.fits x
  case newer =>
    intro x c hphase
    by_cases hx : x = t
    · subst hx
      exact hnewer c (by simpa using hphase)
    · rw [s.phase_move_ne hx] at hphase
      exact h.newer hphase
  case unborn =>
    intro x hx
    have hge : s.next ≤ x := hx
    rw [s.phase_move_ne (Nat.ne_of_gt (Nat.lt_of_lt_of_le halive hge))]
    exact h.unborn hge
  case kept =>
    intro x handler hkind hcall r hr
    by_cases hx : x = t
    · subst hx
      rw [phase_move] at hcall ⊢
      exact hkept handler hkind hcall r hr
    · rw [s.phase_move_ne hx] at hcall ⊢
      exact (h.kept hkind hcall r hr).imp_right (hothers r.1 x hx).2.mpr

end Coherent

/-! ## What a step can do -/

/-- The task `t` runs on: it is in no queue any more, and the others have
their guards, and no more places than before. -/
structure Proceeds (s : LockState) (t : TaskId) (phase : Phase)
    (lock : LockName → RwLock TaskId) : Prop where
  alive : t < s.next
  runs : phase.Runs
  fits : phase.Fits (s.kind t)
  queues : ∀ l x, (lock l).Queues x → x ≠ t ∧ (s.lock l).Queues x
  holds : ∀ l x, x ≠ t → ((lock l).Holds x ↔ (s.lock l).Holds x)
  guards : ∀ l, (lock l).Holds t → phase.MayHold l
  single : ∀ l, (lock l).QueueNodup
  reading : ∀ l, l.ReadOnly → (lock l).Reading
  kept : ∀ handler, (s.kind t).handler? = some handler → phase.Calling →
    ∀ r ∈ handler.callLocks, r.1 ∈ phase.wanted ∨ (lock r.1).Holds t

section Proceeding

variable {s : LockState} {t : TaskId}

/-- A task at rest goes on, without a change of the locks. -/
theorem Coherent.proceeds_idle (h : s.Coherent) (hidle : s.phase t = .idle) {phase : Phase}
    (hruns : phase.Runs) (hfits : phase.Fits (s.kind t))
    (hkept : ∀ handler, (s.kind t).handler? = some handler → phase.Calling →
      ∀ r ∈ handler.callLocks, r.1 ∈ phase.wanted) : s.Proceeds t phase s.lock where
  alive := h.lt_next (by simp [hidle])
  runs := hruns
  fits := hfits
  queues l x hq := by
    refine ⟨fun hx => ?_, hq⟩
    exact h.not_queues (t := t) (by rw [hidle]; trivial) l (hx ▸ hq)
  holds _ _ _ := Iff.rfl
  guards l hh := by
    have hmay := h.guards hh
    rw [hidle] at hmay
    exact hmay.elim
  single := h.single
  reading := h.reading
  kept handler hhandler hcall r hr := .inl (hkept handler hhandler hcall r hr)

/-- A guest's operation begins. -/
theorem Coherent.proceeds_begin (h : s.Coherent) (hidle : s.phase t = .idle) {handler : Handler}
    (hkind : s.kind t = .invocation handler) (op : GuestOp) :
    s.Proceeds t (.taking (op.locks handler) op.goal) s.lock := by
  refine h.proceeds_idle hidle trivial (Phase.fits_locks (by simp [hkind]) handler op) ?_
  intro handler' hhandler hgoal r hr
  rw [hkind] at hhandler
  cases hhandler
  refine List.mem_map_of_mem ?_
  cases op with
  | interfaceCall => exact List.mem_cons_of_mem _ hr
  | callSync => exact hr
  | identifyWasmbusTarget | setTarget => cases hgoal

/-- It drops its guards and its place, and is no call any more. -/
theorem Coherent.proceeds_drop (h : s.Coherent) (halive : t < s.next) {phase : Phase}
    (hruns : phase.Runs) (hfits : phase.Fits (s.kind t)) (hcalling : ¬ phase.Calling) :
    s.Proceeds t phase (s.without t) where
  alive := halive
  runs := hruns
  fits := hfits
  queues _ _ hq := (RwLock.queues_drop.mp hq).symm
  holds _ _ hx := by simp [without, hx]
  guards _ hh := absurd rfl (RwLock.holds_drop.mp hh).2
  single l := (h.single l).drop t
  reading l hl := (h.reading l hl).drop t
  kept _ _ hcall := absurd hcall hcalling

/-- It comes to rest. -/
theorem Coherent.proceeds_rest (h : s.Coherent) (halive : t < s.next) :
    s.Proceeds t (s.kind t).atRest (s.without t) := by
  refine h.proceeds_drop halive ?_ (Phase.fits_atRest _) ?_
  · cases s.kind t <;> trivial
  · cases s.kind t <;> exact id

/-- A task that is about to take a lock, or is in its queue. -/
structure Wants (s : LockState) (t : TaskId) (l : LockName) (todo : List LockRequest)
    (goal : Goal) : Prop where
  wanted : (s.phase t).wanted = l :: todo.map Prod.fst
  calling : (s.phase t).Calling ↔ goal = .send
  alive : s.phase t ≠ .done
  inCall : (s.phase t).InCall s.kind ↔ goal = .send
  fits : (Phase.queued l todo goal).Fits (s.kind t)

theorem Coherent.wants_taking (h : s.Coherent) {l : LockName} {mode : LockMode}
    {todo : List LockRequest} {goal : Goal}
    (hphase : s.phase t = .taking ((l, mode) :: todo) goal) : s.Wants t l todo goal where
  wanted := by rw [hphase]; rfl
  calling := by rw [hphase]; exact Iff.rfl
  alive := by simp [hphase]
  inCall := by rw [hphase]; exact Iff.rfl
  fits := by
    have hfits := h.fits t
    rw [hphase] at hfits
    exact hfits.refused

theorem Coherent.wants_queued (h : s.Coherent) {l : LockName} {todo : List LockRequest}
    {goal : Goal} (hphase : s.phase t = .queued l todo goal) : s.Wants t l todo goal where
  wanted := by rw [hphase]; rfl
  calling := by rw [hphase]; exact Iff.rfl
  alive := by simp [hphase]
  inCall := by rw [hphase]; exact Iff.rfl
  fits := hphase ▸ h.fits t

/-- What it holds already. -/
theorem Wants.mayHold {l : LockName} {todo : List LockRequest} {goal : Goal}
    (hw : s.Wants t l todo goal) {k : LockName} (hmay : (s.phase t).MayHold k) :
    k ∉ l :: todo.map Prod.fst ∧ (goal = .send ∨ k = .hostActors) := by
  have hwanted := hw.wanted
  have hcalling := hw.calling
  cases hphase : s.phase t with
  | idle | done =>
    rw [hphase] at hmay
    exact hmay.elim
  | awaiting u =>
    rw [hphase] at hwanted
    cases hwanted
  | taking | queued =>
    rw [hphase] at hwanted hcalling hmay
    obtain ⟨hnot, hmay⟩ := hmay
    rw [hwanted] at hnot hmay
    exact ⟨hnot, (hmay.resolve_left (List.cons_ne_nil _ _)).imp_left hcalling.mp⟩

/-- It gets the guard of one lock. -/
theorem Coherent.proceeds_hold (h : s.Coherent) {l : LockName} {lock : RwLock TaskId}
    {todo : List LockRequest} {goal : Goal} (hw : s.Wants t l todo goal)
    (helsewhere : ∀ k, k ≠ l → ¬ (s.lock k).Queues t)
    (hqueues : ∀ x, lock.Queues x → x ≠ t ∧ (s.lock l).Queues x)
    (hholds : ∀ x, lock.Holds x ↔ x = t ∨ (s.lock l).Holds x) (hsingle : lock.QueueNodup)
    (hreading : l.ReadOnly → lock.Reading) :
    s.Proceeds t (.taking todo goal) (Function.update s.lock l lock) := by
  have hheld : ∀ k x, (Function.update s.lock l lock k).Holds x ↔
      (k = l ∧ x = t) ∨ (s.lock k).Holds x := by
    intro k x
    by_cases hk : k = l
    · subst hk
      simp [hholds]
    · simp [hk]
  have hnodup := List.nodup_cons.mp hw.fits.distinct
  refine ⟨h.lt_next hw.alive, trivial, hw.fits.taken, ?queues, ?holds, ?guards, ?single, ?reading,
    ?kept⟩
  case queues =>
    intro k x hq
    by_cases hk : k = l
    · subst hk
      exact hqueues x (by simpa using hq)
    · rw [Function.update_of_ne hk] at hq
      exact ⟨fun hx => helsewhere k hk (hx ▸ hq), hq⟩
  case holds =>
    intro k x hx
    simp [hheld, hx]
  case guards =>
    intro k hh
    rcases (hheld k t).mp hh with ⟨rfl, -⟩ | hold
    · exact ⟨hnodup.1, hw.fits.last⟩
    · obtain ⟨hnot, hmay⟩ := hw.mayHold (h.guards hold)
      exact ⟨fun hmem => hnot (List.mem_cons_of_mem l hmem), .inr hmay⟩
  case single =>
    intro k
    by_cases hk : k = l
    · subst hk
      simpa using hsingle
    · rw [Function.update_of_ne hk]
      exact h.single k
  case reading =>
    intro k hkread
    by_cases hk : k = l
    · subst hk
      simpa using hreading hkread
    · rw [Function.update_of_ne hk]
      exact h.reading k hkread
  case kept =>
    intro handler hkind hcall r hr
    rw [hheld]
    rcases h.kept hkind (hw.inCall.mpr hcall) r hr with hwanted | hold
    · rw [hw.wanted] at hwanted
      rcases List.mem_cons.mp hwanted with heq | hmem
      · exact .inr (.inl ⟨heq, rfl⟩)
      · exact .inl hmem
    · exact .inr (.inr hold)

end Proceeding

/-- The ways a step can change the state. -/
inductive Effect (s : LockState) : CallStep → LockState → Prop where
  | enters {step : CallStep} {kind : TaskKind} {phase : Phase} :
      phase.Runs → phase.Fits kind → (∀ handler t, kind = .busCall handler t → t < s.next) →
      (∀ handler, kind.handler? = some handler → phase.Calling →
        ∀ r ∈ handler.callLocks, r.1 ∈ phase.wanted) →
      Effect s step (s.enter kind phase)
  | proceeds {step : CallStep} {t : TaskId} {phase : Phase} {lock : LockName → RwLock TaskId} :
      s.Proceeds t phase lock → Effect s step (s.move t phase lock)
  | queues {t : TaskId} {l : LockName} {mode : LockMode} {todo : List LockRequest} {goal : Goal} :
      s.phase t = .taking ((l, mode) :: todo) goal → (s.lock l).grants mode = false →
      Effect s (.take t)
        (s.move t (.queued l todo goal)
          (Function.update s.lock l ((s.lock l).enqueue t mode)))
  | calls {t : TaskId} {callee : Callee} :
      s.phase t = .taking [] .send ∨ (s.phase t = .idle ∧ s.kind t = .provider) →
      Effect s (.send t callee) (s.await t callee)
  | joins {t u : TaskId} {handler : Handler} :
      s.phase t = .idle → s.kind u = .busCall handler t →
      Effect s (.join t u) (s.move t (.awaiting u) s.lock)

section Effects

variable {s s' : LockState}

theorem Coherent.reads (h : s.Coherent) {t : TaskId} {l : LockName} {mode : LockMode}
    {todo : List LockRequest} {goal : Goal} (hphase : s.phase t = .taking ((l, mode) :: todo) goal)
    (hl : l.ReadOnly) : mode = .read := by
  have hfits := h.fits t
  rw [hphase] at hfits
  exact hfits.reads (l, mode) List.mem_cons_self hl

/-- A task that must queue does not want a lock that is only read. -/
theorem Coherent.not_readOnly (h : s.Coherent) {t : TaskId} {l : LockName} {mode : LockMode}
    {todo : List LockRequest} {goal : Goal} (hphase : s.phase t = .taking ((l, mode) :: todo) goal)
    (hgrants : (s.lock l).grants mode = false) : ¬ l.ReadOnly := by
  intro hl
  rw [h.reads hphase hl, (h.reading l hl).grants] at hgrants
  cases hgrants

theorem Coherent.effect_take (h : s.Coherent) {t : TaskId} (hs : s.take t = some s') :
    s.Effect (.take t) s' := by
  unfold take at hs
  split at hs
  · rename_i l mode todo goal hphase
    split at hs
    · cases hs
      have hnot := h.not_queues (t := t) (by rw [hphase]; trivial)
      refine .proceeds (h.proceeds_hold (h.wants_taking hphase) (fun k _ => hnot k)
        (fun x hq => ⟨fun hx => hnot l (hx ▸ hq), hq⟩) (fun x => RwLock.holds_hold) (h.single l) ?_)
      intro hl
      rw [h.reads hphase hl]
      exact (h.reading l hl).hold t
    · rename_i hgrants
      cases hs
      exact .queues hphase (by simpa using hgrants)
  · cases hs

theorem Coherent.effect_grant (h : s.Coherent) {l : LockName} (hs : s.grant l = some s') :
    s.Effect (.grant l) s' := by
  unfold grant at hs
  split at hs
  · rename_i t lock hadvance
    obtain ⟨hq, hholds, hqueues, hnodup⟩ := RwLock.advance_spec hadvance
    obtain ⟨hsingle, hgone⟩ := hnodup (h.single l)
    obtain ⟨todo, goal, hphase⟩ := h.place hq
    rw [hphase] at hs
    cases hs
    exact .proceeds (h.proceeds_hold (h.wants_queued hphase)
      (fun k hk hqk => hk (h.tidy.once hqk hq))
      (fun x hx => ⟨fun hxt => hgone (hxt ▸ hx), (hqueues x).mpr (.inr hx)⟩) hholds hsingle
      fun hl => absurd hq ((h.reading l hl).not_queues t))
  · cases hs

theorem effect_send {t : TaskId} {callee : Callee} (hs : s.send t callee = some s') :
    s.Effect (.send t callee) s' := by
  unfold send at hs
  split at hs
  · rename_i hphase
    cases hs
    exact .calls (.inl hphase)
  · rename_i hphase
    split at hs
    · rename_i hkind
      cases hs
      exact .calls (.inr ⟨hphase, hkind⟩)
    · cases hs
  · cases hs

theorem Coherent.effect_leave (h : s.Coherent) {t : TaskId} (hs : s.leave t = some s') :
    s.Effect (.leave t) s' := by
  unfold leave at hs
  split at hs
  · rename_i hphase
    cases hs
    exact .proceeds (h.proceeds_rest (h.lt_next (by simp [hphase])))
  · rename_i hphase
    cases hs
    exact .proceeds (h.proceeds_rest (h.lt_next (by simp [hphase])))
  · rename_i group hphase
    cases hs
    exact .proceeds (h.proceeds_drop (h.lt_next (by simp [hphase])) trivial
      (Phase.fits_routeLocks group _) (by simp [Phase.Calling]))
  · cases hs

/-- Every step has one of the five effects. -/
theorem Coherent.effect (h : s.Coherent) {l : CallStep} (hs : s.step l = some s') :
    s.Effect l s' := by
  cases l with
  | invoke handler =>
    cases hs
    exact .enters trivial (Phase.fits_idle (by simp)) (by simp) fun _ _ hcall => hcall.elim
  | changeLink changed group =>
    cases hs
    exact .enters trivial (Phase.fits_hostLinks (by cases changed <;> simp) _) (by simp)
      fun _ hhandler => by cases hhandler
  | begin t op =>
    replace hs : s.beginOp t op = some s' := hs
    unfold beginOp at hs
    split at hs
    · rename_i handler hkind hphase
      cases hs
      exact .proceeds (h.proceeds_begin hphase hkind op)
    · cases hs
  | busCall t =>
    replace hs : s.busCall t = some s' := hs
    unfold LockState.busCall at hs
    split at hs
    · rename_i handler hkind hphase
      cases hs
      refine .enters trivial (Phase.fits_locks (by simp) handler .callSync) ?_ ?_
      · intro handler' t' hbus
        cases hbus
        exact h.lt_next (by simp [hphase])
      · intro handler' hhandler _ r hr
        cases hhandler
        exact List.mem_map_of_mem hr
    · cases hs
  | take t => exact h.effect_take hs
  | grant l => exact h.effect_grant hs
  | send t callee => exact effect_send hs
  | leave t => exact h.effect_leave hs
  | join t u =>
    replace hs : s.join t u = some s' := hs
    unfold LockState.join at hs
    split at hs
    · rename_i handler owner hkind hphase
      split at hs
      · rename_i howner
        cases hs
        exact .joins hphase (howner ▸ hkind)
      · cases hs
    · cases hs
  | resume t =>
    replace hs : s.resume t = some s' := hs
    unfold resume at hs
    split at hs
    · rename_i callee hphase
      split at hs
      · cases hs
        exact .proceeds (h.proceeds_rest (h.lt_next (by simp [hphase])))
      · cases hs
    · cases hs
  | giveUp t =>
    replace hs : s.giveUp t = some s' := hs
    unfold giveUp at hs
    split at hs
    · rename_i callee hphase
      cases hs
      exact .proceeds (h.proceeds_rest (h.lt_next (by simp [hphase])))
    · cases hs
  | reply t =>
    replace hs : s.reply t = some s' := hs
    unfold reply at hs
    split at hs
    · rename_i hphase
      cases hs
      exact .proceeds
        (h.proceeds_idle hphase trivial (Phase.fits_done _) fun _ _ hcall => hcall.elim)
    · cases hs
  | abandon u =>
    replace hs : s.abandon u = some s' := hs
    unfold abandon at hs
    split at hs
    · split at hs
      · cases hs
      · rename_i handler owner hkind _
        cases hs
        exact .proceeds (h.proceeds_drop (h.owner hkind).2 trivial (Phase.fits_done _) id)
    · cases hs

/-! ## The invariant is kept -/

theorem Coherent.proceed (h : s.Coherent) {t : TaskId} {phase : Phase}
    {lock : LockName → RwLock TaskId} (hp : s.Proceeds t phase lock) :
    (s.move t phase lock).Coherent := by
  have hruns := hp.runs
  refine h.move hp.alive (fun l x hx => ⟨fun hq => (hp.queues l x hq).2, hp.holds l x hx⟩)
    (fun l hq => absurd rfl (hp.queues l t hq).1) hp.guards hp.fits hp.single hp.reading ?_ ?_
  · intro c hphase
    rw [hphase] at hruns
    exact hruns.elim
  · intro handler hkind hcall
    refine hp.kept handler hkind ?_
    cases phase with
    | awaiting | queued => exact hruns.elim
    | idle | taking | done => exact hcall

theorem holds_enqueue_at (l : LockName) (t : TaskId) (mode : LockMode) (k : LockName)
    (x : TaskId) :
    (Function.update s.lock l ((s.lock l).enqueue t mode) k).Holds x ↔ (s.lock k).Holds x := by
  by_cases hk : k = l
  · subst hk
    simp
  · simp [hk]

theorem queues_enqueue_at (l : LockName) (t : TaskId) (mode : LockMode) (k : LockName)
    (x : TaskId) :
    (Function.update s.lock l ((s.lock l).enqueue t mode) k).Queues x ↔
      (s.lock k).Queues x ∨ (k = l ∧ x = t) := by
  by_cases hk : k = l
  · subst hk
    simp
  · simp [hk]

theorem Coherent.enqueue (h : s.Coherent) {t : TaskId} {l : LockName} {mode : LockMode}
    {todo : List LockRequest} {goal : Goal} (hphase : s.phase t = .taking ((l, mode) :: todo) goal)
    (hgrants : (s.lock l).grants mode = false) :
    (s.move t (.queued l todo goal)
      (Function.update s.lock l ((s.lock l).enqueue t mode))).Coherent := by
  have hnot := h.not_queues (t := t) (by rw [hphase]; trivial)
  have hw := h.wants_taking hphase
  refine h.move (h.lt_next (by simp [hphase])) ?_ ?_ ?_ hw.fits ?_ ?_ (by simp) ?_
  · intro k x hx
    refine ⟨fun hq => ?_, holds_enqueue_at l t mode k x⟩
    exact ((queues_enqueue_at l t mode k x).mp hq).resolve_right fun heq => hx heq.2
  · intro k hq
    rcases (queues_enqueue_at l t mode k t).mp hq with hold | ⟨rfl, -⟩
    · exact absurd hold (hnot k)
    · exact ⟨todo, goal, rfl⟩
  · intro k hh
    obtain ⟨hnotin, hmay⟩ := hw.mayHold (h.guards ((holds_enqueue_at l t mode k t).mp hh))
    exact ⟨hnotin, .inr hmay⟩
  · intro k
    by_cases hk : k = l
    · subst hk
      simpa using (h.single k).enqueue (hnot k) mode
    · simpa [hk] using h.single k
  · intro k hkread
    by_cases hk : k = l
    · exact absurd (hk ▸ hkread) (h.not_readOnly hphase hgrants)
    · simpa [hk] using h.reading k hkread
  · intro handler hkind hcall r hr
    rw [holds_enqueue_at]
    have hkept := h.kept hkind (hw.inCall.mpr hcall) r hr
    rw [hw.wanted] at hkept
    exact hkept

/-- A task that waits for a newer one. -/
theorem Coherent.wait (h : s.Coherent) {t u : TaskId} (hruns : (s.phase t).Runs)
    (hdone : s.phase t ≠ .done) (hkind : s.kind t ≠ .linkChange) (htu : t < u)
    (hborn : u < s.next) (hcallee : s.kind u ≠ .linkChange)
    (hkept : ∀ handler, (s.kind t).handler? = some handler → ¬ (s.kind u).IsBusCall →
      ∀ r ∈ handler.callLocks, (s.lock r.1).Holds t) :
    (s.move t (.awaiting u) s.lock).Coherent := by
  refine h.move (h.lt_next hdone) (fun l x _ => ⟨id, Iff.rfl⟩) ?_ ?_ (Phase.fits_awaiting hkind u)
    h.single h.reading ?_ ?_
  · exact fun l hq => absurd hq (h.not_queues hruns l)
  · exact fun l _ => ⟨List.not_mem_nil, .inl rfl⟩
  · intro c hc
    cases hc
    exact ⟨htu, hborn, hcallee⟩
  · exact fun handler hhandler hcall r hr => .inr (hkept handler hhandler hcall r hr)

theorem Coherent.enter_callee (h : s.Coherent) (callee : Callee) :
    (s.enter callee.kind .idle).Coherent :=
  h.enter trivial (Phase.fits_idle (by cases callee <;> simp [Callee.kind]))
    (by cases callee <;> simp [Callee.kind]) fun _ _ hcall => hcall.elim

/-- A request goes out: the guards of the call have all been taken. -/
theorem Coherent.await (h : s.Coherent) {t : TaskId}
    (hready : s.phase t = .taking [] .send ∨ (s.phase t = .idle ∧ s.kind t = .provider))
    (callee : Callee) : (s.await t callee).Coherent := by
  have hdone : s.phase t ≠ .done := by
    rcases hready with hphase | ⟨hphase, -⟩ <;> simp [hphase]
  have hruns : (s.phase t).Runs := by
    rcases hready with hphase | ⟨hphase, -⟩ <;> rw [hphase] <;> trivial
  have hne := Nat.ne_of_lt (h.lt_next hdone)
  have hphase := s.phase_enter_ne hne callee.kind .idle
  have hkind := s.kind_enter_ne hne callee.kind .idle
  refine (h.enter_callee callee).wait ?_ ?_ ?_ (h.lt_next hdone) (Nat.lt_succ_self _) ?_ ?_
  · rw [hphase]
    exact hruns
  · rw [hphase]
    exact hdone
  · rw [hkind]
    rcases hready with hsend | ⟨-, hprovider⟩
    · intro hchange
      refine ((h.fits t).change hchange).2 ?_
      rw [hsend]
      rfl
    · simp [hprovider]
  · rw [kind_enter]
    cases callee <;> simp [Callee.kind]
  · intro handler hhandler _ r hr
    rw [hkind] at hhandler
    rcases hready with hsend | ⟨-, hprovider⟩
    · have hkept := h.kept hhandler (by rw [hsend]; rfl) r hr
      rw [hsend] at hkept
      exact hkept.resolve_left List.not_mem_nil
    · rw [hprovider] at hhandler
      cases hhandler

/-- An invocation waits for a future of its own. -/
theorem Coherent.join (h : s.Coherent) {t u : TaskId} {handler : Handler}
    (hidle : s.phase t = .idle) (hkind : s.kind u = .busCall handler t) :
    (s.move t (.awaiting u) s.lock).Coherent := by
  obtain ⟨htu, hborn⟩ := h.owner hkind
  refine h.wait (by rw [hidle]; trivial) (by simp [hidle]) ?_ htu hborn (by simp [hkind]) ?_
  · exact fun hchange => ((h.fits t).change hchange).1 hidle
  · intro handler' _ hnot
    rw [hkind] at hnot
    exact absurd trivial hnot

theorem Coherent.step (h : s.Coherent) {l : CallStep} (hs : s.step l = some s') :
    s'.Coherent := by
  cases h.effect hs with
  | enters hruns hfits howner hkept => exact h.enter hruns hfits howner hkept
  | proceeds hp => exact h.proceed hp
  | queues hphase hgrants => exact h.enqueue hphase hgrants
  | calls hready => exact h.await hready _
  | joins hidle hkind => exact h.join hidle hkind

end Effects

end LockState

theorem callMachine_coherent {s : LockState} (h : callMachine.Reachable s) : s.Coherent :=
  h.invariant LockState.coherent_new fun _ _ _ hI hs => hI.step hs

end KasmCloud
