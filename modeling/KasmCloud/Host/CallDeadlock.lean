/-
KasmCloud.Host.CallDeadlock — when calls, link changes and target changes
wait for each other for ever.

A call keeps its guards while its callee runs, and the callee may need the
same lock, behind a writer that waits for those guards. So tasks do get
stuck: `nestedCall_stuck` is a run on which they do. They do not as long as
no task has to queue for a lock while a call that has a guard of it is one of
its own callers, or is held up itself (`calls_never_stuck`); its own callers
alone are not enough (`crossCalls_stuck`).

Every step either lets a task run on, and a task that runs closes no circle
(`Coherent.knot_proceed`), or makes it wait (`Coherent.knot_wait`,
`Coherent.knot_enqueue`, `Coherent.knot_await`). What a new wait leads back
to is read off the invariant: only calls in flight keep a guard while they
wait, and nothing waits for a link change that is still to take a lock.
-/
import KasmCloud.Host.CallPhases

namespace KasmCloud

open Lib

namespace LockState

/-! ## What a step does to a deadlock -/

section Knots

variable {s s' : LockState}

/-- A new task waits for nobody. -/
theorem Coherent.direct_enter (h : s.Coherent) {kind : TaskKind} {phase : Phase}
    (hruns : phase.Runs) (x u : TaskId) :
    (s.enter kind phase).waits.Direct x u ↔ s.waits.Direct x u := by
  have hcallee : ((s.enter kind phase).phase x).callee = (s.phase x).callee := by
    by_cases hx : x = s.next
    · subst hx
      have hdone : s.phase s.next = .done := h.unborn (Nat.le_refl _)
      have hnew : (s.enter kind phase).phase s.next = phase := by
        simp [LockState.enter]
      rw [hnew, hdone]
      exact hruns.callee
    · rw [s.phase_enter_ne hx]
  show (_ = some u ∨ _) ↔ (_ = some u ∨ _)
  rw [show (s.enter kind phase).waits.awaits x = s.waits.awaits x from hcallee]
  rfl

/-- A task that runs on ties no knot. -/
theorem Coherent.knot_proceed (h : s.Coherent) {t : TaskId} {phase : Phase}
    {lock : LockName → RwLock TaskId} (hp : s.Proceeds t phase lock)
    (hknot : Knot (s.move t phase lock).waits.Direct) : Knot s.waits.Direct := by
  have hfree : ∀ v, ¬ (s.move t phase lock).waits.Direct t v :=
    (h.proceed hp).free (by simpa using hp.runs)
  refine hknot.calm fun x u hxu => ?_
  rcases hxu with ha | ⟨l, hq, hh⟩
  · by_cases hx : x = t
    · subst hx
      exact absurd (.inl ha) (hfree u)
    · have hphase : (s.phase x).callee = some u := by
        rw [← s.phase_move_ne hx phase lock]
        exact ha
      exact .inl (.inl hphase)
  · by_cases hu : u = t
    · exact .inr (hu ▸ hfree)
    · exact .inl (.inr ⟨l, (hp.queues l x hq).2, (hp.holds l u hu).mp hh⟩)

/-- A task that starts to wait for a reply. -/
theorem Coherent.knot_wait (h : s.Coherent) {t u : TaskId} (hruns : (s.phase t).Runs) :
    Knot (s.move t (.awaiting u) s.lock).waits.Direct ↔
      Knot s.waits.Direct ∨ Relation.ReflTransGen s.waits.Direct u t := by
  have hblock : Knot (s.move t (.awaiting u) s.lock).waits.Direct ↔
      Knot s.waits.Direct ∨ ∃ v, v = u ∧ Relation.ReflTransGen s.waits.Direct v t := by
    refine knot_block_iff (h.free hruns) fun x v => ?_
    by_cases hx : x = t
    · subst hx
      have hnone := h.free hruns v
      have hnot := h.not_queues hruns
      constructor
      · rintro (ha | ⟨l, hq, -⟩)
        · have hcallee : some u = some v := by simpa [waits, Phase.callee] using ha
          cases hcallee
          exact .inr ⟨rfl, rfl⟩
        · exact absurd hq (hnot l)
      · rintro (hd | ⟨-, rfl⟩)
        · exact absurd hd hnone
        · exact .inl (by simp [waits, Phase.callee])
    · have hawaits : (s.move t (.awaiting u) s.lock).waits.awaits x = s.waits.awaits x := by
        show ((s.move t (.awaiting u) s.lock).phase x).callee = (s.phase x).callee
        rw [s.phase_move_ne hx]
      simp only [hx, false_and, or_false]
      show (_ = some v ∨ _) ↔ (_ = some v ∨ _)
      rw [hawaits]
      rfl
  simpa using hblock

/-- A task that starts to queue for a lock. -/
theorem Coherent.knot_enqueue (h : s.Coherent) {t : TaskId} {l : LockName} {mode : LockMode}
    {todo : List LockRequest} {goal : Goal}
    (hphase : s.phase t = .taking ((l, mode) :: todo) goal) :
    Knot (s.move t (.queued l todo goal)
        (Function.update s.lock l ((s.lock l).enqueue t mode))).waits.Direct ↔
      Knot s.waits.Direct ∨
        ∃ h, (s.lock l).Holds h ∧ Relation.ReflTransGen s.waits.Direct h t := by
  have hruns : (s.phase t).Runs := by rw [hphase]; trivial
  refine knot_block_iff (h.free hruns) fun x v => ?_
  have hawaits : (s.move t (.queued l todo goal)
      (Function.update s.lock l ((s.lock l).enqueue t mode))).waits.awaits x =
        s.waits.awaits x := by
    show (LockState.phase _ x).callee = (s.phase x).callee
    by_cases hx : x = t
    · subst hx
      simp [Phase.callee, hphase]
    · rw [s.phase_move_ne hx]
  constructor
  · rintro (ha | ⟨k, hq, hh⟩)
    · rw [hawaits] at ha
      exact .inl (.inl ha)
    · have hold : (s.lock k).Holds v := (holds_enqueue_at l t mode k v).mp hh
      rcases (queues_enqueue_at l t mode k x).mp hq with hq | ⟨rfl, rfl⟩
      · exact .inl (.inr ⟨k, hq, hold⟩)
      · exact .inr ⟨rfl, hold⟩
  · rintro ((ha | ⟨k, hq, hh⟩) | ⟨rfl, hh⟩)
    · exact .inl (hawaits.trans ha)
    · exact .inr ⟨k, (queues_enqueue_at l t mode k x).mpr (.inl hq),
        (holds_enqueue_at l t mode k v).mpr hh⟩
    · exact .inr ⟨l, (queues_enqueue_at l x mode l x).mpr (.inr ⟨rfl, rfl⟩),
        (holds_enqueue_at l x mode l v).mpr hh⟩

/-- A request to a new task ties no knot. -/
theorem Coherent.knot_await (h : s.Coherent) {t : TaskId} {callee : Callee}
    (hready : s.phase t = .taking [] .send ∨ (s.phase t = .idle ∧ s.kind t = .provider))
    (hknot : Knot (s.await t callee).waits.Direct) : Knot s.waits.Direct := by
  have hlt : t < s.next := by
    rcases hready with hphase | ⟨hphase, -⟩ <;> exact h.lt_next (by simp [hphase])
  have hruns : (s.phase t).Runs := by
    rcases hready with hphase | ⟨hphase, -⟩ <;> rw [hphase] <;> trivial
  have henter := h.enter_callee callee
  have hsame := s.phase_enter_ne (Nat.ne_of_lt hlt) callee.kind .idle
  have hnew : (s.enter callee.kind .idle).phase s.next = .idle := by
    simp [LockState.enter]
  have hdirect : ∀ x u, (s.enter callee.kind .idle).waits.Direct x u ↔ s.waits.Direct x u :=
    h.direct_enter trivial
  rcases (henter.knot_wait (by rw [hsame]; exact hruns)).mp hknot with hold | hback
  · exact hold.calm fun x u hxu => .inl ((hdirect x u).mp hxu)
  · rcases hback.cases_head with heq | ⟨v, hv, -⟩
    · exact absurd heq (Nat.ne_of_gt hlt)
    · exact absurd hv (henter.free (by rw [hnew]; trivial) v)

end Knots

/-! ## When tasks get stuck -/

/-- The task is to take the lock next, and cannot have it at once: a link or
target change is ahead of it, or it is to make one and the lock is held. -/
def MustQueue (s : LockState) (t : TaskId) (l : LockName) : Prop :=
  ∃ mode todo goal, s.phase t = .taking ((l, mode) :: todo) goal ∧ (s.lock l).grants mode = false

/-- A call in flight has a guard of the lock. -/
structure CallHolds (s : LockState) (h : TaskId) (l : LockName) : Prop where
  calling : (s.phase h).Calling
  holds : (s.lock l).Holds h

/-- A task inside the call is queued for a lock of which a call in flight has a
guard. -/
def HeldUp (s : LockState) (h : TaskId) : Prop :=
  ∃ x l holder, s.waits.Inside h x ∧ (s.lock l).Queues x ∧ s.CallHolds holder l

/-- A call in flight that has a guard of the lock is a caller of `t`, or is
held up. -/
def Pinned (s : LockState) (t : TaskId) (l : LockName) : Prop :=
  ∃ h, s.CallHolds h l ∧ (s.waits.Inside h t ∨ s.HeldUp h)

/-- `add_linkdef` and `delete_linkdef` may queue at any time. Another task does
not begin to queue for a lock that is pinned for it, and an invocation does not
begin to wait for a future inside which a task is queued for such a lock. -/
def Clear (s : LockState) : CallStep → Prop
  | .take t => s.kind t = .linkChange ∨ ∀ l, s.MustQueue t l → ¬ s.Pinned t l
  | .join t u => ∀ x l, s.waits.Inside u x → (s.lock l).Queues x → ¬ s.Pinned t l
  | _ => True

section Stuck

variable {s s' : LockState} {t : TaskId} {l : LockName}

/-- A holder that leads to `t` is a call in flight. -/
theorem Coherent.callHolds_of_leads (h : s.Coherent) {holder : TaskId}
    (hh : (s.lock l).Holds holder) (hl : l ≠ .hostActors)
    (hlead : Relation.ReflTransGen s.waits.Direct holder t)
    (ht : ∀ k, (s.lock k).Holds t → (s.phase t).wanted ≠ []) : s.CallHolds holder l := by
  refine ⟨h.calling hh hl ?_, hh⟩
  rcases hlead.cases_head with rfl | ⟨v, hv, -⟩
  · exact .inl (ht l hh)
  · exact .inr fun hruns => h.free hruns v hv

/-- So it pins the lock. -/
theorem Coherent.pinned_of_leads (h : s.Coherent) {holder : TaskId}
    (hh : (s.lock l).Holds holder) (hl : l ≠ .hostActors)
    (hlead : Relation.ReflTransGen s.waits.Direct holder t)
    (ht : ∀ k, (s.lock k).Holds t → (s.phase t).wanted ≠ []) : s.Pinned t l := by
  refine ⟨holder, h.callHolds_of_leads hh hl hlead ht, ?_⟩
  refine (Waits.leads_cases hlead).imp_right ?_
  rintro ⟨x, k, next, hin, hq, hheld, hrest⟩
  exact ⟨x, k, next, hin, hq, h.callHolds_of_leads hheld (h.ne_hostActors hq) hrest ht⟩

/-- Nothing waits for a link change that is still to take a lock. -/
theorem Coherent.change_free (h : s.Coherent) (hkind : s.kind t = .linkChange)
    (hwanted : (s.phase t).wanted ≠ []) (y : TaskId) : ¬ s.waits.Direct y t := by
  rintro (ha | ⟨k, hq, hh⟩)
  · exact (h.newer (Coherent.awaiting_of_awaits ha)).2.2 hkind
  · exact ((h.fits t).change hkind).2 (h.calling hh (h.ne_hostActors hq) (.inl hwanted))

/-- What a task that must queue waits for leads back to it only if it pins the
lock. -/
theorem Coherent.pinned_of_enqueue (h : s.Coherent) {mode : LockMode} {todo : List LockRequest}
    {goal : Goal} (hphase : s.phase t = .taking ((l, mode) :: todo) goal)
    (hgrants : (s.lock l).grants mode = false) {holder : TaskId} (hh : (s.lock l).Holds holder)
    (hlead : Relation.ReflTransGen s.waits.Direct holder t) :
    s.kind t ≠ .linkChange ∧ s.Pinned t l := by
  have hwanted : (s.phase t).wanted ≠ [] := by
    rw [hphase]
    exact List.cons_ne_nil _ _
  constructor
  · intro hkind
    rcases hlead.cases_tail with heq | ⟨y, -, hy⟩
    · rw [← heq] at hh
      exact ((h.wants_taking hphase).mayHold (h.guards hh)).1 List.mem_cons_self
    · exact h.change_free hkind hwanted y hy
  · refine h.pinned_of_leads hh ?_ hlead fun _ _ => hwanted
    rintro rfl
    exact h.not_readOnly hphase hgrants trivial

/-- A clear step ties no knot. -/
theorem Coherent.knot_step (h : s.Coherent) {step : CallStep} (hclear : s.Clear step)
    (hs : s.step step = some s') (hknot : Knot s'.waits.Direct) : Knot s.waits.Direct := by
  cases h.effect hs with
  | enters hruns =>
    exact hknot.calm fun x u hxu => .inl ((h.direct_enter hruns x u).mp hxu)
  | proceeds hp => exact h.knot_proceed hp hknot
  | calls hready => exact h.knot_await hready hknot
  | @queues t l mode todo goal hphase hgrants =>
    rcases (h.knot_enqueue hphase).mp hknot with hold | ⟨holder, hh, hlead⟩
    · exact hold
    · obtain ⟨hkind, hpinned⟩ := h.pinned_of_enqueue hphase hgrants hh hlead
      exact absurd hpinned (hclear.resolve_left hkind l ⟨mode, todo, goal, hphase, hgrants⟩)
  | @joins t u handler hidle hkind =>
    rcases (h.knot_wait (by rw [hidle]; trivial)).mp hknot with hold | hback
    · exact hold
    · rcases Waits.leads_cases hback with hin | ⟨x, l, holder, hin, hq, hh, hlead⟩
      · exact absurd (h.inside_le hin) (Nat.not_le_of_lt (h.owner hkind).1)
      · refine absurd (h.pinned_of_leads hh (h.ne_hostActors hq) hlead ?_) (hclear x l hin hq)
        intro k hheld
        have hmay := h.guards hheld
        rw [hidle] at hmay
        exact hmay.elim

/-- A task that has to queue for a lock of one of its own callers is stuck at
once, and the caller with it. -/
theorem Coherent.deadlock_of_caller (h : s.Coherent) {holder : TaskId} (hmust : s.MustQueue t l)
    (hh : (s.lock l).Holds holder) (hin : s.waits.Inside holder t)
    (hs : s.step (.take t) = some s') : s'.waits.Deadlock := by
  obtain ⟨mode, todo, goal, hphase, hgrants⟩ := hmust
  refine (h.step hs).tidy.deadlock_iff.mpr ?_
  replace hs : s.take t = some s' := hs
  simp only [LockState.take, hphase, hgrants, Bool.false_eq_true, if_false] at hs
  cases hs
  exact (h.knot_enqueue hphase).mpr (.inr ⟨holder, hh, hin.direct⟩)

/-- No task waits at the start. -/
theorem not_knot_new : ¬ Knot LockState.new.waits.Direct := by
  rintro ⟨S, ⟨t, ht⟩, hS⟩
  obtain ⟨u, _, htu⟩ := hS t ht
  exact coherent_new.free (t := t) trivial u htu

end Stuck

/-! ## The condition, computed -/

/-- The tasks inside the call of `h`, down to `n` calls. -/
def insideOf (s : LockState) : Nat → TaskId → List TaskId
  | 0, h => [h]
  | n + 1, h =>
    h :: match (s.phase h).callee with
      | some u => s.insideOf n u
      | none => []

theorem Coherent.mem_insideOf {s : LockState} (h : s.Coherent) {caller x : TaskId}
    (hin : s.waits.Inside caller x) {n : Nat} (hn : s.next ≤ n + caller) :
    x ∈ s.insideOf n caller := by
  induction hin using Relation.ReflTransGen.head_induction_on generalizing n with
  | refl => cases n <;> simp [insideOf]
  | @head caller u ha _ ih =>
    have hphase := Coherent.awaiting_of_awaits ha
    obtain ⟨hlt, hborn, -⟩ := h.newer hphase
    cases n with
    | zero => exact absurd (Nat.lt_trans hlt hborn) (Nat.not_lt_of_le (by simpa using hn))
    | succ n =>
      have hdeep : s.next ≤ n + u := by
        refine Nat.le_trans hn ?_
        rw [Nat.add_assoc, Nat.add_comm 1]
        exact Nat.add_le_add_left hlt n
      simp [insideOf, hphase, Phase.callee, ih hdeep]

def heldUp? (s : LockState) (h : TaskId) : Bool :=
  (s.insideOf s.next h).any fun x =>
    match s.phase x with
    | .queued l _ _ => !(s.lock l).guards.isEmpty
    | _ => false

def pinned? (s : LockState) (t : TaskId) (l : LockName) : Bool :=
  (s.lock l).guards.any fun g => (s.insideOf s.next g.1).contains t || s.heldUp? g.1

/-- Steps that wait for no future. -/
def clear? (s : LockState) : CallStep → Bool
  | .take t =>
    match s.kind t, s.phase t with
    | .linkChange, _ => true
    | _, .taking ((l, mode) :: _) _ => (s.lock l).grants mode || !s.pinned? t l
    | _, _ => true
  | .join .. => false
  | _ => true

theorem Coherent.pinned?_of_pinned {s : LockState} (h : s.Coherent) {t : TaskId} {l : LockName}
    (hpinned : s.Pinned t l) : s.pinned? t l = true := by
  obtain ⟨caller, hcalls, hback⟩ := hpinned
  obtain ⟨g, hg, rfl⟩ := List.mem_map.mp hcalls.holds
  refine List.any_eq_true.mpr ⟨g, hg, ?_⟩
  rw [Bool.or_eq_true]
  rcases hback with hin | ⟨x, k, holder, hin, hq, hheld⟩
  · exact .inl (by simpa using h.mem_insideOf hin (Nat.le_add_right _ _))
  · refine .inr (List.any_eq_true.mpr ⟨x, h.mem_insideOf hin (Nat.le_add_right _ _), ?_⟩)
    obtain ⟨todo, goal, hphase⟩ := h.place hq
    obtain ⟨g', hg', -⟩ := List.mem_map.mp hheld.holds
    have hguards : (s.lock k).guards ≠ [] := List.ne_nil_of_mem hg'
    simpa [hphase] using hguards

theorem Coherent.clear_of_check {s : LockState} (h : s.Coherent) {step : CallStep}
    (hcheck : s.clear? step = true) : s.Clear step := by
  cases step with
  | take t =>
    by_cases hkind : s.kind t = .linkChange
    · exact .inl hkind
    · refine .inr ?_
      rintro l ⟨mode, todo, goal, hphase, hgrants⟩ hpinned
      simp only [clear?, hphase, hgrants, h.pinned?_of_pinned hpinned] at hcheck
      cases hcheck
  | join t u => cases hcheck
  | _ => trivial

end LockState

/-- A computed run. -/
theorem clear_run {tr : List CallStep} {s : LockState}
    (h : callMachine.execWhen LockState.clear? .new tr = some s) :
    callMachine.RunWhen LockState.Clear tr s := by
  have hrun : callMachine.RunWhen (fun s l => s.clear? l = true) tr s :=
    Machine.runWhen_of_execWhen h
  refine hrun.induction (I := fun tr s => callMachine.RunWhen LockState.Clear tr s) .nil ?_
  intro tr s l s' hbefore ih hcheck hs
  exact .snoc ih ((callMachine_coherent hbefore.reachable).clear_of_check hcheck) hs

/-! ## Runs of clear steps -/

/-- On a run of clear steps no tasks are ever stuck. What the condition says of
a task's own callers cannot be given up: a task that is made to queue for a
lock that one of them holds is stuck. And a call holds the links of its group
and the aliases for as long as it awaits its reply. -/
theorem calls_never_stuck {tr : List CallStep} {s : LockState}
    (hrun : callMachine.RunWhen LockState.Clear tr s) :
    ¬ s.waits.Deadlock ∧
      (∀ t l caller s', s.MustQueue t l → (s.lock l).Holds caller → s.waits.Inside caller t →
        s.step (.take t) = some s' → s'.waits.Deadlock) ∧
      ∀ t u handler, s.phase t = .awaiting u → ¬ (s.kind u).IsBusCall →
        (s.kind t).handler? = some handler →
          (s.lock (.links handler.links)).Holds t ∧ (s.lock .aliases).Holds t := by
  have hboth : s.Coherent ∧ ¬ Knot s.waits.Direct :=
    hrun.invariant (I := fun s : LockState => s.Coherent ∧ ¬ Knot s.waits.Direct)
      ⟨LockState.coherent_new, LockState.not_knot_new⟩
      fun s l s' hI hclear hs =>
        ⟨hI.1.step hs, fun hknot => hI.2 (hI.1.knot_step hclear hs hknot)⟩
  obtain ⟨hcoh, hfree⟩ := hboth
  refine ⟨fun hdead => hfree (hcoh.tidy.deadlock_iff.mp hdead), ?_, ?_⟩
  · exact fun t l caller s' hmust hh hin hs => hcoh.deadlock_of_caller hmust hh hin hs
  · intro t u handler hphase hcall hkind
    have hkept : ∀ r ∈ handler.callLocks, (s.lock r.1).Holds t := by
      intro r hr
      refine (hcoh.kept hkind (by rw [hphase]; exact hcall) r hr).resolve_left ?_
      rw [hphase]
      exact List.not_mem_nil
    exact ⟨hkept (.links handler.links, .read) (by simp [Handler.callLocks]),
      hkept (.aliases, .read) (by simp [Handler.callLocks])⟩

def echoHandler : Handler where
  latticePrefix := "default"
  claims := ⟨"A", "M", 0, none, none, none⟩
  origin := ⟨"M", "", ""⟩
  links := 0
  targets := 0

/-- An invocation calls a provider. A link of its group is added, and another
invocation of the group queues behind that. Then the provider calls an actor
of the group, which makes a call. -/
def providerCall : List CallStep :=
  [.invoke echoHandler, .begin 0 .callSync, .take 0, .take 0, .send 0 .provider,
    .changeLink true (some 0), .take 2, .leave 2, .take 2, .take 2,
    .invoke echoHandler, .begin 3 .callSync, .take 3,
    .send 1 (.actor echoHandler), .begin 4 .callSync]

def providerCallState : LockState :=
  (callMachine.exec callMachine.init providerCall).getD .new

/-- Nobody is stuck yet, but the actor that is called will be. -/
theorem providerCall_not_stuck :
    (providerCallState.lock (.links 0)).queue = [(2, .write), (3, .read)] ∧
      ¬ providerCallState.waits.Deadlock ∧
      (∃ s', providerCallState.step (.take 4) = some s' ∧ s'.waits.Deadlock) ∧
      (providerCallState.lock (.links 0)).Holds 0 ∧
      (providerCallState.lock .aliases).Holds 0 := by
  have hrun : callMachine.RunWhen LockState.Clear providerCall providerCallState :=
    clear_run rfl
  obtain ⟨hfree, hcallers, hguards⟩ := calls_never_stuck hrun
  have hheld := hguards 0 1 echoHandler rfl id rfl
  have hmust : providerCallState.MustQueue 4 (.links 0) :=
    ⟨.read, [(.aliases, .read)], .send, rfl, rfl⟩
  have hinside : providerCallState.waits.Inside 0 4 :=
    .head (b := 1) rfl (.single rfl)
  exact ⟨rfl, hfree, ⟨_, rfl, hcallers 4 (.links 0) 0 _ hmust hheld.1 hinside rfl⟩, hheld⟩

/-! ## A call to an actor of the same group -/

/-- An invocation calls an actor of its own group. Before the callee makes a
call, a link of the group is added. -/
def nestedCall : List CallStep :=
  [.invoke echoHandler, .begin 0 .callSync, .take 0, .take 0, .send 0 (.actor echoHandler),
    .changeLink true (some 0), .take 2, .leave 2, .take 2, .take 2,
    .begin 1 .callSync, .take 1]

def nestedCallState : LockState :=
  (callMachine.exec callMachine.init nestedCall).getD .new

theorem nestedCallState_links : nestedCallState.lock (.links 0) =
    ⟨[(0, .read)], [(2, .write), (1, .read)]⟩ := rfl

/-- The caller waits for its callee, the callee for the writer that queues
ahead of it, and the writer for the caller. -/
theorem nestedCall_stuck : ¬ ∀ s, callMachine.Reachable s → ¬ s.waits.Deadlock := by
  intro hnever
  have hrun : callMachine.Run nestedCall nestedCallState := Machine.run_of_exec rfl
  have hlinks : nestedCallState.waits.lock (.links 0) =
      ⟨[(0, .read)], [(2, .write), (1, .read)]⟩ := nestedCallState_links
  have hcall : nestedCallState.waits.For 0 1 := .inl rfl
  have hreader : nestedCallState.waits.For 1 2 :=
    .inr ⟨.links 0, by simp [RwLock.Queues, hlinks],
      .inr (by rw [hlinks]; unfold RwLock.Ahead; decide)⟩
  have hwriter : nestedCallState.waits.For 2 0 :=
    .inr ⟨.links 0, by simp [RwLock.Queues, hlinks], .inl (by simp [RwLock.Holds, hlinks])⟩
  refine hnever nestedCallState ⟨nestedCall, hrun⟩ ⟨{0, 1, 2}, ⟨0, by simp⟩, ?_⟩
  intro t ht
  rcases ht with rfl | rfl | rfl
  · exact ⟨1, by simp, by decide, hcall⟩
  · exact ⟨2, by simp, by decide, hreader⟩
  · exact ⟨0, by simp, by decide, hwriter⟩

/-! ## Two calls that cross -/

/-- An actor of another group. -/
def otherHandler : Handler := { echoHandler with links := 1 }

/-- Actors of two groups call each other, and a link of either group is added
before the callees make a call. -/
def crossCalls : List CallStep :=
  [.invoke echoHandler, .begin 0 .callSync, .take 0, .take 0, .send 0 (.actor otherHandler),
    .invoke otherHandler, .begin 2 .callSync, .take 2, .take 2, .send 2 (.actor echoHandler),
    .changeLink true (some 0), .take 4, .leave 4, .take 4, .take 4,
    .changeLink true (some 1), .take 5, .leave 5, .take 5, .take 5,
    .begin 1 .callSync, .take 1, .begin 3 .callSync, .take 3]

def crossCallsState : LockState :=
  (callMachine.exec callMachine.init crossCalls).getD .new

theorem crossCallsState_links : crossCallsState.lock (.links 0) =
      ⟨[(0, .read)], [(4, .write), (3, .read)]⟩ ∧
    crossCallsState.lock (.links 1) = ⟨[(2, .read)], [(5, .write), (1, .read)]⟩ := ⟨rfl, rfl⟩

/-- Each callee waits for the caller of the other one, and nobody for a caller
of its own: the calls that are held up cannot be left out of the condition. -/
theorem crossCalls_stuck : crossCallsState.waits.Deadlock ∧
    ∀ t l caller, (crossCallsState.lock l).Queues t → (crossCallsState.lock l).Holds caller →
      ¬ crossCallsState.waits.Inside caller t := by
  have hrun : callMachine.Run crossCalls crossCallsState := Machine.run_of_exec rfl
  have hcoh := callMachine_coherent ⟨crossCalls, hrun⟩
  obtain ⟨hlinks, hother⟩ := crossCallsState_links
  constructor
  · refine hcoh.tidy.deadlock_iff.mpr ⟨{0, 1, 2, 3}, ⟨0, by simp⟩, ?_⟩
    have hreads : ∀ t l h, (crossCallsState.lock l).Queues t → (crossCallsState.lock l).Holds h →
        crossCallsState.waits.Direct t h := fun t l h hq hh => .inr ⟨l, hq, hh⟩
    intro t ht
    rcases ht with rfl | rfl | rfl | rfl
    · exact ⟨1, by simp, .inl rfl⟩
    · exact ⟨2, by simp, hreads 1 (.links 1) 2 (by simp [RwLock.Queues, hother])
        (by simp [RwLock.Holds, hother])⟩
    · exact ⟨3, by simp, .inl rfl⟩
    · exact ⟨0, by simp, hreads 3 (.links 0) 0 (by simp [RwLock.Queues, hlinks])
        (by simp [RwLock.Holds, hlinks])⟩
  · intro t l caller hq hh hin
    have hmem := hcoh.mem_insideOf hin (Nat.le_add_right _ _)
    obtain ⟨todo, goal, hphase⟩ := hcoh.place hq
    have hborn : t < 6 := hcoh.lt_next (by simp [hphase])
    have h0 : crossCallsState.insideOf crossCallsState.next 0 = [0, 1] := rfl
    have h2 : crossCallsState.insideOf crossCallsState.next 2 = [2, 3] := rfl
    have hofOther : l = .links 1 → caller = 2 := by
      rintro rfl
      simpa [RwLock.Holds, hother] using hh
    have hofLinks : l = .links 0 → caller = 0 := by
      rintro rfl
      simpa [RwLock.Holds, hlinks] using hh
    rcases t with _ | _ | _ | _ | _ | _ | t
    · cases hphase
    · cases hphase
      rw [hofOther rfl, h2] at hmem
      simp at hmem
    · cases hphase
    · cases hphase
      rw [hofLinks rfl, h0] at hmem
      simp at hmem
    · cases hphase
      rw [hofLinks rfl, h0] at hmem
      simp at hmem
    · cases hphase
      rw [hofOther rfl, h2] at hmem
      simp at hmem
    · exact absurd hborn (Nat.not_lt_of_le (Nat.le_add_left 6 t))

end KasmCloud
