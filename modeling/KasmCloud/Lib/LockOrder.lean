/-
KasmCloud.Lib.LockOrder — code that takes its locks in order.

`Code` is code seen from its locks: guards have scopes, waits for something
that is no lock end by themselves, and a return leaves all scopes of its call.
`Code.Path` are its executions, as sequences of lock operations, and
`Code.Ordered` asks that a lock is taken only under locks of higher rank.

`LockTasks` runs any number of such paths on fair locks (`Lib/RwLock.lean`).
Where all of them are of ordered code,

* `LockTasks.leads_to_move` — whoever waits, waits in the end for a task that
  can move;
* `LockTasks.not_deadlock` — no set of tasks is stuck;
* `LockTasks.exec_length_le` — tasks that no new ones join come to an end,
  after at most twice as many steps as they have operations.
-/
import KasmCloud.Lib.Machine
import KasmCloud.Lib.RwLock
import Mathlib.Algebra.BigOperators.Group.Finset.Basic
import Mathlib.Algebra.Order.BigOperators.Group.Finset
import Mathlib.Order.WellFounded

namespace Lib

/-! ## Code and its paths -/

inductive Code (κ : Type) where
  | nop
  /-- A wait for something that is no lock. -/
  | rest
  /-- A return from the call around it. -/
  | exit
  | scope (l : κ) (mode : LockMode) (body : Code κ)
  | seq (first second : Code κ)
  | either (left right : Code κ)
  | call (body : Code κ)

inductive LockOp (κ : Type) where
  | take (l : κ) (mode : LockMode)
  | drop (l : κ)
  | rest
  deriving DecidableEq

namespace Code

variable {κ ι : Type}

/-- One after the other. -/
def all (cs : List (Code κ)) : Code κ := cs.foldr seq nop

/-- A wait that ends well, or with an error that is passed on. -/
def attempt : Code κ := seq rest (either nop exit)

/-- An execution, and whether it goes on after the code. -/
inductive Path : Code κ → List (LockOp κ) → Bool → Prop where
  | nop : Path nop [] true
  | rest : Path rest [.rest] true
  | exit : Path exit [] false
  | scope {l : κ} {mode : LockMode} {body : Code κ} {p : List (LockOp κ)} {goes : Bool} :
      Path body p goes → Path (scope l mode body) (.take l mode :: p ++ [.drop l]) goes
  | seqExit {first second : Code κ} {p : List (LockOp κ)} :
      Path first p false → Path (seq first second) p false
  | seq {first second : Code κ} {p q : List (LockOp κ)} {goes : Bool} :
      Path first p true → Path second q goes → Path (seq first second) (p ++ q) goes
  | left {left right : Code κ} {p : List (LockOp κ)} {goes : Bool} :
      Path left p goes → Path (either left right) p goes
  | right {left right : Code κ} {p : List (LockOp κ)} {goes : Bool} :
      Path right p goes → Path (either left right) p goes
  | call {body : Code κ} {p : List (LockOp κ)} {goes : Bool} :
      Path body p goes → Path (call body) p true

variable [LT ι] (rank : κ → ι)

/-- Under the locks `held`, only locks of lower rank are taken. -/
def Ordered : List κ → Code κ → Prop
  | held, scope l _ body => (∀ h ∈ held, rank l < rank h) ∧ Ordered (l :: held) body
  | held, seq first second => Ordered held first ∧ Ordered held second
  | held, either left right => Ordered held left ∧ Ordered held right
  | held, call body => Ordered held body
  | _, nop | _, rest | _, exit => True

theorem ordered_all {held : List κ} {cs : List (Code κ)} :
    Ordered rank held (all cs) ↔ ∀ c ∈ cs, Ordered rank held c := by
  induction cs with
  | nil => simp [all, Ordered]
  | cons c cs ih =>
    have hcons : all (c :: cs) = seq c (all cs) := rfl
    simp [hcons, Ordered, ih]

end Code

/-- A path whose guards nest and whose locks go down, with `held` held before
it and nothing after it. -/
def Orderly {κ ι : Type} [LT ι] (rank : κ → ι) : List κ → List (LockOp κ) → Prop
  | held, [] => held = []
  | held, .take l _ :: p => (∀ h ∈ held, rank l < rank h) ∧ Orderly rank (l :: held) p
  | held, .drop l :: p => ∃ outer, held = l :: outer ∧ Orderly rank outer p
  | held, .rest :: p => Orderly rank held p

theorem Code.Path.orderly {κ ι : Type} [LT ι] {rank : κ → ι} {c : Code κ} {p : List (LockOp κ)}
    {goes : Bool} (hp : c.Path p goes) {held : List κ} (hc : c.Ordered rank held)
    {q : List (LockOp κ)} (hq : Orderly rank held q) : Orderly rank held (p ++ q) := by
  induction hp generalizing held q with
  | nop | exit => exact hq
  | rest => exact hq
  | scope _ ih =>
    obtain ⟨hrank, hbody⟩ := hc
    rw [List.cons_append, List.cons_append, List.append_assoc]
    exact ⟨hrank, ih hbody ⟨held, rfl, hq⟩⟩
  | seqExit _ ih => exact ih hc.1 hq
  | seq _ _ ih₁ ih₂ =>
    rw [List.append_assoc]
    exact ih₁ hc.1 (ih₂ hc.2 hq)
  | left _ ih => exact ih hc.1 hq
  | right _ ih => exact ih hc.2 hq
  | call _ ih => exact ih hc hq

theorem Code.Path.orderly_nil {κ ι : Type} [LT ι] {rank : κ → ι} {c : Code κ}
    {p : List (LockOp κ)} {goes : Bool} (hp : c.Path p goes) (hc : c.Ordered rank []) :
    Orderly rank [] p := by
  simpa using hp.orderly hc (q := []) rfl

/-! ## Tasks -/

structure LockTasks (τ κ : Type) where
  lock : κ → RwLock τ
  todo : τ → List (LockOp κ)

inductive TaskStep (τ κ : Type) where
  /-- A task begins on a path. -/
  | arrive (t : τ) (path : List (LockOp κ))
  | run (t : τ)
  /-- The first in the queue of the lock gets its guard. -/
  | grant (l : κ)

namespace LockTasks

variable {τ κ ι : Type}

def new : LockTasks τ κ where
  lock _ := .unlocked
  todo _ := []

section Step

variable [DecidableEq τ] [DecidableEq κ]

instance (lock : RwLock τ) (t : τ) : Decidable (lock.Queues t) :=
  inferInstanceAs (Decidable (t ∈ lock.queue.map Prod.fst))

def withLock (s : LockTasks τ κ) (l : κ) (lock : RwLock τ) : LockTasks τ κ :=
  { s with lock := Function.update s.lock l lock }

def begin (s : LockTasks τ κ) (t : τ) (path : List (LockOp κ)) : LockTasks τ κ :=
  { s with todo := Function.update s.todo t path }

/-- A task goes on to its next operation. -/
def moveOn (s : LockTasks τ κ) (t : τ) : LockTasks τ κ :=
  { s with todo := Function.update s.todo t (s.todo t).tail }

def run (s : LockTasks τ κ) (t : τ) : Option (LockTasks τ κ) :=
  match s.todo t with
  | [] => none
  | .take l mode :: _ =>
    if (s.lock l).Queues t then none
    else if (s.lock l).grants mode then some ((s.withLock l ((s.lock l).hold t mode)).moveOn t)
    else some (s.withLock l ((s.lock l).enqueue t mode))
  | .drop l :: _ => some ((s.withLock l ((s.lock l).drop t)).moveOn t)
  | .rest :: _ => some (s.moveOn t)

def grant (s : LockTasks τ κ) (l : κ) : Option (LockTasks τ κ) :=
  (s.lock l).advance.map fun (t, lock) => (s.withLock l lock).moveOn t

def step (s : LockTasks τ κ) : TaskStep τ κ → Option (LockTasks τ κ)
  | .arrive t path =>
    if s.todo t = [] then some (s.begin t path) else none
  | .run t => s.run t
  | .grant l => s.grant l

end Step

/-- Who waits for whom. -/
def waits (s : LockTasks τ κ) : Waits τ κ where
  lock := s.lock
  awaits _ := none

end LockTasks

/-- Tasks that come and go, in any order that the locks allow. -/
def lockMachine (τ κ : Type) [DecidableEq τ] [DecidableEq κ] :
    Machine (LockTasks τ κ) (TaskStep τ κ) where
  init := .new
  step := LockTasks.step

/-- Tasks begin on paths of such code only. -/
def TaskStep.Runs {τ κ : Type} (codes : Code κ → Prop) : TaskStep τ κ → Prop
  | .arrive _ path => ∃ c goes, codes c ∧ c.Path path goes
  | _ => True

namespace LockTasks

variable {τ κ ι : Type} [Preorder ι] {rank : κ → ι} {s s' : LockTasks τ κ}

/-! ## The invariant -/

/-- Tasks hold what their paths say, and queue for what they take next. -/
structure Kept (rank : κ → ι) (s : LockTasks τ κ) : Prop where
  held : ∀ t, ∃ held : List κ, held.Nodup ∧ Orderly rank held (s.todo t) ∧
    ∀ l, (s.lock l).Holds t ↔ l ∈ held
  place : ∀ t l, (s.lock l).Queues t → ∃ mode p, s.todo t = .take l mode :: p
  single : ∀ l, (s.lock l).QueueNodup

theorem kept_new : (new : LockTasks τ κ).Kept rank where
  held t := ⟨[], List.nodup_nil, rfl, by simp [new]⟩
  place t l h := absurd h (RwLock.not_queues_unlocked t)
  single l := List.nodup_nil

/-- A holder is not at the end of its path. -/
theorem Kept.todo_ne_nil (h : s.Kept rank) {t : τ} {l : κ} (hl : (s.lock l).Holds t) :
    s.todo t ≠ [] := by
  obtain ⟨held, -, horderly, hholds⟩ := h.held t
  intro hnil
  rw [hnil] at horderly
  cases horderly
  exact absurd ((hholds l).mp hl) List.not_mem_nil

/-- A task queues for a lock of lower rank than those it holds. -/
theorem Kept.rank_lt (h : s.Kept rank) {t : τ} {l l' : κ} (hl : (s.lock l).Holds t)
    (hq : (s.lock l').Queues t) : rank l' < rank l := by
  obtain ⟨held, -, horderly, hholds⟩ := h.held t
  obtain ⟨mode, p, htodo⟩ := h.place t l' hq
  rw [htodo] at horderly
  exact horderly.1 l ((hholds l).mp hl)

theorem Kept.tidy (h : s.Kept rank) : s.waits.Tidy where
  lone _ := rfl
  once {t l l'} hq hq' := by
    obtain ⟨mode, p, htodo⟩ := h.place t l hq
    obtain ⟨mode', p', htodo'⟩ := h.place t l' hq'
    rw [htodo] at htodo'
    cases htodo'
    rfl
  apart hq hl := lt_irrefl _ (h.rank_lt hl hq)
  other t := by simp [waits]

section Steps

variable [DecidableEq τ] [DecidableEq κ]

omit [DecidableEq κ] in
theorem begin_todo (s : LockTasks τ κ) (t u : τ) (path : List (LockOp κ)) :
    (s.begin t path).todo u = if u = t then path else s.todo u := by
  simp [begin, Function.update_apply]

omit [DecidableEq τ] in
@[simp] theorem withLock_todo (s : LockTasks τ κ) (l : κ) (lock : RwLock τ) :
    (s.withLock l lock).todo = s.todo := rfl

omit [DecidableEq κ] in
@[simp] theorem moveOn_lock (s : LockTasks τ κ) (t : τ) : (s.moveOn t).lock = s.lock := rfl

omit [DecidableEq τ] in
theorem withLock_lock (s : LockTasks τ κ) (l l' : κ) (lock : RwLock τ) :
    (s.withLock l lock).lock l' = if l' = l then lock else s.lock l' := by
  simp [withLock, Function.update_apply]

omit [DecidableEq κ] in
theorem moveOn_todo (s : LockTasks τ κ) (t u : τ) :
    (s.moveOn t).todo u = if u = t then (s.todo t).tail else s.todo u := by
  simp [moveOn, Function.update_apply]

/-- One lock changes and one task moves on, and the other tasks keep their
guards and their places. -/
theorem Kept.moved (h : s.Kept rank) {t : τ} {l : κ} {lock : RwLock τ}
    (hholds : ∀ u, u ≠ t → (lock.Holds u ↔ (s.lock l).Holds u))
    (hqueues : ∀ u, lock.Queues u → u ≠ t ∧ (s.lock l).Queues u)
    (hfree : ∀ l', l' ≠ l → ¬ (s.lock l').Queues t)
    (hsingle : lock.QueueNodup)
    (hheld : ∃ held : List κ, held.Nodup ∧ Orderly rank held (s.todo t).tail ∧
      (lock.Holds t ↔ l ∈ held) ∧ ∀ l', l' ≠ l → ((s.lock l').Holds t ↔ l' ∈ held)) :
    ((s.withLock l lock).moveOn t).Kept rank where
  held u := by
    rw [moveOn_todo]
    by_cases hu : u = t
    · subst hu
      obtain ⟨held, hnodup, horderly, hown, hothers⟩ := hheld
      refine ⟨held, hnodup, by simpa using horderly, fun l' => ?_⟩
      rw [moveOn_lock, withLock_lock]
      split
      · rename_i hl
        rw [hl]
        exact hown
      · rename_i hl
        exact hothers l' hl
    · obtain ⟨held, hnodup, horderly, hold⟩ := h.held u
      refine ⟨held, hnodup, by simpa [hu] using horderly, fun l' => ?_⟩
      rw [moveOn_lock, withLock_lock]
      split
      · rename_i hl
        rw [hholds u hu, hl]
        exact hold l
      · exact hold l'
  place u l' hq := by
    rw [moveOn_lock, withLock_lock] at hq
    rw [moveOn_todo]
    split at hq
    · rename_i hl
      obtain ⟨hu, hq⟩ := hqueues u hq
      rw [if_neg hu, hl]
      exact h.place u l hq
    · rename_i hl
      have hu : u ≠ t := by
        rintro rfl
        exact hfree l' hl hq
      rw [if_neg hu]
      exact h.place u l' hq
  single l' := by
    rw [moveOn_lock, withLock_lock]
    split
    · exact hsingle
    · exact h.single l'

omit [DecidableEq τ] [DecidableEq κ] in
/-- A task that takes no such lock next is not in its queue. -/
theorem Kept.not_queues (h : s.Kept rank) {t : τ} {l : κ}
    (hnot : ∀ mode p, s.todo t ≠ .take l mode :: p) : ¬ (s.lock l).Queues t := by
  intro hq
  obtain ⟨mode, p, htodo⟩ := h.place t l hq
  exact hnot mode p htodo

theorem kept_take (h : s.Kept rank) {t : τ} {l : κ} {mode : LockMode} {p : List (LockOp κ)}
    (htodo : s.todo t = .take l mode :: p) {lock : RwLock τ}
    (hholds : ∀ u, lock.Holds u ↔ u = t ∨ (s.lock l).Holds u)
    (hqueues : ∀ u, lock.Queues u → u ≠ t ∧ (s.lock l).Queues u) (hsingle : lock.QueueNodup) :
    ((s.withLock l lock).moveOn t).Kept rank := by
  obtain ⟨held, hnodup, horderly, hold⟩ := h.held t
  rw [htodo] at horderly
  refine h.moved (fun u hu => ?_) hqueues (fun l' hl => ?_) hsingle
    ⟨l :: held, ?_, by rw [htodo]; exact horderly.2, ?_, fun l' hl => ?_⟩
  · rw [hholds]
    exact or_iff_right hu
  · refine h.not_queues fun mode' p' htodo' => ?_
    rw [htodo] at htodo'
    cases htodo'
    exact hl rfl
  · exact List.nodup_cons.mpr ⟨fun hl => lt_irrefl _ (horderly.1 l hl), hnodup⟩
  · rw [hholds]
    simp
  · rw [hold]
    simp [hl]

theorem kept_drop (h : s.Kept rank) {t : τ} {l : κ} {p : List (LockOp κ)}
    (htodo : s.todo t = .drop l :: p) :
    ((s.withLock l ((s.lock l).drop t)).moveOn t).Kept rank := by
  obtain ⟨held, hnodup, horderly, hold⟩ := h.held t
  rw [htodo] at horderly
  obtain ⟨outer, rfl, horderly⟩ := horderly
  have hl := List.nodup_cons.mp hnodup
  refine h.moved (fun u hu => by simp [hu]) (fun u hq => ?_) (fun l' _ => ?_)
    ((h.single l).drop t) ⟨outer, hl.2, by rw [htodo]; exact horderly, ?_, fun l' hne => ?_⟩
  · rw [RwLock.queues_drop] at hq
    exact ⟨hq.2, hq.1⟩
  · refine h.not_queues fun mode p' htodo' => ?_
    rw [htodo] at htodo'
    cases htodo'
  · simp [hl.1]
  · rw [hold]
    simp [hne]

omit [DecidableEq κ] in
theorem kept_rest (h : s.Kept rank) {t : τ} {p : List (LockOp κ)} (htodo : s.todo t = .rest :: p) :
    (s.moveOn t).Kept rank where
  held u := by
    rw [moveOn_todo]
    obtain ⟨held, hnodup, horderly, hold⟩ := h.held u
    refine ⟨held, hnodup, ?_, hold⟩
    split
    · rename_i hu
      rw [hu, htodo] at horderly
      rw [htodo]
      exact horderly
    · exact horderly
  place u l hq := by
    obtain ⟨mode, q, hu⟩ := h.place u l hq
    rw [moveOn_todo, if_neg]
    · exact ⟨mode, q, hu⟩
    · rintro rfl
      rw [htodo] at hu
      cases hu
  single := h.single

omit [DecidableEq τ] in
theorem kept_enqueue (h : s.Kept rank) {t : τ} {l : κ} {mode : LockMode} {p : List (LockOp κ)}
    (htodo : s.todo t = .take l mode :: p) (hfree : ¬ (s.lock l).Queues t) :
    (s.withLock l ((s.lock l).enqueue t mode)).Kept rank where
  held u := by
    obtain ⟨held, hnodup, horderly, hold⟩ := h.held u
    refine ⟨held, hnodup, horderly, fun l' => ?_⟩
    rw [withLock_lock]
    split
    · rename_i hl
      rw [RwLock.holds_enqueue, hl]
      exact hold l
    · exact hold l'
  place u l' hq := by
    rw [withLock_lock] at hq
    split at hq
    · rename_i hl
      rcases RwLock.queues_enqueue.mp hq with hq | rfl
      · exact h.place u l' (hl ▸ hq)
      · rw [hl]
        exact ⟨mode, p, htodo⟩
    · exact h.place u l' hq
  single l' := by
    rw [withLock_lock]
    split
    · exact (h.single l).enqueue hfree mode
    · exact h.single l'

/-- What `run` does. -/
theorem run_cases {t : τ} (hs : s.run t = some s') :
    (∃ l mode p, s.todo t = .take l mode :: p ∧ ¬ (s.lock l).Queues t ∧
      ((s.lock l).grants mode = true ∧ s' = (s.withLock l ((s.lock l).hold t mode)).moveOn t ∨
        s' = s.withLock l ((s.lock l).enqueue t mode))) ∨
    (∃ l p, s.todo t = .drop l :: p ∧ s' = (s.withLock l ((s.lock l).drop t)).moveOn t) ∨
    ∃ p, s.todo t = .rest :: p ∧ s' = s.moveOn t := by
  unfold run at hs
  split at hs
  · cases hs
  · rename_i l mode p htodo
    split at hs
    · cases hs
    · rename_i hfree
      refine .inl ⟨l, mode, p, htodo, hfree, ?_⟩
      split at hs
      · rename_i hgrants
        exact .inl ⟨hgrants, (Option.some.inj hs).symm⟩
      · exact .inr (Option.some.inj hs).symm
  · rename_i l p htodo
    exact .inr (.inl ⟨l, p, htodo, (Option.some.inj hs).symm⟩)
  · rename_i p htodo
    exact .inr (.inr ⟨p, htodo, (Option.some.inj hs).symm⟩)

theorem kept_step {codes : Code κ → Prop} (hcodes : ∀ c, codes c → c.Ordered rank [])
    (h : s.Kept rank) {l : TaskStep τ κ} (hruns : l.Runs codes) (hs : s.step l = some s') :
    s'.Kept rank := by
  cases l with
  | arrive t path =>
    simp only [step] at hs
    split at hs
    · rename_i hnil
      cases hs
      obtain ⟨c, goes, hc, hpath⟩ := hruns
      refine ⟨fun u => ?_, fun u l hq => ?_, h.single⟩
      · obtain ⟨held, hnodup, horderly, hold⟩ := h.held u
        rw [begin_todo]
        split
        · rename_i hu
          subst hu
          rw [hnil] at horderly
          cases horderly
          exact ⟨[], List.nodup_nil, hpath.orderly_nil (hcodes c hc), hold⟩
        · exact ⟨held, hnodup, horderly, hold⟩
      · obtain ⟨mode, p, hu⟩ := h.place u l hq
        refine ⟨mode, p, ?_⟩
        rw [begin_todo, if_neg, hu]
        rintro rfl
        rw [hnil] at hu
        cases hu
    · cases hs
  | run t =>
    rcases run_cases hs with ⟨l, mode, p, htodo, hfree, ⟨hgrants, rfl⟩ | rfl⟩ |
      ⟨l, p, htodo, rfl⟩ | ⟨p, htodo, rfl⟩
    · refine kept_take h htodo (fun u => RwLock.holds_hold) (fun u hq => ⟨?_, hq⟩) (h.single l)
      rintro rfl
      exact hfree hq
    · exact kept_enqueue h htodo hfree
    · exact kept_drop h htodo
    · exact kept_rest h htodo
  | grant l =>
    obtain ⟨⟨t, lock⟩, hadvance, rfl⟩ := Option.map_eq_some_iff.mp hs
    obtain ⟨hq, hholds, hqueues, hsingle⟩ := RwLock.advance_spec hadvance
    obtain ⟨mode, p, htodo⟩ := h.place t l hq
    obtain ⟨hnodup, hgone⟩ := hsingle (h.single l)
    refine kept_take h htodo hholds (fun u hu => ⟨?_, (hqueues u).mpr (.inr hu)⟩) hnodup
    rintro rfl
    exact hgone hu

theorem kept_of_run {codes : Code κ → Prop} (hcodes : ∀ c, codes c → c.Ordered rank [])
    {tr : List (TaskStep τ κ)} (h : (lockMachine τ κ).RunWhen (fun _ l => l.Runs codes) tr s) :
    s.Kept rank :=
  h.invariant (I := Kept rank) kept_new fun _ _ _ hI hruns hs => kept_step hcodes hI hruns hs

end Steps

/-! ## Nobody waits for ever -/

section Progress

variable [DecidableEq τ] [DecidableEq κ]

/-- The task can run on, or get the guard it queues for. -/
def CanMove (s : LockTasks τ κ) (t : τ) : Prop :=
  (∃ s', s.run t = some s') ∨ ∃ l lock, (s.lock l).advance = some (t, lock)

theorem canMove_of_free {t : τ} (htodo : s.todo t ≠ [])
    (hfree : ∀ l, ¬ (s.lock l).Queues t) : s.CanMove t := by
  refine .inl ?_
  unfold run
  split
  · rename_i hnil
    exact absurd hnil htodo
  · rename_i l mode p _
    rw [if_neg (hfree l)]
    split
    · exact ⟨_, rfl⟩
    · exact ⟨_, rfl⟩
  · exact ⟨_, rfl⟩
  · exact ⟨_, rfl⟩

omit [DecidableEq τ] [DecidableEq κ] in
/-- The first in a queue can get its guard, or somebody holds the lock. -/
theorem advance_or_held {lock : RwLock τ} {t : τ} {mode : LockMode} {rest : List (τ × LockMode)}
    (hqueue : lock.queue = (t, mode) :: rest) :
    (∃ lock', lock.advance = some (t, lock')) ∨ ∃ u, lock.Holds u := by
  cases hguards : lock.guards with
  | nil =>
    refine .inl ⟨{ guards := [(t, mode)], queue := rest }, ?_⟩
    have hadmits : lock.admits mode = true := by
      cases mode <;> simp [RwLock.admits, hguards]
    simp [RwLock.advance, hqueue, hadmits, hguards]
  | cons g gs => exact .inr ⟨g.1, by simp [RwLock.Holds, hguards]⟩

variable [WellFoundedLT ι]

theorem Kept.queue_leads (h : s.Kept rank) {t : τ} {l : κ} (hq : (s.lock l).Queues t) :
    ∃ u, Relation.ReflTransGen s.waits.For t u ∧ s.CanMove u := by
  -- by induction on the rank of the lock
  generalize hi : rank l = i
  induction i using WellFoundedLT.induction generalizing t l with
  | ind i ih =>
  cases hqueue : (s.lock l).queue with
  | nil => simp [RwLock.Queues, hqueue] at hq
  | cons head rest =>
    obtain ⟨first, mode⟩ := head
    have hfirst : (s.lock l).Queues first := by simp [RwLock.Queues, hqueue]
    have hto : Relation.ReflTransGen s.waits.For t first := by
      by_cases heq : t = first
      · rw [heq]
      · refine .single (.inr ⟨l, hq, .inr ?_⟩)
        simp [RwLock.Ahead, waits, hqueue, Ne.symm heq]
    rcases advance_or_held hqueue with ⟨lock, hadvance⟩ | ⟨u, hu⟩
    · exact ⟨first, hto, .inr ⟨l, lock, hadvance⟩⟩
    · have hfor : s.waits.For first u := .inr ⟨l, hfirst, .inl hu⟩
      by_cases hfree : ∀ l', ¬ (s.lock l').Queues u
      · exact ⟨u, hto.tail hfor, canMove_of_free (h.todo_ne_nil hu) hfree⟩
      · push Not at hfree
        obtain ⟨l', hq'⟩ := hfree
        obtain ⟨v, hlead, hmove⟩ := ih (rank l') (hi ▸ h.rank_lt hu hq') hq' rfl
        exact ⟨v, (hto.tail hfor).trans hlead, hmove⟩

/-- Every task at work waits in the end for one that can move. -/
theorem Kept.leads_to_move (h : s.Kept rank) {t : τ} (htodo : s.todo t ≠ []) :
    ∃ u, Relation.ReflTransGen s.waits.For t u ∧ s.CanMove u := by
  by_cases hfree : ∀ l, ¬ (s.lock l).Queues t
  · exact ⟨t, .refl, canMove_of_free htodo hfree⟩
  · push Not at hfree
    obtain ⟨l, hq⟩ := hfree
    exact h.queue_leads hq

omit [DecidableEq κ] in
/-- No tasks wait for each other in a circle. -/
theorem Kept.not_deadlock (h : s.Kept rank) : ¬ s.waits.Deadlock := by
  rw [h.tidy.deadlock_iff]
  rintro ⟨S, ⟨t, ht⟩, hS⟩
  have hwaits : ∀ t ∈ S, ∃ l, (s.lock l).Queues t ∧ ∃ u ∈ S, (s.lock l).Holds u := by
    intro t ht
    obtain ⟨u, hu, ha | ⟨l, hq, hl⟩⟩ := hS t ht
    · cases ha
    · exact ⟨l, hq, u, hu, hl⟩
  -- the lock of lowest rank that one of them queues for
  obtain ⟨i, ⟨t, ht, l, hq, rfl⟩, hmin⟩ := (wellFounded_lt (α := ι)).has_min
    {i | ∃ t ∈ S, ∃ l, (s.lock l).Queues t ∧ rank l = i}
    (by obtain ⟨l, hq, -⟩ := hwaits t ht
        exact ⟨rank l, t, ht, l, hq, rfl⟩)
  obtain ⟨l', hq', u, hu, hl⟩ := hwaits t ht
  cases h.tidy.once hq hq'
  obtain ⟨below, hbelow, -⟩ := hwaits u hu
  exact hmin (rank below) ⟨u, hu, below, hbelow, rfl⟩ (h.rank_lt hl hbelow)

end Progress

/-! ## Tasks come to an end -/

section Work

variable [DecidableEq τ] [DecidableEq κ]

/-- A task is in the queue of the lock it takes next. -/
def isQueued (s : LockTasks τ κ) (t : τ) : Bool :=
  match s.todo t with
  | .take l _ :: _ => decide ((s.lock l).Queues t)
  | _ => false

/-- An operation counts for two steps, as it may have to wait in a queue. -/
def work (s : LockTasks τ κ) (t : τ) : Nat :=
  2 * (s.todo t).length - if s.isQueued t then 1 else 0

omit [DecidableEq κ] in
theorem isQueued_congr {t : τ} (htodo : s'.todo t = s.todo t)
    (hqueues : ∀ l, (s'.lock l).Queues t ↔ (s.lock l).Queues t) :
    s'.isQueued t = s.isQueued t := by
  unfold isQueued
  rw [htodo]
  split
  · rw [decide_eq_decide]
    exact hqueues _
  · rfl

omit [DecidableEq κ] in
theorem work_congr {t : τ} (htodo : s'.todo t = s.todo t)
    (hqueues : ∀ l, (s'.lock l).Queues t ↔ (s.lock l).Queues t) : s'.work t = s.work t := by
  rw [work, work, htodo, isQueued_congr htodo hqueues]

omit [DecidableEq κ] in
/-- A task that has moved on has less to do. -/
theorem work_lt_of_moveOn {t : τ} (hne : s.todo t ≠ []) (htodo : s'.todo t = (s.todo t).tail) :
    s'.work t < s.work t := by
  have hpos : 0 < (s.todo t).length := List.length_pos_iff.mpr hne
  have hlength : (s'.todo t).length = (s.todo t).length - 1 := by rw [htodo, List.length_tail]
  unfold work
  rw [hlength]
  split <;> split <;> omega

/-- A step that is no arrival is one of a task at work, which has less to do
then; nothing changes for the others. -/
structure Works (s s' : LockTasks τ κ) (t : τ) : Prop where
  busy : s.todo t ≠ []
  less : s'.work t < s.work t
  others : ∀ u, u ≠ t → s'.todo u = s.todo u ∧ s'.work u = s.work u

theorem works_moved {t : τ} (hne : s.todo t ≠ []) {l : κ} {lock : RwLock τ}
    (hqueues : ∀ u, u ≠ t → (lock.Queues u ↔ (s.lock l).Queues u)) :
    s.Works ((s.withLock l lock).moveOn t) t where
  busy := hne
  less := work_lt_of_moveOn hne (by simp [moveOn_todo])
  others u hu := by
    have htodo : ((s.withLock l lock).moveOn t).todo u = s.todo u := by simp [moveOn_todo, hu]
    refine ⟨htodo, work_congr htodo fun l' => ?_⟩
    rw [moveOn_lock, withLock_lock]
    split
    · rename_i hl
      rw [hl]
      exact hqueues u hu
    · rfl

theorem works_run {t : τ} (hs : s.run t = some s') : s.Works s' t := by
  rcases run_cases hs with ⟨l, mode, p, htodo, hfree, ⟨hgrants, rfl⟩ | rfl⟩ |
    ⟨l, p, htodo, rfl⟩ | ⟨p, htodo, rfl⟩
  · exact works_moved (by simp [htodo]) fun u _ => RwLock.queues_hold
  · refine ⟨by simp [htodo], ?_, fun u hu => ⟨rfl, work_congr rfl fun l' => ?_⟩⟩
    · have hbefore : s.isQueued t = false := by simp [isQueued, htodo, hfree]
      have hafter : (s.withLock l ((s.lock l).enqueue t mode)).isQueued t = true := by
        simp [isQueued, htodo, withLock_lock]
      simp only [work, hbefore, hafter, withLock_todo, htodo, List.length_cons, if_true,
        Bool.false_eq_true, if_false]
      omega
    · rw [withLock_lock]
      split
      · rename_i hl
        rw [hl, RwLock.queues_enqueue]
        exact or_iff_left hu
      · rfl
  · exact works_moved (by simp [htodo]) fun u hu => by simp [hu]
  · refine ⟨by simp [htodo], work_lt_of_moveOn (by simp [htodo]) (by simp [moveOn_todo]),
      fun u hu => ?_⟩
    have hsame : (s.moveOn t).todo u = s.todo u := by simp [moveOn_todo, hu]
    exact ⟨hsame, work_congr hsame fun l => Iff.rfl⟩

theorem Kept.works_grant (h : s.Kept rank) {l : κ} (hs : s.grant l = some s') :
    ∃ t, s.Works s' t := by
  obtain ⟨⟨t, lock⟩, hadvance, rfl⟩ := Option.map_eq_some_iff.mp hs
  obtain ⟨hq, -, hqueues, -⟩ := RwLock.advance_spec hadvance
  obtain ⟨mode, p, htodo⟩ := h.place t l hq
  refine ⟨t, works_moved (by simp [htodo]) fun u hu => ?_⟩
  rw [hqueues u]
  exact (or_iff_right hu).symm

/-- Tasks at work that no new ones join come to an end. -/
theorem exec_length_le {codes : Code κ → Prop} (hcodes : ∀ c, codes c → c.Ordered rank [])
    (S : Finset τ) {ls : List (TaskStep τ κ)} (hls : ∀ l ∈ ls, ∀ t path, l ≠ .arrive t path)
    (h : s.Kept rank) (hS : ∀ t, s.todo t ≠ [] → t ∈ S)
    (hs : (lockMachine τ κ).exec s ls = some s') :
    ls.length ≤ ∑ t ∈ S, s.work t := by
  induction ls generalizing s with
  | nil => exact Nat.zero_le _
  | cons l ls ih =>
    obtain ⟨s₁, hstep, hrest⟩ := Option.bind_eq_some_iff.mp hs
    have hl : ∀ t path, l ≠ .arrive t path := hls l List.mem_cons_self
    have hworks : ∃ t, s.Works s₁ t := by
      cases l with
      | arrive t path => exact absurd rfl (hl t path)
      | run t => exact ⟨t, works_run hstep⟩
      | grant l => exact h.works_grant hstep
    obtain ⟨t, hbusy, hless, hothers⟩ := hworks
    have hruns : l.Runs codes := by
      cases l with
      | arrive t path => exact absurd rfl (hl t path)
      | run t => trivial
      | grant l => trivial
    have hS' : ∀ u, s₁.todo u ≠ [] → u ∈ S := by
      intro u hu
      by_cases heq : u = t
      · rw [heq]
        exact hS t hbusy
      · rw [(hothers u heq).1] at hu
        exact hS u hu
    have hlength := ih (fun l' hl' => hls l' (List.mem_cons_of_mem l hl'))
      (kept_step hcodes h hruns hstep) hS' hrest
    have hsum : ∑ u ∈ S, s₁.work u < ∑ u ∈ S, s.work u := by
      refine Finset.sum_lt_sum (fun u _ => ?_) ⟨t, hS t hbusy, hless⟩
      by_cases heq : u = t
      · rw [heq]
        exact hless.le
      · exact (hothers u heq).2.le
    simp only [List.length_cons]
    omega

/-- Only finitely many tasks are at work. -/
theorem busy_finite {ok : LockTasks τ κ → TaskStep τ κ → Prop} {tr : List (TaskStep τ κ)}
    (h : (lockMachine τ κ).RunWhen ok tr s) : ∃ S : Finset τ, ∀ t, s.todo t ≠ [] → t ∈ S := by
  refine h.invariant (I := fun s => ∃ S : Finset τ, ∀ t, s.todo t ≠ [] → t ∈ S)
    ⟨∅, fun t ht => absurd rfl ht⟩ ?_
  rintro s l s' ⟨S, hS⟩ - hs
  cases l with
  | arrive t path =>
    simp only [lockMachine, step] at hs
    split at hs
    · cases hs
      refine ⟨insert t S, fun u hu => Finset.mem_insert.mpr ?_⟩
      rw [begin_todo] at hu
      split at hu
      · rename_i heq
        exact .inl heq
      · exact .inr (hS u hu)
    · cases hs
  | run t =>
    have hworks := works_run hs
    refine ⟨S, fun u hu => ?_⟩
    by_cases heq : u = t
    · rw [heq]
      exact hS t hworks.busy
    · exact hS u (by rwa [← (hworks.others u heq).1])
  | grant l =>
    obtain ⟨⟨t, lock⟩, -, rfl⟩ := Option.map_eq_some_iff.mp hs
    refine ⟨S, fun u hu => hS u fun hnil => hu ?_⟩
    rw [moveOn_todo]
    split
    · rename_i heq
      rw [withLock_todo, ← heq, hnil, List.tail_nil]
    · exact hnil

variable [WellFoundedLT ι]

/-- When no task can make a step, all are at their end. -/
theorem Kept.all_done (h : s.Kept rank)
    (hstop : ∀ l, (∀ t path, l ≠ .arrive t path) → s.step l = none) (t : τ) : s.todo t = [] := by
  by_contra htodo
  obtain ⟨u, -, ⟨s', hrun⟩ | ⟨l, lock, hadvance⟩⟩ := h.leads_to_move htodo
  · have hnone : s.run u = none := hstop (.run u) (by intros; nofun)
    rw [hnone] at hrun
    cases hrun
  · have hnone : s.grant l = none := hstop (.grant l) (by intros; nofun)
    simp [grant, hadvance] at hnone

end Work

end LockTasks

end Lib
