/-
KasmCloud.Lib.RwLock — fair read-write locks, and tasks that wait for each
other.

* `RwLock τ` is a lock with the guards that are out and the queue of those
  that wait for one, first come first served: a queued writer keeps later
  readers waiting.
* `Waits τ κ` is a family of such locks together with the task whose reply
  each task awaits. `Waits.For` says who waits for whom, places in a queue
  included, and `Waits.Deadlock` that a set of tasks is stuck.
* `Waits.Tidy.deadlock_iff` — for a deadlock the queues do not matter, only
  who holds the locks (`Waits.Direct`).
* `Knot.calm`, `knot_block_iff` — what a change of the waiting relation does
  to a deadlock: new waits for tasks that can run make none; a task that
  starts to wait closes one exactly if what it waits for leads back to it.
* `Waits.leads_cases` — how a call leads somewhere: inside it, or through a
  lock that a task inside it is queued for.
-/
import Mathlib.Logic.Relation
import Mathlib.Data.Set.Basic
import Mathlib.Order.WellFounded

namespace Lib

/-! ## Locks -/

inductive LockMode where
  | read
  | write
  deriving DecidableEq, Repr

structure RwLock (τ : Type) where
  guards : List (τ × LockMode)
  /-- The next to be served first. -/
  queue : List (τ × LockMode)

namespace RwLock

variable {τ : Type}

def unlocked : RwLock τ where
  guards := []
  queue := []

/-- Readers share the lock, a writer has it alone. -/
def admits (lock : RwLock τ) : LockMode → Bool
  | .read => lock.guards.all fun g => g.2 == .read
  | .write => lock.guards.isEmpty

/-- A request is granted at once. -/
def grants (lock : RwLock τ) (mode : LockMode) : Bool :=
  lock.queue.isEmpty && lock.admits mode

def hold (lock : RwLock τ) (t : τ) (mode : LockMode) : RwLock τ :=
  { lock with guards := (t, mode) :: lock.guards }

def enqueue (lock : RwLock τ) (t : τ) (mode : LockMode) : RwLock τ :=
  { lock with queue := lock.queue ++ [(t, mode)] }

/-- The head of the queue gets its guard, if the lock admits it. -/
def advance (lock : RwLock τ) : Option (τ × RwLock τ) :=
  match lock.queue with
  | [] => none
  | (t, mode) :: rest =>
    if lock.admits mode then some (t, { guards := (t, mode) :: lock.guards, queue := rest })
    else none

/-- The guards of a task go, and its place in the queue. -/
def drop [DecidableEq τ] (lock : RwLock τ) (t : τ) : RwLock τ where
  guards := lock.guards.filter fun g => g.1 ≠ t
  queue := lock.queue.filter fun g => g.1 ≠ t

def Holds (lock : RwLock τ) (t : τ) : Prop := t ∈ lock.guards.map Prod.fst

def Queues (lock : RwLock τ) (t : τ) : Prop := t ∈ lock.queue.map Prod.fst

/-- The place of `u` in the queue is before that of `t`. -/
def Ahead [DecidableEq τ] (lock : RwLock τ) (u t : τ) : Prop :=
  (lock.queue.map Prod.fst).idxOf u < (lock.queue.map Prod.fst).idxOf t

@[simp] theorem not_holds_unlocked (t : τ) : ¬ (unlocked : RwLock τ).Holds t := by
  simp [Holds, unlocked]

@[simp] theorem not_queues_unlocked (t : τ) : ¬ (unlocked : RwLock τ).Queues t := by
  simp [Queues, unlocked]

@[simp] theorem holds_hold {lock : RwLock τ} {t u : τ} {mode : LockMode} :
    (lock.hold t mode).Holds u ↔ u = t ∨ lock.Holds u := by
  simp [Holds, hold]

@[simp] theorem queues_hold {lock : RwLock τ} {t u : τ} {mode : LockMode} :
    (lock.hold t mode).Queues u ↔ lock.Queues u := Iff.rfl

@[simp] theorem holds_enqueue {lock : RwLock τ} {t u : τ} {mode : LockMode} :
    (lock.enqueue t mode).Holds u ↔ lock.Holds u := Iff.rfl

@[simp] theorem queues_enqueue {lock : RwLock τ} {t u : τ} {mode : LockMode} :
    (lock.enqueue t mode).Queues u ↔ lock.Queues u ∨ u = t := by
  simp [Queues, enqueue]

@[simp] theorem holds_drop [DecidableEq τ] {lock : RwLock τ} {t u : τ} :
    (lock.drop t).Holds u ↔ lock.Holds u ∧ u ≠ t := by
  simp [Holds, drop]

@[simp] theorem queues_drop [DecidableEq τ] {lock : RwLock τ} {t u : τ} :
    (lock.drop t).Queues u ↔ lock.Queues u ∧ u ≠ t := by
  simp [Queues, drop]

/-- Nobody has two places in the queue. -/
def QueueNodup (lock : RwLock τ) : Prop := (lock.queue.map Prod.fst).Nodup

theorem QueueNodup.enqueue {lock : RwLock τ} (h : lock.QueueNodup) {t : τ} (ht : ¬ lock.Queues t)
    (mode : LockMode) : (lock.enqueue t mode).QueueNodup := by
  have happ : (lock.queue.map Prod.fst ++ [t]).Nodup := by
    refine List.nodup_append.mpr ⟨h, by simp, ?_⟩
    intro u hu v hv huv
    cases List.mem_singleton.mp hv
    exact ht (huv ▸ hu)
  simpa [QueueNodup, RwLock.enqueue] using happ

theorem QueueNodup.drop [DecidableEq τ] {lock : RwLock τ} (h : lock.QueueNodup) (t : τ) :
    (lock.drop t).QueueNodup :=
  h.sublist (List.filter_sublist.map Prod.fst)

/-- Nobody waits, and the guards that are out are for reading. -/
structure Reading (lock : RwLock τ) : Prop where
  queue : lock.queue = []
  guards : ∀ g ∈ lock.guards, g.2 = .read

theorem Reading.not_queues {lock : RwLock τ} (h : lock.Reading) (t : τ) : ¬ lock.Queues t := by
  simp [Queues, h.queue]

theorem Reading.grants {lock : RwLock τ} (h : lock.Reading) : lock.grants .read = true := by
  simpa [RwLock.grants, admits, h.queue] using fun t mode hg => h.guards (t, mode) hg

theorem Reading.hold {lock : RwLock τ} (h : lock.Reading) (t : τ) :
    (lock.hold t .read).Reading where
  queue := h.queue
  guards := by
    intro g hg
    rcases List.mem_cons.mp hg with rfl | hg
    · rfl
    · exact h.guards g hg

theorem Reading.drop [DecidableEq τ] {lock : RwLock τ} (h : lock.Reading) (t : τ) :
    (lock.drop t).Reading where
  queue := by simp [RwLock.drop, h.queue]
  guards g hg := h.guards g (List.mem_filter.mp hg).1

/-- What `advance` does: the head of the queue becomes a holder. -/
theorem advance_spec {lock lock' : RwLock τ} {t : τ} (h : lock.advance = some (t, lock')) :
    lock.Queues t ∧ (∀ u, lock'.Holds u ↔ u = t ∨ lock.Holds u) ∧
      (∀ u, lock.Queues u ↔ u = t ∨ lock'.Queues u) ∧
      (lock.QueueNodup → lock'.QueueNodup ∧ ¬ lock'.Queues t) := by
  unfold advance at h
  split at h
  · cases h
  · rename_i t' mode rest hqueue
    split at h
    · cases h
      refine ⟨by simp [Queues, hqueue], by simp [Holds], by simp [Queues, hqueue], ?_⟩
      intro hnodup
      rw [QueueNodup, hqueue] at hnodup
      have hcons := List.nodup_cons.mp hnodup
      exact ⟨hcons.2, hcons.1⟩
    · cases h

end RwLock

/-! ## Knots -/

section Knots

variable {τ : Type} {V V' : τ → τ → Prop}

/-- Some tasks each have a next one among them. -/
def Knot (V : τ → τ → Prop) : Prop :=
  ∃ S : Set τ, S.Nonempty ∧ ∀ t ∈ S, ∃ u ∈ S, V t u

/-- A new step that leads to a task without a next one ties no knot. -/
theorem Knot.calm (hnew : ∀ t u, V' t u → V t u ∨ ∀ v, ¬ V' u v) (h : Knot V') : Knot V := by
  obtain ⟨S, hne, hS⟩ := h
  refine ⟨S, hne, fun t ht => ?_⟩
  obtain ⟨u, hu, htu⟩ := hS t ht
  refine ⟨u, hu, (hnew t u htu).resolve_right fun hend => ?_⟩
  obtain ⟨v, _, huv⟩ := hS u hu
  exact hend v huv

/-- A task that gets its first next ones ties a knot exactly if one of them
leads back to it. -/
theorem knot_block_iff {t : τ} {U : τ → Prop} (hfree : ∀ u, ¬ V t u)
    (hnew : ∀ x u, V' x u ↔ V x u ∨ (x = t ∧ U u)) :
    Knot V' ↔ Knot V ∨ ∃ u, U u ∧ Relation.ReflTransGen V u t := by
  constructor
  · rintro ⟨S, hne, hS⟩
    by_contra hno
    push Not at hno
    obtain ⟨hknot, hback⟩ := hno
    by_cases ht : t ∈ S
    · -- the members of `S` that do not lead to `t` are a knot without it
      obtain ⟨u, hu, htu⟩ := hS t ht
      have hUu : U u := by
        rcases (hnew t u).mp htu with h | ⟨-, h⟩
        · exact absurd h (hfree u)
        · exact h
      refine hknot ⟨{x ∈ S | ¬ Relation.ReflTransGen V x t}, ⟨u, hu, hback u hUu⟩, ?_⟩
      intro x hx
      obtain ⟨y, hy, hxy⟩ := hS x hx.1
      rcases (hnew x y).mp hxy with h | ⟨rfl, -⟩
      · exact ⟨y, ⟨hy, fun hyt => hx.2 (.head h hyt)⟩, h⟩
      · exact absurd .refl hx.2
    · refine hknot ⟨S, hne, fun x hx => ?_⟩
      obtain ⟨y, hy, hxy⟩ := hS x hx
      rcases (hnew x y).mp hxy with h | ⟨rfl, -⟩
      · exact ⟨y, hy, h⟩
      · exact absurd hx ht
  · rintro (⟨S, hne, hS⟩ | ⟨u, hUu, hut⟩)
    · refine ⟨S, hne, fun x hx => ?_⟩
      obtain ⟨y, hy, hxy⟩ := hS x hx
      exact ⟨y, hy, (hnew x y).mpr (.inl hxy)⟩
    · -- everything that leads to `t` is stuck now
      refine ⟨{x | Relation.ReflTransGen V x t}, ⟨t, .refl⟩, fun x hx => ?_⟩
      rcases hx.cases_head with rfl | ⟨y, hxy, hyt⟩
      · exact ⟨u, hut, (hnew x u).mpr (.inr ⟨rfl, hUu⟩)⟩
      · exact ⟨y, hyt, (hnew x y).mpr (.inl hxy)⟩

end Knots

/-! ## Who waits for whom -/

/-- The locks of a system, and the task whose reply a task awaits. -/
structure Waits (τ κ : Type) where
  lock : κ → RwLock τ
  awaits : τ → Option τ

namespace Waits

variable {τ κ : Type} (w : Waits τ κ)

/-- `t` waits for the reply of `u`, or for a lock that `u` holds or is
queued for ahead of it. -/
def For [DecidableEq τ] (t u : τ) : Prop :=
  w.awaits t = some u ∨
    ∃ l, (w.lock l).Queues t ∧ ((w.lock l).Holds u ∨ (w.lock l).Ahead u t)

/-- Some tasks each wait for another one of them. -/
def Deadlock [DecidableEq τ] : Prop :=
  ∃ S : Set τ, S.Nonempty ∧ ∀ t ∈ S, ∃ u ∈ S, u ≠ t ∧ w.For t u

/-- `t` waits for the reply of `u`, or for a lock that `u` holds. -/
def Direct (t u : τ) : Prop :=
  w.awaits t = some u ∨ ∃ l, (w.lock l).Queues t ∧ (w.lock l).Holds u

/-- A task waits in one place, and not for itself. -/
structure Tidy : Prop where
  lone : ∀ {t l}, (w.lock l).Queues t → w.awaits t = none
  once : ∀ {t l l'}, (w.lock l).Queues t → (w.lock l').Queues t → l = l'
  apart : ∀ {t l}, (w.lock l).Queues t → ¬ (w.lock l).Holds t
  other : ∀ t, w.awaits t ≠ some t

variable {w}

theorem Tidy.direct_ne (h : w.Tidy) {t u : τ} (htu : w.Direct t u) : u ≠ t := by
  rintro rfl
  rcases htu with ha | ⟨l, hq, hh⟩
  · exact h.other u ha
  · exact h.apart hq hh

/-- In a set that is stuck, the member that is first in a queue waits for a
holder of the lock. -/
theorem Tidy.holder_of_stuck [DecidableEq τ] (h : w.Tidy) {S : Set τ}
    (hS : ∀ t ∈ S, ∃ u ∈ S, u ≠ t ∧ w.For t u) {t : τ} (ht : t ∈ S) {l : κ}
    (hq : (w.lock l).Queues t) : ∃ u ∈ S, (w.lock l).Holds u := by
  let place : τ → Nat := fun x => ((w.lock l).queue.map Prod.fst).idxOf x
  obtain ⟨first, ⟨hfirst, hfq⟩, hmin⟩ := (InvImage.wf place Nat.lt_wfRel.wf).has_min
    {x | x ∈ S ∧ (w.lock l).Queues x} ⟨t, ht, hq⟩
  obtain ⟨u, hu, -, hfor⟩ := hS first hfirst
  rcases hfor with ha | ⟨l', hq', hh | hahead⟩
  · rw [h.lone hfq] at ha
    cases ha
  · rw [h.once hfq hq']
    exact ⟨u, hu, hh⟩
  · cases h.once hfq hq'
    have huq : (w.lock l).Queues u := by
      have hlt : place u < ((w.lock l).queue.map Prod.fst).length :=
        Nat.lt_of_lt_of_le hahead List.idxOf_le_length
      exact List.idxOf_lt_length_iff.mp hlt
    exact absurd hahead (hmin u ⟨hu, huq⟩)

/-- The queues may be left out of a deadlock. -/
theorem Tidy.deadlock_iff [DecidableEq τ] (h : w.Tidy) : w.Deadlock ↔ Knot w.Direct := by
  constructor
  · rintro ⟨S, hne, hS⟩
    refine ⟨S, hne, fun t ht => ?_⟩
    obtain ⟨u, hu, -, hfor⟩ := hS t ht
    rcases hfor with ha | ⟨l, hq, -⟩
    · exact ⟨u, hu, .inl ha⟩
    · obtain ⟨v, hv, hh⟩ := h.holder_of_stuck hS ht hq
      exact ⟨v, hv, .inr ⟨l, hq, hh⟩⟩
  · rintro ⟨S, hne, hS⟩
    refine ⟨S, hne, fun t ht => ?_⟩
    obtain ⟨u, hu, htu⟩ := hS t ht
    refine ⟨u, hu, h.direct_ne htu, ?_⟩
    rcases htu with ha | ⟨l, hq, hh⟩
    · exact .inl ha
    · exact .inr ⟨l, hq, .inl hh⟩

/-! ## Calls -/

variable (w) in
/-- `x` runs inside the call of `h`: it is `h`, or `h` waits for its reply,
or for the reply of one that does, and so on. -/
def Inside : τ → τ → Prop := Relation.ReflTransGen fun t u => w.awaits t = some u

theorem Inside.direct {h x : τ} (hin : w.Inside h x) : Relation.ReflTransGen w.Direct h x :=
  Relation.ReflTransGen.mono (fun _ _ ha => Or.inl ha) h x hin

/-- A task leads to `t` if `t` runs inside its call, or if some task inside the
call is queued for a lock with a holder that leads to `t`. -/
theorem leads_cases {h t : τ} (hlead : Relation.ReflTransGen w.Direct h t) :
    w.Inside h t ∨ ∃ x l holder, w.Inside h x ∧ (w.lock l).Queues x ∧ (w.lock l).Holds holder ∧
      Relation.ReflTransGen w.Direct holder t := by
  induction hlead using Relation.ReflTransGen.head_induction_on with
  | refl => exact .inl .refl
  | @head x v hstep hrest ih =>
    rcases hstep with ha | ⟨l, hq, hh⟩
    · rcases ih with hin | ⟨y, l, holder, hin, hheld⟩
      · exact .inl (.head ha hin)
      · exact .inr ⟨y, l, holder, .head ha hin, hheld⟩
    · exact .inr ⟨x, l, v, .refl, hq, hh, hrest⟩

end Waits

end Lib
