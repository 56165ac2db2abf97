/-
KasmCloud.Lib.Prog — programs that ask their surroundings and may fail.

An `Interface` lists the operations a program can ask for and the reply
each one has; any operation may fail instead. `Prog F α` is a program over
the interface: it returns, fails with a message, or asks and goes on with
the answer. What the surroundings answer is not part of the program, so
`Exec p t r` holds of every trace `t` that some surroundings can produce.

The rules:

* `wp` — the weakest precondition of a property of trace and result, over
  all answers; `exec_wp` and `wp_of_exec` say it is exactly that;
* `wp_bind`, `wp_lift` — how it goes through a program, and `forall_answer` —
  through an answer;
* `wp_mono` — the rule of consequence;
* `FailsOnBad` — a program that fails exactly when it gets a bad answer;
* `Forward` — a program whose operations have higher and higher ranks;
* `settle`, `inl` — a program whose failure is a value, and one over two
  interfaces, with what their executions are;
* `follow` — the one execution with given answers;
* `runIn` — the one execution in surroundings with a state; `runIn_bind_ok` and
  `runIn_attempt_ok` take it through a program.
-/
import Mathlib.Data.List.Basic
import Mathlib.Tactic.Common

namespace Lib

/-- Operations and the type of the reply each one has. -/
structure Interface where
  Op : Type
  Reply : Op → Type

/-- The operations of both interfaces. -/
abbrev Interface.sum (F G : Interface) : Interface where
  Op := F.Op ⊕ G.Op
  Reply := Sum.elim F.Reply G.Reply

/-- A program over an interface. -/
inductive Prog (F : Interface) (α : Type) where
  | done (a : α)
  | fail (message : String)
  | ask (op : F.Op) (next : Except String (F.Reply op) → Prog F α)

namespace Prog

variable {F : Interface} {α β : Type}

/-- An operation with the answer it got. -/
abbrev Event (F : Interface) := (op : F.Op) × Except String (F.Reply op)

/-- Run `f` on the result; a failure stays a failure. -/
def bind : Prog F α → (α → Prog F β) → Prog F β
  | .done a, f => f a
  | .fail message, _ => .fail message
  | .ask op next, f => .ask op fun answer => (next answer).bind f

instance : Monad (Prog F) where
  pure := .done
  bind := bind

instance : LawfulMonad (Prog F) := by
  refine LawfulMonad.mk' (Prog F) ?id_map (fun _ _ => rfl) ?bind_assoc
  case id_map =>
    intro _ p
    induction p with
    | done a => rfl
    | fail message => rfl
    | ask op next ih => exact congrArg (Prog.ask op) (funext ih)
  case bind_assoc =>
    intro _ _ _ p f g
    induction p with
    | done a => rfl
    | fail message => rfl
    | ask op next ih => exact congrArg (Prog.ask op) (funext ih)

@[simp] theorem fail_bind (message : String) (f : α → Prog F β) :
    (fail message : Prog F α) >>= f = fail message := rfl

/-- Ask for an operation; if it fails, fail with `context` instead. -/
def attempt (op : F.Op) (context : String) : Prog F (F.Reply op) :=
  .ask op fun answer =>
    match answer with
    | .ok reply => .done reply
    | .error _ => .fail context

/-- Ask for an operation; if it fails, fail with its message. -/
def perform (op : F.Op) : Prog F (F.Reply op) :=
  .ask op fun answer =>
    match answer with
    | .ok reply => .done reply
    | .error e => .fail e

/-- A computation that asks nothing. -/
def lift : Except String α → Prog F α
  | .ok a => .done a
  | .error e => .fail e

/-- Some surroundings lead to the trace and the result. -/
inductive Exec : Prog F α → List (Event F) → Except String α → Prop where
  | done (a : α) : Exec (.done a) [] (.ok a)
  | fail (message : String) : Exec (.fail message) [] (.error message)
  | ask {op : F.Op} {next : Except String (F.Reply op) → Prog F α}
      {answer : Except String (F.Reply op)} {t : List (Event F)} {r : Except String α} :
      Exec (next answer) t r → Exec (.ask op next) (⟨op, answer⟩ :: t) r

/-- The weakest precondition of `Q`, with `tr` the trace so far. -/
def wp : Prog F α → List (Event F) → (List (Event F) → Except String α → Prop) → Prop
  | .done a, tr, Q => Q tr (.ok a)
  | .fail message, tr, Q => Q tr (.error message)
  | .ask op next, tr, Q => ∀ answer, (next answer).wp (tr ++ [⟨op, answer⟩]) Q

variable {p : Prog F α} {tr : List (Event F)} {Q Q' : List (Event F) → Except String α → Prop}

/-- What holds by `wp` holds of every execution. -/
theorem exec_wp {t : List (Event F)} {r : Except String α} (h : p.Exec t r) (hwp : p.wp tr Q) :
    Q (tr ++ t) r := by
  induction h generalizing tr with
  | done a => rw [List.append_nil]; exact hwp
  | fail message => rw [List.append_nil]; exact hwp
  | ask _ ih => simpa using ih (hwp _)

/-- What holds of every execution holds by `wp`. -/
theorem wp_of_exec (h : ∀ t r, p.Exec t r → Q (tr ++ t) r) : p.wp tr Q := by
  induction p generalizing tr with
  | done a =>
    have hend := h [] (.ok a) (.done a)
    rwa [List.append_nil] at hend
  | fail message =>
    have hend := h [] (.error message) (.fail message)
    rwa [List.append_nil] at hend
  | ask op next ih =>
    intro answer
    refine ih answer fun t r ht => ?_
    have hwhole := h (⟨op, answer⟩ :: t) r (.ask ht)
    simpa using hwhole

/-- The rule of consequence. -/
theorem wp_mono (himp : ∀ t r, Q t r → Q' t r) (h : p.wp tr Q) : p.wp tr Q' :=
  wp_of_exec fun _ _ ht => himp _ _ (exec_wp ht h)

/-- What a program does after a trace is what it does from the start, after
that trace. -/
theorem wp_shift (h : p.wp [] fun t r => Q (tr ++ t) r) : p.wp tr Q :=
  wp_of_exec fun _ _ ht => by simpa using exec_wp ht h

@[simp] theorem wp_pure (a : α) : (pure a : Prog F α).wp tr Q ↔ Q tr (.ok a) := Iff.rfl

@[simp] theorem wp_fail (message : String) :
    (fail message : Prog F α).wp tr Q ↔ Q tr (.error message) := Iff.rfl

/-- The rule of sequence. -/
@[simp] theorem wp_bind (p : Prog F α) (f : α → Prog F β) (tr : List (Event F))
    (Q : List (Event F) → Except String β → Prop) :
    (p >>= f).wp tr Q ↔ p.wp tr fun tr r =>
      match r with
      | .ok a => (f a).wp tr Q
      | .error message => Q tr (.error message) := by
  induction p generalizing tr with
  | done a => exact Iff.rfl
  | fail message => exact Iff.rfl
  | ask op next ih => exact forall_congr' fun answer => ih answer _

/-- The two kinds of answer. -/
theorem forall_answer {P : Except String α → Prop} :
    (∀ answer, P answer) ↔ (∀ reply, P (.ok reply)) ∧ ∀ e, P (.error e) := by
  constructor
  · exact fun h => ⟨fun reply => h (.ok reply), fun e => h (.error e)⟩
  · rintro ⟨hok, herror⟩ (e | reply)
    · exact herror e
    · exact hok reply

@[simp] theorem wp_lift (x : Except String α) : (lift x : Prog F α).wp tr Q ↔ Q tr x := by
  cases x <;> exact Iff.rfl

theorem wp_attempt (op : F.Op) (context : String) (tr : List (Event F))
    (Q : List (Event F) → Except String (F.Reply op) → Prop) :
    (attempt op context).wp tr Q ↔
      (∀ reply, Q (tr ++ [⟨op, .ok reply⟩]) (.ok reply)) ∧
        ∀ e, Q (tr ++ [⟨op, .error e⟩]) (.error context) :=
  forall_answer

/-- The execution in which every operation gets its given answer. -/
def follow (answers : (op : F.Op) → Except String (F.Reply op)) :
    Prog F α → List (Event F) × Except String α
  | .done a => ([], .ok a)
  | .fail message => ([], .error message)
  | .ask op next =>
    let rest := (next (answers op)).follow answers
    (⟨op, answers op⟩ :: rest.1, rest.2)

theorem exec_follow (answers : (op : F.Op) → Except String (F.Reply op)) (p : Prog F α) :
    p.Exec (p.follow answers).1 (p.follow answers).2 := by
  induction p with
  | done a => exact .done a
  | fail message => exact .fail message
  | ask op next ih => exact .ask (ih (answers op))

/-! ## Surroundings with a state -/

/-- Surroundings that keep a state: they answer an operation and change. -/
abbrev Env (F : Interface) (σ : Type) := (op : F.Op) → σ → Except String (F.Reply op) × σ

variable {σ : Type} (env : Env F σ)

/-- The result of a program in such surroundings, and their state after it. -/
def runIn : Prog F α → σ → Except String α × σ
  | .done a, s => (.ok a, s)
  | .fail message, s => (.error message, s)
  | .ask op next, s => (next (env op s).1).runIn (env op s).2

/-- A failure of a program gets the text `context`. -/
def withContext (context : String) : Prog F α → Prog F α
  | .done a => .done a
  | .fail _ => .fail context
  | .ask op next => .ask op fun answer => (next answer).withContext context

@[simp] theorem runIn_pure (a : α) (s : σ) : (pure a : Prog F α).runIn env s = (.ok a, s) := rfl

@[simp] theorem runIn_fail (message : String) (s : σ) :
    (fail message : Prog F α).runIn env s = (.error message, s) := rfl

theorem runIn_bind (p : Prog F α) (f : α → Prog F β) (s : σ) :
    (p >>= f).runIn env s =
      match p.runIn env s with
      | (.ok a, s') => (f a).runIn env s'
      | (.error message, s') => (.error message, s') := by
  induction p generalizing s with
  | done a => rfl
  | fail message => rfl
  | ask op next ih => exact ih (env op s).1 (env op s).2

/-- A program goes on with what its first part returns. -/
theorem runIn_bind_ok {p : Prog F α} {f : α → Prog F β} {s s' : σ} {a : α}
    (h : p.runIn env s = (.ok a, s')) : (p >>= f).runIn env s = (f a).runIn env s' := by
  rw [runIn_bind, h]

theorem runIn_bind_error {p : Prog F α} {f : α → Prog F β} {s s' : σ} {message : String}
    (h : p.runIn env s = (.error message, s')) :
    (p >>= f).runIn env s = (.error message, s') := by
  rw [runIn_bind, h]

@[simp] theorem runIn_lift (x : Except String α) (s : σ) :
    (lift x : Prog F α).runIn env s = (x, s) := by
  cases x <;> rfl

theorem runIn_attempt_ok {op : F.Op} {s s' : σ} {reply : F.Reply op}
    (h : env op s = (.ok reply, s')) (context : String) :
    (attempt op context).runIn env s = (.ok reply, s') := by
  unfold attempt
  rw [runIn, h]
  rfl

theorem runIn_attempt_error {op : F.Op} {s s' : σ} {message : String}
    (h : env op s = (.error message, s')) (context : String) :
    (attempt op context).runIn env s = (.error context, s') := by
  unfold attempt
  rw [runIn, h]
  rfl

theorem runIn_perform (op : F.Op) (s : σ) : (perform op).runIn env s = env op s := by
  unfold perform
  rw [runIn]
  rcases env op s with ⟨_ | _, _⟩ <;> rfl

theorem runIn_withContext (p : Prog F α) (context : String) (s : σ) :
    (p.withContext context).runIn env s =
      match p.runIn env s with
      | (.ok a, s') => (.ok a, s')
      | (.error _, s') => (.error context, s') := by
  induction p generalizing s with
  | done a => rfl
  | fail message => rfl
  | ask op next ih => exact ih (env op s).1 (env op s).2

theorem runIn_withContext_ok {p : Prog F α} {context : String} {s s' : σ} {a : α}
    (h : p.runIn env s = (.ok a, s')) : (p.withContext context).runIn env s = (.ok a, s') := by
  rw [runIn_withContext, h]

/-- A sequence of computations that succeeds. -/
theorem except_bind_eq_ok {x : Except String α} {f : α → Except String β} {b : β}
    (h : (x >>= f) = .ok b) : ∃ a, x = .ok a ∧ f a = .ok b := by
  cases x with
  | error e => cases h
  | ok a => exact ⟨a, rfl, h⟩

/-! ## Programs that differ in the text of a failure -/

/-- The same program but for the texts it fails with. -/
inductive Alike : Prog F α → Prog F α → Prop where
  | done (a : α) : Alike (.done a) (.done a)
  | fail (message message' : String) : Alike (.fail message) (.fail message')
  | ask {op : F.Op} {next next' : Except String (F.Reply op) → Prog F α} :
      (∀ answer, Alike (next answer) (next' answer)) → Alike (.ask op next) (.ask op next')

theorem Alike.refl (p : Prog F α) : Alike p p := by
  induction p with
  | done a => exact .done a
  | fail message => exact .fail message message
  | ask op next ih => exact .ask ih

theorem Alike.bind {p q : Prog F α} {f g : α → Prog F β} (h : Alike p q)
    (hf : ∀ a, Alike (f a) (g a)) : Alike (p >>= f) (q >>= g) := by
  induction h with
  | done a => exact hf a
  | fail message message' => exact .fail message message'
  | ask _ ih => exact .ask ih

theorem Alike.attempt (op : F.Op) (context context' : String) :
    Alike (attempt op context) (attempt op context') := by
  refine .ask fun answer => ?_
  cases answer with
  | ok reply => exact .done reply
  | error e => exact .fail context context'

/-- They do the same to their surroundings, and both succeed with the same
result or both fail. -/
theorem Alike.runIn {p q : Prog F α} (h : Alike p q) (s : σ) :
    (p.runIn env s).2 = (q.runIn env s).2 ∧
      ((∃ a, (p.runIn env s).1 = .ok a ∧ (q.runIn env s).1 = .ok a) ∨
        ∃ e e', (p.runIn env s).1 = .error e ∧ (q.runIn env s).1 = .error e') := by
  induction h generalizing s with
  | done a => exact ⟨rfl, .inl ⟨a, rfl, rfl⟩⟩
  | fail message message' => exact ⟨rfl, .inr ⟨message, message', rfl, rfl⟩⟩
  | @ask op next next' _ ih => exact ih (env op s).1 (env op s).2

/-! ## Programs that fail on a bad answer -/

/-- After a good answer the program goes on, after a bad one it fails at once,
and it fails for no other reason. -/
def FailsOnBad (good : Event F → Bool) : Prog F α → Prop
  | .done _ => True
  | .fail _ => False
  | .ask op next => ∀ answer,
      if good ⟨op, answer⟩ then (next answer).FailsOnBad good
      else ∃ message, next answer = .fail message

variable {good : Event F → Bool}

/-- Such a program succeeds exactly when no answer is bad. -/
theorem FailsOnBad.ok_iff {p : Prog F α} (h : p.FailsOnBad good) {t : List (Event F)}
    {r : Except String α} (ht : p.Exec t r) :
    (∃ a, r = .ok a) ↔ ∀ e ∈ t, good e = true := by
  induction ht with
  | done a => simp
  | fail message => exact h.elim
  | @ask op next answer t r hrest ih =>
    have hanswer := h answer
    split at hanswer
    next hgood => simp [ih hanswer, hgood]
    next hbad =>
      obtain ⟨message, hfail⟩ := hanswer
      rw [hfail] at hrest
      cases hrest
      simp [hbad]

theorem FailsOnBad.bind {p : Prog F α} {f : α → Prog F β} (h : p.FailsOnBad good)
    (hf : ∀ a, (f a).FailsOnBad good) : (p >>= f).FailsOnBad good := by
  induction p with
  | done a => exact hf a
  | fail message => exact h.elim
  | ask op next ih =>
    intro answer
    have hanswer := h answer
    split at hanswer
    next hgood =>
      rw [if_pos hgood]
      exact ih answer hanswer
    next hbad =>
      obtain ⟨message, hfail⟩ := hanswer
      rw [if_neg hbad]
      exact ⟨message, congrArg (Prog.bind · f) hfail⟩

theorem FailsOnBad.withContext {p : Prog F α} (h : p.FailsOnBad good) (context : String) :
    (p.withContext context).FailsOnBad good := by
  induction p with
  | done a => trivial
  | fail message => exact h.elim
  | ask op next ih =>
    intro answer
    have hanswer := h answer
    split at hanswer
    next hgood =>
      rw [if_pos hgood]
      exact ih answer hanswer
    next hbad =>
      obtain ⟨message, hfail⟩ := hanswer
      rw [if_neg hbad]
      exact ⟨context, congrArg (Prog.withContext context) hfail⟩

/-- The answers that `attempt` and `perform` go on with. -/
def GoodIsOk (good : Event F → Bool) (op : F.Op) : Prop :=
  (∀ reply, good ⟨op, .ok reply⟩ = true) ∧ ∀ e, good ⟨op, .error e⟩ = false

theorem failsOnBad_attempt {op : F.Op} (h : GoodIsOk good op) (context : String) :
    (attempt op context).FailsOnBad good := by
  intro answer
  cases answer with
  | ok reply =>
    rw [if_pos (h.1 reply)]
    trivial
  | error e =>
    rw [h.2 e]
    exact ⟨context, rfl⟩

theorem failsOnBad_perform {op : F.Op} (h : GoodIsOk good op) :
    (perform op).FailsOnBad good := by
  intro answer
  cases answer with
  | ok reply =>
    rw [if_pos (h.1 reply)]
    trivial
  | error e =>
    rw [h.2 e]
    exact ⟨e, rfl⟩

/-! ## A program as a part of another -/

/-- The result of a program, failure or not, becomes a value. -/
def settle : Prog F α → Prog F (Except String α)
  | .done a => .done (.ok a)
  | .fail message => .done (.error message)
  | .ask op next => .ask op fun answer => (next answer).settle

/-- An execution of a sequence ends in its first part, or is one of each
part. -/
theorem exec_bind {p : Prog F α} {f : α → Prog F β} {t : List (Event F)} {r : Except String β}
    (h : (p >>= f).Exec t r) :
    (∃ a t₁ t₂, t = t₁ ++ t₂ ∧ p.Exec t₁ (.ok a) ∧ (f a).Exec t₂ r) ∨
      ∃ e, r = .error e ∧ p.Exec t (.error e) := by
  induction p generalizing t with
  | done a => exact .inl ⟨a, [], t, rfl, .done a, h⟩
  | fail message =>
    cases h
    exact .inr ⟨message, rfl, .fail message⟩
  | ask op next ih =>
    cases h with
    | @ask _ _ answer t _ hrest =>
      rcases ih answer hrest with ⟨a, t₁, t₂, rfl, h₁, h₂⟩ | ⟨e, rfl, h₁⟩
      · exact .inl ⟨a, ⟨op, answer⟩ :: t₁, t₂, rfl, .ask h₁, h₂⟩
      · exact .inr ⟨e, rfl, .ask h₁⟩

theorem exec_bind_ok {p : Prog F α} {f : α → Prog F β} {t : List (Event F)} {b : β}
    (h : (p >>= f).Exec t (.ok b)) :
    ∃ a t₁ t₂, t = t₁ ++ t₂ ∧ p.Exec t₁ (.ok a) ∧ (f a).Exec t₂ (.ok b) := by
  rcases exec_bind h with hparts | ⟨e, he, _⟩
  · exact hparts
  · cases he

theorem Exec.bind {p : Prog F α} {f : α → Prog F β} {t₁ t₂ : List (Event F)} {a : α}
    {r : Except String β} (h₁ : p.Exec t₁ (.ok a)) (h₂ : (f a).Exec t₂ r) :
    (p >>= f).Exec (t₁ ++ t₂) r := by
  generalize hok : Except.ok a = x at h₁
  induction h₁ with
  | done a' =>
    cases hok
    exact h₂
  | fail message => cases hok
  | ask _ ih => exact .ask (ih hok)

theorem exec_lift {x r : Except String α} {t : List (Event F)} (h : (lift x : Prog F α).Exec t r) :
    t = [] ∧ r = x := by
  cases x <;> cases h <;> exact ⟨rfl, rfl⟩

theorem exec_lift_self (x : Except String α) : (lift x : Prog F α).Exec [] x := by
  cases x with
  | ok a => exact .done a
  | error e => exact .fail e

theorem exec_det {p : Prog F α} {t : List (Event F)} {r r' : Except String α} (h : p.Exec t r)
    (h' : p.Exec t r') : r = r' := by
  induction h with
  | done a => cases h'; rfl
  | fail message => cases h'; rfl
  | ask _ ih =>
    cases h' with
    | ask h' => exact ih h'

@[simp] theorem lift_bind (x : Except String α) (f : α → Except String β) :
    ((lift x : Prog F α) >>= fun a => lift (f a)) = lift (x >>= f) := by
  cases x <;> rfl

/-- What is computed from the result of a program, once it has one. -/
theorem exec_bind_lift_iff {p : Prog F α} {f : α → Except String β} {t : List (Event F)} {a : α}
    {r : Except String β} (h : p.Exec t (.ok a)) :
    (p >>= fun a => lift (f a)).Exec t r ↔ r = f a := by
  constructor
  · intro hbind
    rcases exec_bind hbind with ⟨a', t₁, t₂, rfl, hp, hlift⟩ | ⟨e, rfl, hp⟩
    · obtain ⟨rfl, rfl⟩ := exec_lift hlift
      rw [List.append_nil] at h
      rw [Except.ok.inj (exec_det hp h)]
    · cases exec_det hp h
  · rintro rfl
    rw [← List.append_nil t]
    exact h.bind (exec_lift_self (f a))

theorem exec_attempt_ok {op : F.Op} {context : String} {t : List (Event F)} {reply : F.Reply op}
    (h : (attempt op context).Exec t (.ok reply)) : t = [⟨op, .ok reply⟩] := by
  cases h with
  | @ask _ _ answer t _ hrest =>
    cases answer with
    | ok reply' =>
      cases hrest
      rfl
    | error e => cases hrest

theorem exec_perform_ok {op : F.Op} {t : List (Event F)} {reply : F.Reply op}
    (h : (perform op).Exec t (.ok reply)) : t = [⟨op, .ok reply⟩] := by
  cases h with
  | @ask _ _ answer t _ hrest =>
    cases answer with
    | ok reply' =>
      cases hrest
      rfl
    | error e => cases hrest

theorem exec_withContext_ok {p : Prog F α} {context : String} {t : List (Event F)} {a : α}
    (h : (p.withContext context).Exec t (.ok a)) : p.Exec t (.ok a) := by
  induction p generalizing t with
  | done a' => exact h
  | fail message => cases h
  | ask op next ih =>
    cases h with
    | ask hrest => exact .ask (ih _ hrest)

theorem exec_withContext {p : Prog F α} {context : String} {t : List (Event F)}
    {r : Except String α} (h : (p.withContext context).Exec t r) : ∃ r', p.Exec t r' := by
  induction p generalizing t with
  | done a => exact ⟨r, h⟩
  | fail message =>
    cases h
    exact ⟨_, .fail message⟩
  | ask op next ih =>
    cases h with
    | ask hrest =>
      obtain ⟨r', hp⟩ := ih _ hrest
      exact ⟨r', .ask hp⟩

theorem exec_settle {p : Prog F α} {t : List (Event F)} {r : Except String (Except String α)}
    (h : p.settle.Exec t r) : ∃ r', r = .ok r' ∧ p.Exec t r' := by
  induction p generalizing t with
  | done a =>
    cases h
    exact ⟨_, rfl, .done a⟩
  | fail message =>
    cases h
    exact ⟨_, rfl, .fail message⟩
  | ask op next ih =>
    cases h with
    | ask hrest =>
      obtain ⟨r', hr, hp⟩ := ih _ hrest
      exact ⟨r', hr, .ask hp⟩

variable {G : Interface}

/-- A program over one interface, over both. -/
def inl : Prog F α → Prog (F.sum G) α
  | .done a => .done a
  | .fail message => .fail message
  | .ask op next => .ask (.inl op) fun answer => (next answer).inl

def eventInl (e : Event F) : Event (F.sum G) := ⟨.inl e.1, e.2⟩

/-- The events of the first interface. -/
def leftEvents : List (Event (F.sum G)) → List (Event F)
  | [] => []
  | ⟨.inl op, answer⟩ :: t => ⟨op, answer⟩ :: leftEvents t
  | ⟨.inr _, _⟩ :: t => leftEvents t

/-- The operations of the second interface that are asked for. -/
def rightOps : List (Event (F.sum G)) → List G.Op
  | [] => []
  | ⟨.inl _, _⟩ :: t => rightOps t
  | ⟨.inr op, _⟩ :: t => op :: rightOps t

theorem leftEvents_append (t : List (Event F)) (t' : List (Event (F.sum G))) :
    leftEvents (t.map eventInl ++ t') = t ++ leftEvents t' := by
  induction t with
  | nil => rfl
  | cons e t ih => exact congrArg (e :: ·) ih

theorem rightOps_append (t : List (Event F)) (t' : List (Event (F.sum G))) :
    rightOps (t.map eventInl ++ t') = rightOps t' := by
  induction t with
  | nil => rfl
  | cons e t ih => exact ih

theorem exec_inl {p : Prog F α} {t : List (Event (F.sum G))} {r : Except String α}
    (h : p.inl.Exec t r) : ∃ t', t = t'.map eventInl ∧ p.Exec t' r := by
  induction p generalizing t with
  | done a =>
    cases h
    exact ⟨[], rfl, .done a⟩
  | fail message =>
    cases h
    exact ⟨[], rfl, .fail message⟩
  | ask op next ih =>
    cases h with
    | @ask _ _ answer t _ hrest =>
      obtain ⟨t', rfl, hp⟩ := ih answer hrest
      exact ⟨⟨op, answer⟩ :: t', rfl, .ask hp⟩

/-! ## What a program asks for -/

/-- Every operation the program may ask for satisfies `P`. -/
def Asks (P : F.Op → Prop) : Prog F α → Prop
  | .done _ => True
  | .fail _ => True
  | .ask op next => P op ∧ ∀ answer, (next answer).Asks P

variable {P : F.Op → Prop}

theorem Asks.bind {p : Prog F α} {f : α → Prog F β} (h : p.Asks P) (hf : ∀ a, (f a).Asks P) :
    (p >>= f).Asks P := by
  induction p with
  | done a => exact hf a
  | fail message => trivial
  | ask op next ih => exact ⟨h.1, fun answer => ih answer (h.2 answer)⟩

theorem asks_attempt {op : F.Op} (h : P op) (context : String) : (attempt op context).Asks P := by
  refine ⟨h, fun answer => ?_⟩
  cases answer <;> trivial

theorem asks_perform {op : F.Op} (h : P op) : (perform op).Asks P := by
  refine ⟨h, fun answer => ?_⟩
  cases answer <;> trivial

theorem asks_lift (x : Except String α) : (lift x : Prog F α).Asks P := by
  cases x <;> trivial

/-- What every operation the program may ask for keeps, the program keeps. -/
theorem Asks.invariant {I : σ → Prop} (hstep : ∀ op s, P op → I s → I (env op s).2)
    {p : Prog F α} (h : p.Asks P) {s : σ} (hI : I s) : I (p.runIn env s).2 := by
  induction p generalizing s with
  | done a => exact hI
  | fail message => exact hI
  | ask op next ih => exact ih _ (h.2 _) (hstep op s h.1 hI)

/-! ## Programs that go forward -/

/-- The operations a program may ask for, one after the other, have higher and
higher ranks; all are at least `n` and below `m`. -/
def Forward (rank : F.Op → Nat) (m : Nat) : Prog F α → Nat → Prop
  | .done _, _ => True
  | .fail _, _ => True
  | .ask op next, n =>
    n ≤ rank op ∧ rank op < m ∧ ∀ answer, (next answer).Forward rank m (rank op + 1)

variable {rank : F.Op → Nat} {n n' k m m' : Nat}

theorem Forward.mono {p : Prog F α} (h : p.Forward rank m n) (hn : n' ≤ n) (hm : m ≤ m') :
    p.Forward rank m' n' := by
  induction p generalizing n n' with
  | done a => trivial
  | fail message => trivial
  | ask op next ih =>
    obtain ⟨hlow, hhigh, hnext⟩ := h
    exact ⟨by omega, by omega, fun answer => ih answer (hnext answer) (Nat.le_refl _)⟩

theorem Forward.bind {p : Prog F α} {f : α → Prog F β} (h : p.Forward rank k n)
    (hf : ∀ a, (f a).Forward rank m k) (hn : n ≤ k) (hm : k ≤ m) :
    (p >>= f).Forward rank m n := by
  induction p generalizing n with
  | done a => exact (hf a).mono hn (Nat.le_refl _)
  | fail message => trivial
  | ask op next ih =>
    obtain ⟨hlow, hhigh, hnext⟩ := h
    exact ⟨hlow, by omega, fun answer => ih answer (hnext answer) (by omega)⟩

theorem forward_attempt {op : F.Op} (hn : n ≤ rank op) (hm : rank op < m) (context : String) :
    (attempt op context).Forward rank m n := by
  refine ⟨hn, hm, fun answer => ?_⟩
  cases answer <;> trivial

theorem forward_perform {op : F.Op} (hn : n ≤ rank op) (hm : rank op < m) :
    (perform op).Forward rank m n := by
  refine ⟨hn, hm, fun answer => ?_⟩
  cases answer <;> trivial

theorem forward_lift (x : Except String α) : (lift x : Prog F α).Forward rank m n := by
  cases x <;> trivial

theorem Forward.withContext {p : Prog F α} (h : p.Forward rank m n) (context : String) :
    (p.withContext context).Forward rank m n := by
  induction p generalizing n with
  | done a => trivial
  | fail message => trivial
  | ask op next ih => exact ⟨h.1, h.2.1, fun answer => ih answer (h.2.2 answer)⟩

/-- What such a program asks for has ranks in order, so it asks for nothing
twice. -/
theorem Forward.exec {p : Prog F α} (h : p.Forward rank m n) {t : List (Event F)}
    {r : Except String α} (ht : p.Exec t r) :
    (t.map fun e => rank e.1).Pairwise (· < ·) ∧ ∀ e ∈ t, n ≤ rank e.1 ∧ rank e.1 < m := by
  induction ht generalizing n with
  | done a => exact ⟨.nil, nofun⟩
  | fail message => exact ⟨.nil, nofun⟩
  | @ask op next answer t r _ ih =>
    obtain ⟨hlow, hhigh, hnext⟩ := h
    obtain ⟨hsorted, hall⟩ := ih (hnext answer)
    refine ⟨List.pairwise_cons.mpr ⟨fun k hk => ?_, hsorted⟩, fun e he => ?_⟩
    · obtain ⟨e, he, rfl⟩ := List.mem_map.mp hk
      exact (hall e he).1
    · rcases List.mem_cons.mp he with rfl | he
      · exact ⟨hlow, hhigh⟩
      · obtain ⟨hbelow, habove⟩ := hall e he
        exact ⟨by omega, habove⟩

end Prog

end Lib
