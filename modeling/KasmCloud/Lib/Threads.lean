/-
KasmCloud.Lib.Threads — programs that run side by side in shared
surroundings.

A thread runs the program of a call, one operation at a time, in any order
with the operations of the other threads. An operation is carried out, or it
fails, or it is carried out and its answer is lost. At one of its operations
a call may take effect on an abstract object; a pool logs these points.

* `Prog.Keeps` — a program keeps to a discipline: what it asks for in which
  phase, and what it returns after the answers the discipline promises;
* `Setting.Sound` — the surroundings keep to it, too;
* `Setting.Sound.linear`, `Setting.Linear.linearized` — then the log is an
  execution of the calls one after the other, with the replies that the
  threads got, and in the order of time.
-/
import KasmCloud.Lib.Machine
import KasmCloud.Lib.Prog

namespace Lib

/-! ## Programs under a discipline -/

/-- What a program may ask for in a phase, and what it may be answered, with
the phase after it. -/
structure Discipline (F : Interface) (γ : Type) where
  may : γ → F.Op → Prop
  sees : γ → (op : F.Op) → Except String (F.Reply op) → γ → Prop

namespace Prog

variable {F : Interface} {α β γ : Type} {D : Discipline F γ}

/-- The program asks for what it may ask for, and ends in `Q`, which sees the
last phase and whether an operation failed or lost its answer. -/
def Keeps (D : Discipline F γ) (Q : γ → Bool → Except String α → Prop) :
    Prog F α → γ → Bool → Prop
  | .done a, g, faulty => Q g faulty (.ok a)
  | .fail message, g, faulty => Q g faulty (.error message)
  | .ask op next, g, faulty =>
    D.may g op ∧ (∀ e, (next (.error e)).Keeps D Q g true) ∧
      ∀ answer g', D.sees g op answer g' →
        (next answer).Keeps D Q g' faulty ∧ ∀ e, (next (.error e)).Keeps D Q g' true

variable {Q Q' : γ → Bool → Except String α → Prop} {g : γ} {faulty : Bool}

@[simp] theorem keeps_lift (x : Except String α) :
    (lift x : Prog F α).Keeps D Q g faulty ↔ Q g faulty x := by
  cases x <;> exact Iff.rfl

theorem Keeps.mono {p : Prog F α} (h : p.Keeps D Q g faulty)
    (himp : ∀ g faulty r, Q g faulty r → Q' g faulty r) : p.Keeps D Q' g faulty := by
  induction p generalizing g faulty with
  | done a => exact himp g faulty _ h
  | fail message => exact himp g faulty _ h
  | ask op next ih =>
    obtain ⟨hmay, hfails, hsees⟩ := h
    refine ⟨hmay, fun e => ih _ (hfails e), fun answer g' hs => ?_⟩
    obtain ⟨hgoes, hlost⟩ := hsees answer g' hs
    exact ⟨ih _ hgoes, fun e => ih _ (hlost e)⟩

/-- The rule of sequence. -/
theorem keeps_bind {p : Prog F α} {f : α → Prog F β} {Q : γ → Bool → Except String β → Prop}
    (h : p.Keeps D (fun g faulty r => match r with
      | .ok a => (f a).Keeps D Q g faulty
      | .error e => Q g faulty (.error e)) g faulty) : (p >>= f).Keeps D Q g faulty := by
  induction p generalizing g faulty with
  | done a => exact h
  | fail message => exact h
  | ask op next ih =>
    obtain ⟨hmay, hfails, hsees⟩ := h
    refine ⟨hmay, fun e => ih _ (hfails e), fun answer g' hs => ?_⟩
    obtain ⟨hgoes, hlost⟩ := hsees answer g' hs
    exact ⟨ih _ hgoes, fun e => ih _ (hlost e)⟩

theorem keeps_attempt {op : F.Op} {context : String}
    {Q : γ → Bool → Except String (F.Reply op) → Prop} (hmay : D.may g op)
    (hfails : Q g true (.error context))
    (hsees : ∀ answer g', D.sees g op answer g' →
      Q g' faulty (answer.mapError fun _ => context) ∧ Q g' true (.error context)) :
    (attempt op context).Keeps D Q g faulty := by
  refine ⟨hmay, fun _ => hfails, fun answer g' hs => ?_⟩
  obtain ⟨hgoes, hlost⟩ := hsees answer g' hs
  cases answer with
  | ok reply => exact ⟨hgoes, fun _ => hlost⟩
  | error e => exact ⟨hgoes, fun _ => hlost⟩

theorem keeps_perform {op : F.Op} {Q : γ → Bool → Except String (F.Reply op) → Prop}
    (hmay : D.may g op) (hfails : ∀ e, Q g true (.error e))
    (hsees : ∀ answer g', D.sees g op answer g' →
      Q g' faulty answer ∧ ∀ e, Q g' true (.error e)) :
    (perform op).Keeps D Q g faulty := by
  refine ⟨hmay, hfails, fun answer g' hs => ?_⟩
  obtain ⟨hgoes, hlost⟩ := hsees answer g' hs
  cases answer with
  | ok reply => exact ⟨hgoes, hlost⟩
  | error e => exact ⟨hgoes, hlost⟩

end Prog

/-! ## Executions of an object -/

section Legal

variable {C S Rep : Type} (apply : C → S → Rep × S)

/-- From `s` to `s'` the calls that the log names are executed one after the
other, with the replies that it names. -/
def Legal (calls : List C) : S → List (Nat × Rep) → S → Prop
  | s, [], s' => s' = s
  | s, (i, rep) :: log, s' =>
    ∃ c, calls[i]? = some c ∧ (apply c s).1 = rep ∧ Legal calls (apply c s).2 log s'

variable {apply} {calls : List C} {s s' : S} {log : List (Nat × Rep)}

/-- One more call at the end. -/
theorem Legal.snoc (h : Legal apply calls s log s') {i : Nat} {c : C} (hc : calls[i]? = some c) :
    Legal apply calls s (log ++ [(i, (apply c s').1)]) (apply c s').2 := by
  induction log generalizing s with
  | nil =>
    cases h
    exact ⟨c, hc, rfl, rfl⟩
  | cons entry log ih =>
    obtain ⟨c', hc', hrep, hrest⟩ := h
    exact ⟨c', hc', hrep, ih hrest⟩

/-- More calls may have begun. -/
theorem Legal.append (h : Legal apply calls s log s') (more : List C) :
    Legal apply (calls ++ more) s log s' := by
  induction log generalizing s with
  | nil => exact h
  | cons entry log ih =>
    obtain ⟨c, hc, hrep, hrest⟩ := h
    obtain ⟨hlt, -⟩ := List.getElem?_eq_some_iff.mp hc
    exact ⟨c, by rw [List.getElem?_append_left hlt, hc], hrep, ih hrest⟩

end Legal

/-! ## Pools of threads -/

/-- A call, what is left of its program, and history: the phase it is in, and
whether an operation has failed or lost its answer. -/
structure Thread (F : Interface) (α C γ : Type) where
  call : C
  program : Prog F α
  phase : γ
  faulty : Bool

/-- The result of a program that is over. -/
def Prog.result? {F : Interface} {α : Type} : Prog F α → Option (Except String α)
  | .done a => some (.ok a)
  | .fail message => some (.error message)
  | .ask .. => none

/-- The call has returned. -/
def Thread.Returned {F : Interface} {α C γ : Type} (t : Thread F α C γ) : Prop :=
  ∃ r, t.program.result? = some r

structure Pool (F : Interface) (α C γ Rep σ : Type) where
  shared : σ
  threads : List (Thread F α C γ)
  /-- The calls that have taken effect, with their replies: history. -/
  log : List (Nat × Rep)

/-- What becomes of an operation. -/
inductive Fate where
  | done
  | failed (message : String)
  | lost (message : String)

inductive PoolStep (C : Type) where
  | start (call : C)
  | ask (thread : Nat) (fate : Fate)

/-- The programs of the calls, their surroundings, and the object that these
implement: `commits` is the operation at which a call takes effect. -/
structure Setting (F : Interface) (α C γ Rep S σ : Type) where
  program : C → Prog F α
  fresh : γ
  init : σ
  env : Prog.Env F σ
  note : C → γ → F.Op → σ → γ
  commits : F.Op → σ → Bool
  abs : σ → S
  apply : C → S → Rep × S

namespace Setting

variable {F : Interface} {α C γ Rep S σ : Type} (E : Setting F α C γ Rep S σ)

/-- A call's operation is carried out, and the call goes on with `rest`. -/
def carry (p : Pool F α C γ Rep σ) (i : Nat) (t : Thread F α C γ) (op : F.Op) (rest : Prog F α)
    (faulty : Bool) : Pool F α C γ Rep σ where
  shared := (E.env op p.shared).2
  threads := p.threads.set i ⟨t.call, rest, E.note t.call t.phase op p.shared, faulty⟩
  log :=
    if E.commits op p.shared then p.log ++ [(i, (E.apply t.call (E.abs p.shared)).1)] else p.log

def step (p : Pool F α C γ Rep σ) : PoolStep C → Option (Pool F α C γ Rep σ)
  | .start call =>
    some { p with threads := p.threads ++ [⟨call, E.program call, E.fresh, false⟩] }
  | .ask i fate =>
    match p.threads[i]? with
    | some t =>
      match t.program with
      | .ask op next =>
        match fate with
        | .done => some (E.carry p i t op (next (E.env op p.shared).1) t.faulty)
        | .lost message => some (E.carry p i t op (next (.error message)) true)
        | .failed message =>
          some { p with threads := p.threads.set i ⟨t.call, next (.error message), t.phase, true⟩ }
      | _ => none
    | none => none

/-- Any number of calls, their operations in any order. -/
def machine : Machine (Pool F α C γ Rep σ) (PoolStep C) where
  init := ⟨E.init, [], []⟩
  step := E.step

/-- A thread asks for an operation that it may ask for. -/
structure Asks (D : C → Discipline F γ) (Inv : σ → List (C × γ) → Prop) (s : σ)
    (ts : List (C × γ)) (i : Nat) (c : C) (g : γ) (op : F.Op) : Prop where
  inv : Inv s ts
  thread : ts[i]? = some (c, g)
  may : (D c).may g op

/-- The programs and the surroundings keep to the discipline, under an
invariant of the surroundings and of what the threads are in; a call takes
effect once, in the operation that `commits`. -/
structure Sound (D : C → Discipline F γ) (Q : C → γ → Bool → Except String α → Prop)
    (reply? : γ → Option Rep) (Inv : σ → List (C × γ) → Prop) (allowed : C → Prop) : Prop where
  keeps : ∀ c, allowed c → (E.program c).Keeps (D c) (Q c) E.fresh false
  fresh : reply? E.fresh = none
  init : Inv E.init []
  start : ∀ s ts c, Inv s ts → allowed c → Inv s (ts ++ [(c, E.fresh)])
  sees : ∀ {s ts i c g op}, Asks D Inv s ts i c g op →
    (D c).sees g op (E.env op s).1 (E.note c g op s)
  inv : ∀ {s ts i c g op}, Asks D Inv s ts i c g op →
    Inv (E.env op s).2 (ts.set i (c, E.note c g op s))
  commit : ∀ {s ts i c g op}, Asks D Inv s ts i c g op → E.commits op s = true →
    reply? g = none ∧ E.abs (E.env op s).2 = (E.apply c (E.abs s)).2 ∧
      reply? (E.note c g op s) = some (E.apply c (E.abs s)).1
  silent : ∀ {s ts i c g op}, Asks D Inv s ts i c g op → E.commits op s = false →
    E.abs (E.env op s).2 = E.abs s ∧ reply? (E.note c g op s) = reply? g

/-- What every run keeps. -/
structure Linear (D : C → Discipline F γ) (Q : C → γ → Bool → Except String α → Prop)
    (reply? : γ → Option Rep) (Inv : σ → List (C × γ) → Prop) (p : Pool F α C γ Rep σ) : Prop where
  inv : Inv p.shared (p.threads.map fun t => (t.call, t.phase))
  keeps : ∀ t ∈ p.threads, t.program.Keeps (D t.call) (Q t.call) t.phase t.faulty
  legal : Legal E.apply (p.threads.map (·.call)) (E.abs E.init) p.log (E.abs p.shared)
  once : (p.log.map Prod.fst).Nodup
  logged : ∀ i rep, (i, rep) ∈ p.log ↔
    ∃ t, p.threads[i]? = some t ∧ reply? t.phase = some rep

/-- The calls that may begin. -/
def Starts (allowed : C → Prop) (_ : Pool F α C γ Rep σ) : PoolStep C → Prop
  | .start call => allowed call
  | .ask .. => True

section Linear

variable {E} {D : C → Discipline F γ} {Q : C → γ → Bool → Except String α → Prop}
  {reply? : γ → Option Rep} {Inv : σ → List (C × γ) → Prop} {allowed : C → Prop}
  {p p' : Pool F α C γ Rep σ}

theorem Linear.start (h : E.Linear D Q reply? Inv p)
    (hsound : E.Sound D Q reply? Inv allowed) {c : C} (hc : allowed c) :
    E.Linear D Q reply? Inv
      { p with threads := p.threads ++ [⟨c, E.program c, E.fresh, false⟩] } where
  inv := by
    rw [List.map_append]
    exact hsound.start _ _ c h.inv hc
  keeps t ht := by
    rcases List.mem_append.mp ht with ht | ht
    · exact h.keeps t ht
    · obtain rfl := List.mem_singleton.mp ht
      exact hsound.keeps c hc
  legal := by
    rw [List.map_append]
    exact h.legal.append _
  once := h.once
  logged i rep := by
    rw [h.logged]
    constructor
    · rintro ⟨t, ht, hrep⟩
      obtain ⟨hlt, -⟩ := List.getElem?_eq_some_iff.mp ht
      exact ⟨t, by rw [List.getElem?_append_left hlt, ht], hrep⟩
    · rintro ⟨t, ht, hrep⟩
      rw [List.getElem?_append] at ht
      split at ht
      · exact ⟨t, ht, hrep⟩
      · obtain rfl := List.mem_singleton.mp (List.mem_of_getElem? ht)
        rw [hsound.fresh] at hrep
        cases hrep

/-- The thread that asks, as the invariant sees it. -/
theorem Linear.asks (h : E.Linear D Q reply? Inv p) {i : Nat} {t : Thread F α C γ}
    (ht : p.threads[i]? = some t) {op : F.Op} {next : Except String (F.Reply op) → Prog F α}
    (hprog : t.program = .ask op next) :
    Asks D Inv p.shared (p.threads.map fun t => (t.call, t.phase)) i t.call t.phase op where
  inv := h.inv
  thread := by simp [ht]
  may := by
    have hkeeps := h.keeps t (List.mem_of_getElem? ht)
    rw [hprog] at hkeeps
    exact hkeeps.1

/-- Putting a thread in its own place. -/
theorem map_set_self {β : Type} {ts : List (Thread F α C γ)} {f : Thread F α C γ → β} {i : Nat}
    {t t' : Thread F α C γ} (ht : ts[i]? = some t) (heq : f t' = f t) :
    (ts.set i t').map f = ts.map f := by
  obtain ⟨hlt, rfl⟩ := List.getElem?_eq_some_iff.mp ht
  rw [List.map_set, heq, ← List.getElem_map f, List.set_getElem_self]
  simpa using hlt

/-- The replies that the threads have, after thread `i` is replaced. -/
theorem logged_set {ts : List (Thread F α C γ)} {i j : Nat} {t t' : Thread F α C γ} {rep : Rep}
    (ht : ts[i]? = some t) :
    (∃ u, (ts.set i t')[j]? = some u ∧ reply? u.phase = some rep) ↔
      if i = j then reply? t'.phase = some rep
      else ∃ u, ts[j]? = some u ∧ reply? u.phase = some rep := by
  obtain ⟨hlt, -⟩ := List.getElem?_eq_some_iff.mp ht
  rw [List.getElem?_set]
  split <;> simp

/-- An operation that fails. -/
theorem Linear.fail (h : E.Linear D Q reply? Inv p) {i : Nat} {t : Thread F α C γ}
    (ht : p.threads[i]? = some t) {op : F.Op} {next : Except String (F.Reply op) → Prog F α}
    (hprog : t.program = .ask op next) (message : String) :
    E.Linear D Q reply? Inv
      { p with threads := p.threads.set i ⟨t.call, next (.error message), t.phase, true⟩ } where
  inv := by
    simp only [map_set_self ht]
    exact h.inv
  keeps u hu := by
    rcases List.mem_or_eq_of_mem_set hu with hu | rfl
    · exact h.keeps u hu
    · have hkeeps := h.keeps t (List.mem_of_getElem? ht)
      rw [hprog] at hkeeps
      exact hkeeps.2.1 message
  legal := by
    simp only [map_set_self ht]
    exact h.legal
  once := h.once
  logged j rep := by
    rw [h.logged, logged_set ht]
    split
    · rename_i hij
      subst hij
      simp [ht]
    · exact Iff.rfl

/-- An operation that is carried out. -/
theorem Linear.carry (h : E.Linear D Q reply? Inv p) (hsound : E.Sound D Q reply? Inv allowed)
    {i : Nat} {t : Thread F α C γ} (ht : p.threads[i]? = some t) {op : F.Op}
    {next : Except String (F.Reply op) → Prog F α} (hprog : t.program = .ask op next)
    {rest : Prog F α} {faulty : Bool}
    (hrest : rest.Keeps (D t.call) (Q t.call) (E.note t.call t.phase op p.shared) faulty) :
    E.Linear D Q reply? Inv (E.carry p i t op rest faulty) where
  inv := by
    have hinv := hsound.inv (h.asks ht hprog)
    simp only [Setting.carry, List.map_set]
    exact hinv
  keeps u hu := by
    rcases List.mem_or_eq_of_mem_set hu with hu | rfl
    · exact h.keeps u hu
    · exact hrest
  legal := by
    have hasks := h.asks ht hprog
    have hcall : (p.threads.map (·.call))[i]? = some t.call := by simp [ht]
    simp only [Setting.carry, map_set_self ht]
    cases hcommits : E.commits op p.shared with
    | true =>
      rw [if_pos rfl, (hsound.commit hasks hcommits).2.1]
      exact h.legal.snoc hcall
    | false =>
      rw [if_neg Bool.false_ne_true, (hsound.silent hasks hcommits).1]
      exact h.legal
  once := by
    have hasks := h.asks ht hprog
    simp only [Setting.carry]
    cases hcommits : E.commits op p.shared with
    | true =>
      rw [if_pos rfl, List.map_append, List.map_singleton]
      refine List.nodup_append.mpr ⟨h.once, by simp, ?_⟩
      intro j hj j' hj'
      obtain rfl := List.mem_singleton.mp hj'
      rintro rfl
      -- it would have a reply already
      obtain ⟨⟨_, rep⟩, hmem, rfl⟩ := List.mem_map.mp hj
      obtain ⟨u, hu, hrep⟩ := (h.logged _ rep).mp hmem
      rw [ht, Option.some.injEq] at hu
      subst hu
      rw [(hsound.commit hasks hcommits).1] at hrep
      cases hrep
    | false =>
      rw [if_neg Bool.false_ne_true]
      exact h.once
  logged j rep := by
    have hasks := h.asks ht hprog
    simp only [Setting.carry]
    rw [logged_set ht]
    cases hcommits : E.commits op p.shared with
    | true =>
      obtain ⟨hnone, -, hreply⟩ := hsound.commit hasks hcommits
      rw [if_pos rfl, List.mem_append, List.mem_singleton, h.logged, Prod.mk.injEq]
      split
      · rename_i hij
        subst hij
        simp [ht, hnone, hreply, eq_comm]
      · rename_i hij
        simp [Ne.symm hij]
    | false =>
      rw [if_neg Bool.false_ne_true, h.logged, (hsound.silent hasks hcommits).2]
      split
      · rename_i hij
        subst hij
        simp [ht]
      · exact Iff.rfl

/-- Every step keeps it. -/
theorem linear_step (h : E.Linear D Q reply? Inv p) (hsound : E.Sound D Q reply? Inv allowed)
    {step : PoolStep C} (hok : Starts allowed p step) (hs : E.step p step = some p') :
    E.Linear D Q reply? Inv p' := by
  cases step with
  | start c =>
    cases hs
    exact h.start hsound hok
  | ask i fate =>
    simp only [Setting.step] at hs
    split at hs
    · rename_i t ht
      split at hs
      · rename_i op next hprog
        have hkeeps := h.keeps t (List.mem_of_getElem? ht)
        rw [hprog] at hkeeps
        obtain ⟨hgoes, hlost⟩ := hkeeps.2.2 _ _ (hsound.sees (h.asks ht hprog))
        cases fate with
        | done =>
          cases hs
          exact h.carry hsound ht hprog hgoes
        | lost message =>
          cases hs
          exact h.carry hsound ht hprog (hlost message)
        | failed message =>
          cases hs
          exact h.fail ht hprog message
      · cases hs
    · cases hs

/-- In every run. -/
theorem Sound.linear (hsound : E.Sound D Q reply? Inv allowed) {steps : List (PoolStep C)}
    (hrun : E.machine.RunWhen (Starts allowed) steps p) : E.Linear D Q reply? Inv p := by
  refine hrun.invariant (I := E.Linear D Q reply? Inv) ?_
    fun p step p' hI hok hs => linear_step hI hsound hok hs
  constructor
  · exact hsound.init
  · intro t ht
    cases ht
  · exact rfl
  · exact List.nodup_nil
  · intro i rep
    simp [Setting.machine]

end Linear

/-! ## The order of time -/

section Order

variable {E} {p p' : Pool F α C γ Rep σ}

/-- A step logs no call that has returned, and leaves it as it is. -/
theorem step_returned {step : PoolStep C} (hs : E.step p step = some p') :
    ∃ more, p'.log = p.log ++ more ∧
      ∀ i t, p.threads[i]? = some t → t.Returned →
        p'.threads[i]? = some t ∧ ∀ entry ∈ more, entry.1 ≠ i := by
  cases step with
  | start c =>
    cases hs
    refine ⟨[], by simp, fun i t ht _ => ⟨?_, by simp⟩⟩
    obtain ⟨hlt, -⟩ := List.getElem?_eq_some_iff.mp ht
    rw [List.getElem?_append_left hlt, ht]
  | ask i fate =>
    simp only [Setting.step] at hs
    split at hs
    · rename_i t ht
      split at hs
      · rename_i op next hprog
        -- it is not the thread that asks
        have hother : ∀ {j : Nat} {u : Thread F α C γ}, p.threads[j]? = some u → u.Returned →
            i ≠ j := by
          rintro j u hu hreturned rfl
          rw [ht, Option.some.injEq] at hu
          subst hu
          obtain ⟨r, hr⟩ := hreturned
          rw [hprog] at hr
          cases hr
        have hstays : ∀ {t'} {j : Nat} {u : Thread F α C γ}, p.threads[j]? = some u → u.Returned →
            (p.threads.set i t')[j]? = some u := by
          intro t' j u hu hreturned
          rw [List.getElem?_set_ne (hother hu hreturned), hu]
        have hcarry : ∀ rest faulty, ∃ more, (E.carry p i t op rest faulty).log = p.log ++ more ∧
            ∀ j u, p.threads[j]? = some u → u.Returned →
              (E.carry p i t op rest faulty).threads[j]? = some u ∧
                ∀ entry ∈ more, entry.1 ≠ j := by
          intro rest faulty
          simp only [Setting.carry]
          split
          · refine ⟨[_], rfl, fun j u hu hreturned => ⟨hstays hu hreturned, ?_⟩⟩
            intro entry hentry
            obtain rfl := List.mem_singleton.mp hentry
            exact hother hu hreturned
          · exact ⟨[], by simp, fun j u hu hreturned => ⟨hstays hu hreturned, by simp⟩⟩
        cases fate with
        | done =>
          cases hs
          exact hcarry _ _
        | lost message =>
          cases hs
          exact hcarry _ _
        | failed message =>
          cases hs
          exact ⟨[], by simp, fun j u hu hreturned => ⟨hstays hu hreturned, by simp⟩⟩
      · cases hs
    · cases hs

/-- A call that has returned is not logged any more: in the log, it is before
every call that begins later. -/
theorem log_grows {steps : List (PoolStep C)} (h : E.machine.exec p steps = some p') :
    ∃ more, p'.log = p.log ++ more ∧
      ∀ i t, p.threads[i]? = some t → t.Returned →
        p'.threads[i]? = some t ∧ ∀ entry ∈ more, entry.1 ≠ i := by
  induction steps generalizing p with
  | nil =>
    cases h
    exact ⟨[], by simp, fun i t ht _ => ⟨ht, by simp⟩⟩
  | cons step steps ih =>
    obtain ⟨p₁, hs, hrest⟩ := Option.bind_eq_some_iff.mp h
    obtain ⟨first, hfirst, hkept⟩ := step_returned hs
    obtain ⟨more, hmore, hkept'⟩ := ih hrest
    refine ⟨first ++ more, by rw [hmore, hfirst, List.append_assoc], fun i t ht hreturned => ?_⟩
    obtain ⟨ht₁, hnone⟩ := hkept i t ht hreturned
    obtain ⟨ht', hnone'⟩ := hkept' i t ht₁ hreturned
    refine ⟨ht', fun entry hentry => ?_⟩
    rcases List.mem_append.mp hentry with hentry | hentry
    · exact hnone entry hentry
    · exact hnone' entry hentry

/-! ## Calls that are left alone -/

/-- A call whose operations are carried out returns: it waits for no other
call. -/
theorem call_returns {i : Nat} {t : Thread F α C γ} (ht : p.threads[i]? = some t) :
    ∃ n p' t', E.machine.exec p (List.replicate n (.ask i .done)) = some p' ∧
      p'.threads[i]? = some t' ∧ t'.Returned ∧ t'.call = t.call ∧ t'.faulty = t.faulty := by
  obtain ⟨call, program, phase, faulty⟩ := t
  induction program generalizing p phase with
  | done a => exact ⟨0, p, _, rfl, ht, ⟨.ok a, rfl⟩, rfl, rfl⟩
  | fail message => exact ⟨0, p, _, rfl, ht, ⟨.error message, rfl⟩, rfl, rfl⟩
  | ask op next ih =>
    obtain ⟨hlt, -⟩ := List.getElem?_eq_some_iff.mp ht
    have hnext : (E.carry p i ⟨call, .ask op next, phase, faulty⟩ op (next (E.env op p.shared).1)
        faulty).threads[i]? =
          some ⟨call, next (E.env op p.shared).1, E.note call phase op p.shared, faulty⟩ := by
      simp only [Setting.carry]
      rw [List.getElem?_set_self hlt]
    have hstep : E.step p (.ask i .done) = some (E.carry p i ⟨call, .ask op next, phase, faulty⟩ op
        (next (E.env op p.shared).1) faulty) := by
      simp only [Setting.step, ht]
    obtain ⟨n, p', t', hexec, hrest⟩ := ih _ _ hnext
    refine ⟨n + 1, p', t', ?_, hrest⟩
    rw [List.replicate_succ, Machine.exec_cons]
    show (E.step p (.ask i .done)).bind _ = _
    rw [hstep]
    exact hexec

end Order

/-! ## Linearizability -/

/-- The calls have taken effect one after the other, each at most once: what a
call has returned is the result of its reply in that order, and without a
fault every call that is not refused has such a reply. A call that has
returned is before every call that begins later, and a call that is left
alone returns. -/
structure Linearized (result : C → Rep → Except String α) (refused : C → Prop)
    (p : Pool F α C γ Rep σ) : Prop where
  legal : Legal E.apply (p.threads.map (·.call)) (E.abs E.init) p.log (E.abs p.shared)
  once : (p.log.map Prod.fst).Nodup
  ok : ∀ i t a, p.threads[i]? = some t → t.program = .done a →
    ∃ rep, (i, rep) ∈ p.log ∧ result t.call rep = .ok a
  faultless : ∀ i t r, p.threads[i]? = some t → t.program.result? = some r → t.faulty = false →
    ¬ refused t.call → ∃ rep, (i, rep) ∈ p.log ∧ r = result t.call rep
  ordered : ∀ steps p', E.machine.exec p steps = some p' → ∃ more, p'.log = p.log ++ more ∧
    ∀ i t, p.threads[i]? = some t → t.Returned → ∀ entry ∈ more, entry.1 ≠ i
  returns : ∀ i t, p.threads[i]? = some t → ∃ n p' t',
    E.machine.exec p (List.replicate n (.ask i .done)) = some p' ∧ p'.threads[i]? = some t' ∧
      t'.Returned ∧ t'.call = t.call ∧ t'.faulty = t.faulty

section Linearized

variable {E} {D : C → Discipline F γ} {Q : C → γ → Bool → Except String α → Prop}
  {reply? : γ → Option Rep} {Inv : σ → List (C × γ) → Prop} {p : Pool F α C γ Rep σ}

/-- A program that is over has ended in `Q`. -/
theorem Linear.ends (h : E.Linear D Q reply? Inv p) {i : Nat} {t : Thread F α C γ}
    (ht : p.threads[i]? = some t) {r : Except String α} (hr : t.program.result? = some r) :
    Q t.call t.phase t.faulty r := by
  have hkeeps := h.keeps t (List.mem_of_getElem? ht)
  cases hprog : t.program with
  | done a =>
    rw [hprog] at hr hkeeps
    cases hr
    exact hkeeps
  | fail message =>
    rw [hprog] at hr hkeeps
    cases hr
    exact hkeeps
  | ask op next =>
    rw [hprog] at hr
    cases hr

theorem Linear.linearized (h : E.Linear D Q reply? Inv p) {result : C → Rep → Except String α}
    {refused : C → Prop}
    (hok : ∀ c g faulty a, Q c g faulty (.ok a) →
      ∃ rep, reply? g = some rep ∧ result c rep = .ok a)
    (hexact : ∀ c g r, Q c g false r → ¬ refused c →
      ∃ rep, reply? g = some rep ∧ r = result c rep) :
    E.Linearized result refused p where
  legal := h.legal
  once := h.once
  ok i t a ht ha := by
    obtain ⟨rep, hrep, hresult⟩ := hok _ _ _ a (h.ends ht (by rw [ha]; rfl))
    exact ⟨rep, (h.logged i rep).mpr ⟨t, ht, hrep⟩, hresult⟩
  faultless i t r ht hr hfaulty hrefused := by
    have hends := h.ends ht hr
    rw [hfaulty] at hends
    obtain ⟨rep, hrep, hresult⟩ := hexact _ _ _ hends hrefused
    exact ⟨rep, (h.logged i rep).mpr ⟨t, ht, hrep⟩, hresult⟩
  ordered steps p' hexec := by
    obtain ⟨more, hmore, hkept⟩ := log_grows hexec
    exact ⟨more, hmore, fun i t ht hreturned => (hkept i t ht hreturned).2⟩
  returns _ _ ht := call_returns ht

end Linearized

end Setting

end Lib
