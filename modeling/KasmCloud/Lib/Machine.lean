/-
KasmCloud.Lib.Machine — labelled machines, their runs and the rules for
proving facts about every run.

A `Machine` has one start state and a partial step function; a label that
is not enabled has no successor. `RunWhen M ok tr s` says that the labels
`tr`, taken in order, lead from the start state to `s` and that `ok` held
of every state and label on the way; `Run` is the case without a
restriction.

The rules:

* `RunWhen.induction` — what holds at the start and is kept by every
  allowed step holds of every run (with the labels taken so far in hand);
* `RunWhen.invariant` — the same for a predicate of the state alone;
* `runWhen_always_iff`, `runWhen_within_iff` — when a condition on the steps
  is exact for a predicate of the states;
* `runWhen_congr` — conditions that agree on reachable states allow the
  same runs;
* `runWhen_of_execWhen`, `run_of_exec` — a computed execution is a run.
-/
import Mathlib.Data.List.Basic
import Mathlib.Tactic.Common

namespace Lib

/-- A start state and a partial step function. -/
structure Machine (σ ι : Type) where
  init : σ
  step : σ → ι → Option σ

namespace Machine

variable {σ ι : Type} (M : Machine σ ι)

/-- The labels `tr` lead to `s`, with `ok` true before every step. -/
inductive RunWhen (ok : σ → ι → Prop) : List ι → σ → Prop where
  | nil : RunWhen ok [] M.init
  | snoc {tr : List ι} {s s' : σ} {l : ι} :
      RunWhen ok tr s → ok s l → M.step s l = some s' → RunWhen ok (tr ++ [l]) s'

/-- A run without a restriction on its steps. -/
abbrev Run : List ι → σ → Prop := M.RunWhen fun _ _ => True

/-- Some run leads to `s`. -/
def Reachable (s : σ) : Prop := ∃ tr, M.Run tr s

variable {M}

theorem RunWhen.mono {ok ok' : σ → ι → Prop} (himp : ∀ s l, ok s l → ok' s l)
    {tr : List ι} {s : σ} (h : M.RunWhen ok tr s) : M.RunWhen ok' tr s := by
  induction h with
  | nil => exact .nil
  | snoc _ hok hs ih => exact .snoc ih (himp _ _ hok) hs

/-- Forgetting the restriction. -/
theorem RunWhen.run {ok : σ → ι → Prop} {tr : List ι} {s : σ} (h : M.RunWhen ok tr s) :
    M.Run tr s :=
  h.mono fun _ _ _ => trivial

theorem RunWhen.reachable {ok : σ → ι → Prop} {tr : List ι} {s : σ}
    (h : M.RunWhen ok tr s) : M.Reachable s :=
  ⟨tr, h.run⟩

/-- The induction rule, with the labels taken so far. -/
theorem RunWhen.induction {ok : σ → ι → Prop} {I : List ι → σ → Prop}
    (hinit : I [] M.init)
    (hstep : ∀ tr s l s', M.RunWhen ok tr s → I tr s → ok s l → M.step s l = some s' →
      I (tr ++ [l]) s')
    {tr : List ι} {s : σ} (h : M.RunWhen ok tr s) : I tr s := by
  induction h with
  | nil => exact hinit
  | snoc hrun hok hs ih => exact hstep _ _ _ _ hrun ih hok hs

/-- The invariant rule. -/
theorem RunWhen.invariant {ok : σ → ι → Prop} {I : σ → Prop} (hinit : I M.init)
    (hstep : ∀ s l s', I s → ok s l → M.step s l = some s' → I s')
    {tr : List ι} {s : σ} (h : M.RunWhen ok tr s) : I s :=
  h.induction (I := fun _ s => I s) hinit fun _ s l s' _ hI hok hs => hstep s l s' hI hok hs

/-- The invariant rule for unrestricted runs. -/
theorem Reachable.invariant {I : σ → Prop} (hinit : I M.init)
    (hstep : ∀ s l s', I s → M.step s l = some s' → I s')
    {s : σ} (h : M.Reachable s) : I s := by
  obtain ⟨_, hrun⟩ := h
  exact hrun.invariant hinit fun s l s' hI _ hs => hstep s l s' hI hs

/-- Among the runs whose steps satisfy `base`, those on which `P` never fails
are exactly those whose steps are allowed, when allowed runs end in `P`, and
a step from `P` to `P` is allowed. -/
theorem runWhen_within_iff {base ok : σ → ι → Prop} {P : σ → Prop}
    (hsafe : ∀ tr s, M.RunWhen (fun s l => base s l ∧ ok s l) tr s → P s)
    (hexact : ∀ s l s', M.Reachable s → P s → base s l → M.step s l = some s' → P s' → ok s l)
    {tr : List ι} {s : σ} :
    M.RunWhen (fun s l => base s l ∧ P s) tr s ∧ P s ↔
      M.RunWhen (fun s l => base s l ∧ ok s l) tr s := by
  constructor
  · rintro ⟨hrun, hP⟩
    induction hrun with
    | nil => exact .nil
    | snoc hrun hok hs ih =>
      exact .snoc (ih hok.2) ⟨hok.1, hexact _ _ _ hrun.reachable hok.2 hok.1 hs hP⟩ hs
  · intro hrun
    refine ⟨?_, hsafe _ _ hrun⟩
    induction hrun with
    | nil => exact .nil
    | snoc hrun hok hs ih => exact .snoc ih ⟨hok.1, hsafe _ _ hrun⟩ hs

/-- The same for all runs. -/
theorem runWhen_always_iff {ok : σ → ι → Prop} {P : σ → Prop}
    (hsafe : ∀ tr s, M.RunWhen ok tr s → P s)
    (hexact : ∀ s l s', M.Reachable s → P s → M.step s l = some s' → P s' → ok s l)
    {tr : List ι} {s : σ} :
    M.RunWhen (fun s _ => P s) tr s ∧ P s ↔ M.RunWhen ok tr s := by
  have hall : M.RunWhen (fun s _ => True ∧ P s) tr s ∧ P s ↔
      M.RunWhen (fun s l => True ∧ ok s l) tr s :=
    runWhen_within_iff (fun tr s h => hsafe tr s (h.mono fun _ _ h => h.2))
      fun s l s' hs hP _ hstep => hexact s l s' hs hP hstep
  simpa using hall

/-- Two conditions that say the same of reachable states allow the same runs. -/
theorem runWhen_congr {ok ok' : σ → ι → Prop} (h : ∀ s l, M.Reachable s → (ok s l ↔ ok' s l))
    {tr : List ι} {s : σ} : M.RunWhen ok tr s ↔ M.RunWhen ok' tr s := by
  constructor
  · intro hrun
    induction hrun with
    | nil => exact .nil
    | snoc hrun hok hs ih => exact .snoc ih ((h _ _ hrun.reachable).mp hok) hs
  · intro hrun
    induction hrun with
    | nil => exact .nil
    | snoc hrun hok hs ih => exact .snoc ih ((h _ _ hrun.reachable).mpr hok) hs

/-! ## Computed executions -/

variable (M) in
/-- Take the labels in order, if every one is allowed and enabled. -/
def execWhen (ok : σ → ι → Bool) : σ → List ι → Option σ
  | s, [] => some s
  | s, l :: ls => if ok s l then (M.step s l).bind fun s' => execWhen ok s' ls else none

variable (M) in
/-- Take the labels in order, if every one is enabled. -/
def exec (s : σ) (ls : List ι) : Option σ := M.execWhen (fun _ _ => true) s ls

@[simp] theorem exec_nil (s : σ) : M.exec s [] = some s := rfl

@[simp] theorem exec_cons (s : σ) (l : ι) (ls : List ι) :
    M.exec s (l :: ls) = (M.step s l).bind fun s' => M.exec s' ls := rfl

/-- The invariant rule for a computed execution from any state. -/
theorem exec_invariant {I : σ → Prop} (hstep : ∀ s l s', I s → M.step s l = some s' → I s')
    {ls : List ι} {s s' : σ} (h : M.exec s ls = some s') (hI : I s) : I s' := by
  induction ls generalizing s with
  | nil =>
    cases h
    exact hI
  | cons l ls ih =>
    obtain ⟨s₁, hs, hrest⟩ := Option.bind_eq_some_iff.mp h
    exact ih hrest (hstep s l s₁ hI hs)

theorem runWhen_execWhen {ok : σ → ι → Bool} {tr ls : List ι} {s s' : σ}
    (hrun : M.RunWhen (fun s l => ok s l = true) tr s) (h : M.execWhen ok s ls = some s') :
    M.RunWhen (fun s l => ok s l = true) (tr ++ ls) s' := by
  induction ls generalizing tr s with
  | nil =>
    cases h
    simpa using hrun
  | cons l ls ih =>
    unfold execWhen at h
    split at h
    · rename_i hok
      obtain ⟨s₁, hs, hrest⟩ := Option.bind_eq_some_iff.mp h
      have hnext : M.RunWhen (fun s l => ok s l = true) (tr ++ [l]) s₁ := .snoc hrun hok hs
      simpa using ih hnext hrest
    · cases h

/-- A run goes on with a computed execution of labels that are allowed in
every state. -/
theorem RunWhen.append_exec {ok : σ → ι → Prop} {tr ls : List ι} {s s' : σ} (h : M.RunWhen ok tr s)
    (hok : ∀ l ∈ ls, ∀ s, ok s l) (hs : M.exec s ls = some s') : M.RunWhen ok (tr ++ ls) s' := by
  induction ls generalizing tr s with
  | nil =>
    cases hs
    simpa using h
  | cons l ls ih =>
    obtain ⟨s₁, hstep, hrest⟩ := Option.bind_eq_some_iff.mp hs
    have hnext : M.RunWhen ok (tr ++ [l]) s₁ := .snoc h (hok l List.mem_cons_self s) hstep
    simpa using ih hnext (fun l' hl' => hok l' (List.mem_cons_of_mem l hl')) hrest

/-- A computed execution of allowed steps from the start state is a run of
allowed steps. -/
theorem runWhen_of_execWhen {ok : σ → ι → Bool} {ls : List ι} {s : σ}
    (h : M.execWhen ok M.init ls = some s) : M.RunWhen (fun s l => ok s l = true) ls s := by
  have hnil : M.RunWhen (fun s l => ok s l = true) [] M.init := .nil
  simpa using runWhen_execWhen hnil h

/-- What is executed from a reachable state is reachable. -/
theorem Reachable.exec {ls : List ι} {s s' : σ} (h : M.Reachable s)
    (hs : M.exec s ls = some s') : M.Reachable s' := by
  obtain ⟨tr, hrun⟩ := h
  have hall : M.RunWhen (fun _ _ => true = true) tr s := hrun.mono fun _ _ _ => rfl
  exact (runWhen_execWhen hall hs).reachable

/-- A computed execution from the start state is a run. -/
theorem run_of_exec {ls : List ι} {s : σ} (h : M.exec M.init ls = some s) : M.Run ls s :=
  (runWhen_of_execWhen h).run

end Machine

end Lib
