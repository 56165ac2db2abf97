/-
KasmCloud.Lib.Writes — a table that several parties write.

A `Write` names the keys it changes and the value it leaves there (`none`
removes). `valueAfter k ws` is what the table holds at `k` after the writes
`ws`, starting empty.

The question is when one party's own writes decide what it reads, whatever
the others write. `Variant x ws ws'` changes the writes of everyone but `x`
at will; `Alone x k ws` says that every foreign write is followed by a write
of `x` at `k`. The two are matched by `valueAfter_variant_iff`.
-/
import Mathlib.Data.List.Forall2
import Mathlib.Tactic.Common

namespace Lib

structure Write (ω κ α : Type) where
  who : ω
  keys : List κ
  value : Option α
  deriving DecidableEq, Repr

variable {ω κ α : Type}

/-- What one write leaves at `k`, where `v` stood. -/
def Write.effect [DecidableEq κ] (k : κ) (v : Option α) (w : Write ω κ α) : Option α :=
  if k ∈ w.keys then w.value else v

/-- What the table holds at `k` after some writes, where `v` stood. -/
def valueFrom [DecidableEq κ] (k : κ) (v : Option α) (ws : List (Write ω κ α)) : Option α :=
  ws.foldl (Write.effect k) v

/-- What an empty table holds at `k` after some writes. -/
def valueAfter [DecidableEq κ] (k : κ) (ws : List (Write ω κ α)) : Option α := valueFrom k none ws

/-- The writes of one party. -/
def ownWrites [DecidableEq ω] (x : ω) (ws : List (Write ω κ α)) : List (Write ω κ α) :=
  ws.filter fun w => w.who = x

/-- Some write of `x` names `k`. -/
def Rewritten (x : ω) (k : κ) (ws : List (Write ω κ α)) : Prop :=
  ∃ w ∈ ws, w.who = x ∧ k ∈ w.keys

/-- Every foreign write is followed by a write of `x` at `k`. -/
def Alone (x : ω) (k : κ) : List (Write ω κ α) → Prop
  | [] => True
  | w :: ws => (w.who = x ∨ Rewritten x k ws) ∧ Alone x k ws

/-- The same parties write in the same order, and `x` writes the same. -/
def Variant (x : ω) (ws ws' : List (Write ω κ α)) : Prop :=
  List.Forall₂ (fun w w' => w'.who = w.who ∧ (w.who = x → w' = w)) ws ws'

instance Rewritten.decidable [DecidableEq ω] [DecidableEq κ] (x : ω) (k : κ) (ws : List (Write ω κ α)) :
    Decidable (Rewritten x k ws) :=
  inferInstanceAs (Decidable (∃ w ∈ ws, w.who = x ∧ k ∈ w.keys))

instance Alone.decidable [DecidableEq ω] [DecidableEq κ] (x : ω) (k : κ) :
    (ws : List (Write ω κ α)) → Decidable (Alone x k ws)
  | [] => isTrue trivial
  | w :: ws =>
    have := Alone.decidable x k ws
    inferInstanceAs (Decidable ((w.who = x ∨ Rewritten x k ws) ∧ Alone x k ws))

section Basics

variable [DecidableEq κ] {x : ω} {k : κ} {v : Option α} {w : Write ω κ α} {ws ws' : List (Write ω κ α)}

@[simp] theorem valueFrom_nil : valueFrom k v ([] : List (Write ω κ α)) = v := rfl

@[simp] theorem valueFrom_cons : valueFrom k v (w :: ws) = valueFrom k (w.effect k v) ws := rfl

@[simp] theorem valueAfter_snoc :
    valueAfter k (ws ++ [w]) = w.effect k (valueAfter k ws) := by
  simp [valueAfter, valueFrom]

omit [DecidableEq κ]

@[simp] theorem Rewritten.cons_iff :
    Rewritten x k (w :: ws) ↔ w.who = x ∧ k ∈ w.keys ∨ Rewritten x k ws := by
  simp [Rewritten]

@[simp] theorem not_rewritten_nil : ¬ Rewritten x k ([] : List (Write ω κ α)) := by
  simp [Rewritten]

theorem Variant.refl (x : ω) (ws : List (Write ω κ α)) : Variant x ws ws :=
  List.forall₂_same.mpr fun _ _ => ⟨rfl, fun _ => rfl⟩

theorem Variant.append {us us' : List (Write ω κ α)} (h : Variant x ws ws')
    (hlast : Variant x us us') : Variant x (ws ++ us) (ws' ++ us') :=
  List.rel_append h hlast

end Basics

variable [DecidableEq ω] [DecidableEq κ]

/-! ## Alone is enough -/

/-- Two tables that agree at `k`, or will be made to agree by a write of `x`,
agree after any variant of the writes. -/
theorem valueFrom_variant {x : ω} {k : κ} {ws ws' : List (Write ω κ α)} (halone : Alone x k ws)
    (hvariant : Variant x ws ws') {v v' : Option α} (hagree : v = v' ∨ Rewritten x k ws) :
    valueFrom k v ws' = valueFrom k v' (ownWrites x ws) := by
  induction hvariant generalizing v v' with
  | nil =>
    rcases hagree with rfl | hrewritten
    · rfl
    · exact absurd hrewritten not_rewritten_nil
  | @cons w w' ws ws' hw _ ih =>
    obtain ⟨hfirst, hrest⟩ := halone
    by_cases hown : w.who = x
    · have hsame : w' = w := hw.2 hown
      have hkept : ownWrites x (w :: ws) = w :: ownWrites x ws := by simp [ownWrites, hown]
      rw [hsame, hkept, valueFrom_cons, valueFrom_cons]
      refine ih hrest ?_
      -- a write of `x` at `k` settles the matter; another one keeps it open
      by_cases hk : k ∈ w.keys
      · left
        simp [Write.effect, hk]
      · rcases hagree with rfl | hrewritten
        · exact .inl rfl
        · rw [Rewritten.cons_iff] at hrewritten
          exact .inr (hrewritten.resolve_left fun h => hk h.2)
    · have hdropped : ownWrites x (w :: ws) = ownWrites x ws := by simp [ownWrites, hown]
      rw [hdropped, valueFrom_cons]
      exact ih hrest (.inr (hfirst.resolve_left hown))

/-! ## Alone is necessary -/

omit [DecidableEq ω] in
theorem valueFrom_eq_of_own {x : ω} {k : κ} {ws : List (Write ω κ α)} (halone : Alone x k ws)
    (hquiet : ¬ Rewritten x k ws) (v : Option α) : valueFrom k v ws = v := by
  induction ws with
  | nil => rfl
  | cons w ws ih =>
    rw [Rewritten.cons_iff, not_or] at hquiet
    have hown : w.who = x := halone.1.resolve_right hquiet.2
    have hkeeps : w.effect k v = v := if_neg fun hk => hquiet.1 ⟨hown, hk⟩
    rw [valueFrom_cons, hkeeps]
    exact ih halone.2 hquiet.2

/-- Where a foreign write is not followed by a write of `x` at `k`, the others
can leave any value there. -/
theorem exists_variant_of_not_alone {x : ω} {k : κ} {ws : List (Write ω κ α)}
    (h : ¬ Alone x k ws) (v u : Option α) :
    ∃ ws', Variant x ws ws' ∧ valueFrom k v ws' = u := by
  induction ws generalizing v with
  | nil => exact absurd trivial h
  | cons w ws ih =>
    by_cases hrest : Alone x k ws
    · have hlast : ¬ (w.who = x ∨ Rewritten x k ws) := fun hfirst => h ⟨hfirst, hrest⟩
      rw [not_or] at hlast
      refine ⟨⟨w.who, [k], u⟩ :: ws, .cons ⟨rfl, fun hown => absurd hown hlast.1⟩ (Variant.refl x ws), ?_⟩
      have hput : (⟨w.who, [k], u⟩ : Write ω κ α).effect k v = u := by simp [Write.effect]
      rw [valueFrom_cons, hput]
      exact valueFrom_eq_of_own hrest hlast.2 u
    · obtain ⟨ws', hvariant, hvalue⟩ := ih hrest (w.effect k v)
      exact ⟨w :: ws', .cons ⟨rfl, fun _ => rfl⟩ hvariant, hvalue⟩

/-- What `x` finds at `k` is what its own writes put there, whatever the
others write, exactly if `x` is alone at `k`. -/
theorem valueAfter_variant_iff [Inhabited α] (x : ω) (k : κ) (ws : List (Write ω κ α)) :
    (∀ ws', Variant x ws ws' → valueAfter k ws' = valueAfter k (ownWrites x ws)) ↔
      Alone x k ws := by
  constructor
  · intro hall
    by_contra hnot
    -- an outcome other than the one the own writes lead to
    obtain ⟨u, hu⟩ : ∃ u : Option α, u ≠ valueAfter k (ownWrites x ws) := by
      cases valueAfter k (ownWrites x ws) with
      | none => exact ⟨some default, by simp⟩
      | some a => exact ⟨none, by simp⟩
    obtain ⟨ws', hvariant, hvalue⟩ := exists_variant_of_not_alone hnot none u
    exact hu (hvalue ▸ hall ws' hvariant)
  · intro halone ws' hvariant
    exact valueFrom_variant halone hvariant (.inl rfl)

end Lib
