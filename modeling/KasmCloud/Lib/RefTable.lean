/-
KasmCloud.Lib.RefTable — reference-counted directories, and hash maps that
represent a table through an encoding of its keys.

* `RefTable κ ν` says who holds a reference to each key. `acquire` and
  `release` are its two operations, `RefTable.after` the table a list of
  them leads to.
* `Represents enc K m t` says that the hash map `m`, addressed through
  `enc`, holds exactly the partial function `t` on the keys `K`. Inserting
  and erasing keep it as long as `enc` is injective on `K`.
-/
import KasmCloud.Lib.Tables
import Mathlib.Data.Set.Function
import Mathlib.Data.Finset.Basic

namespace Lib

/-! ## Reference tables -/

/-- Who holds a reference to each key. -/
abbrev RefTable (κ ν : Type) := κ → Finset ν

namespace RefTable

variable {κ ν : Type} [DecidableEq κ] [DecidableEq ν]

inductive Op (κ ν : Type) where
  | acquire (k : κ) (n : ν)
  | release (k : κ) (n : ν)

def acquire (t : RefTable κ ν) (k : κ) (n : ν) : RefTable κ ν :=
  Function.update t k (insert n (t k))

def release (t : RefTable κ ν) (k : κ) (n : ν) : RefTable κ ν :=
  Function.update t k ((t k).erase n)

def apply (t : RefTable κ ν) : Op κ ν → RefTable κ ν
  | .acquire k n => t.acquire k n
  | .release k n => t.release k n

/-- The table after the operations, from the empty one. -/
def after (ops : List (Op κ ν)) : RefTable κ ν :=
  ops.foldl apply fun _ => ∅

@[simp] theorem after_nil : after ([] : List (Op κ ν)) = fun _ => ∅ := rfl

@[simp] theorem after_snoc (ops : List (Op κ ν)) (op : Op κ ν) :
    after (ops ++ [op]) = (after ops).apply op := by
  simp [after]

@[simp] theorem acquire_same (t : RefTable κ ν) (k : κ) (n : ν) :
    t.acquire k n k = insert n (t k) := by
  simp [acquire]

@[simp] theorem release_same (t : RefTable κ ν) (k : κ) (n : ν) :
    t.release k n k = (t k).erase n := by
  simp [release]

theorem acquire_ne {t : RefTable κ ν} {k k' : κ} (h : k' ≠ k) (n : ν) :
    t.acquire k n k' = t k' := by
  simp [acquire, h]

theorem release_ne {t : RefTable κ ν} {k k' : κ} (h : k' ≠ k) (n : ν) :
    t.release k n k' = t k' := by
  simp [release, h]

/-- The keys in use, each with the value `f` gives it and its holders. -/
def view {α : Type} (t : RefTable κ ν) (f : κ → Finset ν → α) (k : κ) : Option α :=
  if t k = ∅ then none else some (f k (t k))

omit [DecidableEq κ] in
theorem view_eq_some {α : Type} {t : RefTable κ ν} {f : κ → Finset ν → α} {k : κ} {a : α} :
    t.view f k = some a ↔ t k ≠ ∅ ∧ f k (t k) = a := by
  unfold view
  split
  · simp [*]
  · simp [*]

/-- Taking a reference puts the key in use. -/
theorem view_acquire {α : Type} (t : RefTable κ ν) (f : κ → Finset ν → α) (k : κ) (n : ν) :
    (t.acquire k n).view f = Function.update (t.view f) k (some (f k (insert n (t k)))) := by
  funext k'
  by_cases h : k' = k
  · subst h; simp [view]
  · simp [view, acquire_ne h, h]

/-- Dropping a reference that is not the last keeps the key in use. -/
theorem view_release_of_ne {α : Type} {t : RefTable κ ν} {k : κ} {n : ν}
    (hne : (t k).erase n ≠ ∅) (f : κ → Finset ν → α) :
    (t.release k n).view f = Function.update (t.view f) k (some (f k ((t k).erase n))) := by
  funext k'
  by_cases h : k' = k
  · subst h; simp [view, hne]
  · simp [view, release_ne h, h]

/-- Dropping the last reference takes the key out of use. -/
theorem view_release_of_eq {α : Type} {t : RefTable κ ν} {k : κ} {n : ν}
    (heq : (t k).erase n = ∅) (f : κ → Finset ν → α) :
    (t.release k n).view f = Function.update (t.view f) k none := by
  funext k'
  by_cases h : k' = k
  · subst h; simp [view, heq]
  · simp [view, release_ne h, h]

end RefTable

/-! ## Tables addressed through an encoding -/

/-- The hash map `m`, addressed by `enc`, is the partial function `t` on the
keys `K`, and has no entry beyond. -/
structure Represents {τ κ α : Type} [DecidableEq κ] (enc : τ → κ) (K : Set τ)
    (m : HashMap κ α) (t : τ → Option α) : Prop where
  lookup : ∀ k ∈ K, m.lookup (enc k) = t k
  covered : ∀ c a, m.lookup c = some a → ∃ k ∈ K, enc k = c

namespace Represents

variable {τ κ α : Type} [DecidableEq τ] [DecidableEq κ] {enc : τ → κ} {K : Set τ}
  {m : HashMap κ α} {t : τ → Option α}

omit [DecidableEq τ] in
theorem empty : Represents enc K (∅ : HashMap κ α) fun _ => none where
  lookup := by simp
  covered := by simp

omit [DecidableEq τ] in
/-- The stored values are the values of the table. -/
theorem mem_values_iff (h : Represents enc K m t) (a : α) :
    a ∈ m.values ↔ ∃ k ∈ K, t k = some a := by
  rw [HashMap.mem_values]
  constructor
  · rintro ⟨c, hc⟩
    obtain ⟨k, hk, rfl⟩ := h.covered c a hc
    exact ⟨k, hk, by rw [← h.lookup k hk]; exact hc⟩
  · rintro ⟨k, hk, ht⟩
    exact ⟨enc k, by rw [h.lookup k hk]; exact ht⟩

/-- A map that differs at the code of one key represents the table that differs
at that key. -/
theorem update (h : Represents enc K m t) (hinj : Set.InjOn enc K) {k : τ} (hk : k ∈ K)
    {m' : HashMap κ α} {x : Option α}
    (hm : ∀ c, m'.lookup c = if c = enc k then x else m.lookup c) :
    Represents enc K m' (Function.update t k x) where
  lookup := by
    intro k' hk'
    rw [hm]
    by_cases heq : k' = k
    · subst heq; simp
    · have hne : enc k' ≠ enc k := fun he => heq (hinj hk' hk he)
      simp [hne, heq, h.lookup k' hk']
  covered := by
    intro c b hc
    rw [hm] at hc
    split at hc
    · rename_i heq
      exact ⟨k, hk, heq.symm⟩
    · exact h.covered c b hc

theorem insert (h : Represents enc K m t) (hinj : Set.InjOn enc K) {k : τ} (hk : k ∈ K) (a : α) :
    Represents enc K (m.insert (enc k) a) (Function.update t k (some a)) :=
  h.update hinj hk fun c => HashMap.lookup_insert_if m (enc k) c a

theorem erase (h : Represents enc K m t) (hinj : Set.InjOn enc K) {k : τ} (hk : k ∈ K) :
    Represents enc K (m.erase (enc k)) (Function.update t k none) :=
  h.update hinj hk fun c => HashMap.lookup_erase_if m (enc k) c

end Represents

end Lib
