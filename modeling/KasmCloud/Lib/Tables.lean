/-
KasmCloud.Lib.Tables — hash maps and shared cells.

* `HashMap κ α` is Mathlib's association list with distinct keys. The list
  order stands for the iteration order a hash map happens to have, so a
  result that must not depend on it is stated through `lookup` only.
* `Heap α` is the store behind reference-counted pointers: a cell is
  allocated once, is named by its `Ref` from then on, and never moves.

Both come with the lookup equations the proofs above them rewrite with.
-/
import Mathlib.Data.List.AList
import Mathlib.Data.List.Nodup

namespace Lib

/-! ## Hash maps -/

/-- A hash map: an association list without repeated keys. -/
abbrev HashMap (κ α : Type) := AList fun _ : κ => α

namespace HashMap

variable {κ α : Type} [DecidableEq κ]

/-- The stored values, in iteration order. -/
def values (m : HashMap κ α) : List α := m.entries.map Sigma.snd

/-- No key is present. -/
def isEmpty (m : HashMap κ α) : Bool := m.entries.isEmpty

theorem mem_values {m : HashMap κ α} {a : α} :
    a ∈ m.values ↔ ∃ k, m.lookup k = some a := by
  constructor
  · intro h
    obtain ⟨⟨k, b⟩, hb, rfl⟩ := List.mem_map.mp h
    exact ⟨k, AList.mem_lookup_iff.mpr hb⟩
  · rintro ⟨k, hk⟩
    exact List.mem_map.mpr ⟨⟨k, a⟩, AList.mem_lookup_iff.mp hk, rfl⟩

theorem isEmpty_iff {m : HashMap κ α} : m.isEmpty = true ↔ ∀ k, m.lookup k = none := by
  constructor
  · intro h k
    refine AList.lookup_eq_none.mpr fun hk => ?_
    have hnil : m.entries = [] := List.isEmpty_iff.mp h
    simp [AList.mem_keys, AList.keys, hnil] at hk
  · intro h
    refine List.isEmpty_iff.mpr (List.eq_nil_iff_forall_not_mem.mpr ?_)
    rintro ⟨k, a⟩ hmem
    have hk : m.lookup k = some a := AList.mem_lookup_iff.mpr hmem
    rw [h k] at hk
    cases hk

/-- Lookup after an insertion, by the one test that decides it. -/
theorem lookup_insert_if (m : HashMap κ α) (k k' : κ) (a : α) :
    (m.insert k a).lookup k' = if k' = k then some a else m.lookup k' := by
  by_cases h : k' = k
  · subst h; simp
  · simp [h]

/-- Lookup after an erasure, by the one test that decides it. -/
theorem lookup_erase_if (m : HashMap κ α) (k k' : κ) :
    (m.erase k).lookup k' = if k' = k then none else m.lookup k' := by
  by_cases h : k' = k
  · subst h; simp
  · simp [h]

/-- A key that is free after an insertion was free before. -/
theorem lookup_of_insert_none {m : HashMap κ α} {k k' : κ} {a : α}
    (h : (m.insert k a).lookup k' = none) : m.lookup k' = none := by
  rw [lookup_insert_if] at h
  split at h
  · cases h
  · exact h

/-- An insertion at a free key adds one value. -/
theorem mem_values_insert {m : HashMap κ α} {k : κ} (hfree : m.lookup k = none) {a b : α} :
    b ∈ values (m.insert k a) ↔ b = a ∨ b ∈ m.values := by
  simp only [mem_values, lookup_insert_if]
  constructor
  · rintro ⟨k', hk'⟩
    split at hk'
    · exact .inl (Option.some.inj hk').symm
    · exact .inr ⟨k', hk'⟩
  · rintro (rfl | ⟨k', hk'⟩)
    · exact ⟨k, by simp⟩
    · refine ⟨k', ?_⟩
      rw [if_neg]
      · exact hk'
      · rintro rfl
        rw [hfree] at hk'
        cases hk'

/-- Lists that are made of the entries, and share nothing between two keys. -/
theorem nodup_flatMap {β : Type} {m : HashMap κ α} {f : κ → α → List β}
    (hnodup : ∀ k a, m.lookup k = some a → (f k a).Nodup)
    (hapart : ∀ k k' a a' b, m.lookup k = some a → m.lookup k' = some a' → b ∈ f k a →
      b ∈ f k' a' → k = k') : (m.entries.flatMap fun e => f e.1 e.2).Nodup := by
  have hlookup : ∀ e ∈ m.entries, m.lookup e.1 = some e.2 := fun _ => AList.mem_lookup_iff.mpr
  refine List.nodup_flatMap.mpr ⟨fun e he => hnodup e.1 e.2 (hlookup e he), ?_⟩
  refine List.Pairwise.imp_of_mem (fun he he' hne => ?_) m.nodupKeys.pairwise_ne
  exact List.disjoint_left.mpr fun b hb hb' =>
    hne (hapart _ _ _ _ b (hlookup _ he) (hlookup _ he') hb hb')

end HashMap

/-! ## Shared cells -/

/-- The name of an allocated cell. -/
abbrev Ref := Nat

/-- Cells in allocation order. -/
structure Heap (α : Type) where
  cells : List α
  deriving DecidableEq, Repr

namespace Heap

variable {α : Type}

/-- No cell is allocated. -/
def empty : Heap α := ⟨[]⟩

/-- The name the next allocation will return. -/
def next (h : Heap α) : Ref := h.cells.length

def alloc (h : Heap α) (a : α) : Heap α := ⟨h.cells ++ [a]⟩

def get? (h : Heap α) (r : Ref) : Option α := h.cells[r]?

def modify (h : Heap α) (r : Ref) (f : α → α) : Heap α := ⟨h.cells.modify r f⟩

@[simp] theorem get?_empty (r : Ref) : (empty : Heap α).get? r = none := rfl

@[simp] theorem next_modify (h : Heap α) (r : Ref) (f : α → α) :
    (h.modify r f).next = h.next := by
  simp [next, modify]

@[simp] theorem next_alloc (h : Heap α) (a : α) : (h.alloc a).next = h.next + 1 := by
  simp [next, alloc]

theorem lt_next_of_get? {h : Heap α} {r : Ref} {a : α} (hr : h.get? r = some a) :
    r < h.next :=
  (List.getElem?_eq_some_iff.mp hr).1

/-- The cell the next allocation will use is not in use. -/
@[simp] theorem get?_next (h : Heap α) : h.get? h.next = none := by
  simp [get?, next]

/-- The cells in use are those below the next one. -/
theorem exists_get?_iff {h : Heap α} {r : Ref} : (∃ a, h.get? r = some a) ↔ r < h.next := by
  constructor
  · rintro ⟨a, ha⟩
    exact lt_next_of_get? ha
  · intro hlt
    exact ⟨h.cells[r], List.getElem?_eq_getElem hlt⟩

theorem get?_alloc (h : Heap α) (a : α) (r : Ref) :
    (h.alloc a).get? r = if r = h.next then some a else h.get? r := by
  by_cases hr : r = h.next
  · subst hr; simp [get?, alloc, next]
  · rw [if_neg hr]
    rcases Nat.lt_or_ge r h.next with hlt | hge
    · exact List.getElem?_append_left hlt
    · have hgt : h.cells.length < r := lt_of_le_of_ne hge (Ne.symm hr)
      have hlong : (h.cells ++ [a]).length ≤ r := by simp; omega
      simp only [get?, alloc]
      rw [List.getElem?_eq_none hlong, List.getElem?_eq_none hge]

theorem get?_modify (h : Heap α) (r r' : Ref) (f : α → α) :
    (h.modify r f).get? r' = if r' = r then (h.get? r).map f else h.get? r' := by
  by_cases hr : r' = r
  · subst hr; simp [get?, modify]
  · simp [get?, modify, hr, Ne.symm hr]

end Heap

end Lib
