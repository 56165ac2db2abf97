/-
KasmCloud.Lib.Dotted — texts put together with separators and suffixes.

A part without a dot can be read back from the text it opens; two texts with
suffixes that end in different characters differ.
-/
import Mathlib.Data.List.Basic
import Mathlib.Tactic.Common

namespace Lib

/-- The text has no dot. -/
def Dotless (s : String) : Prop := '.' ∉ s.toList

instance instDecidableDotless (s : String) : Decidable (Dotless s) :=
  inferInstanceAs (Decidable ('.' ∉ s.toList))

/-- The parts before and after the first separator. -/
theorem separated_inj {α : Type} {x : α} {a b s t : List α} (ha : x ∉ a) (hb : x ∉ b)
    (h : a ++ x :: s = b ++ x :: t) : a = b ∧ s = t := by
  induction a generalizing b with
  | nil =>
    cases b with
    | nil => exact ⟨rfl, (List.cons.inj h).2⟩
    | cons y b => exact absurd (List.mem_cons.mpr (.inl (List.cons.inj h).1)) hb
  | cons y a ih =>
    cases b with
    | nil => exact absurd (List.mem_cons.mpr (.inl (List.cons.inj h).1.symm)) ha
    | cons z b =>
      obtain ⟨rfl, htail⟩ := List.cons.inj h
      obtain ⟨rfl, hrest⟩ := ih (fun hx => ha (List.mem_cons_of_mem _ hx))
        (fun hx => hb (List.mem_cons_of_mem _ hx)) htail
      exact ⟨rfl, hrest⟩

/-- A dotless part in front of a dot is determined, and so is the rest. -/
theorem Dotless.append_dot_inj {a b : String} (ha : Dotless a) (hb : Dotless b) {s t : String} :
    a ++ "." ++ s = b ++ "." ++ t ↔ a = b ∧ s = t := by
  constructor
  · intro h
    have hlist := congrArg String.toList h
    simp only [String.toList_append, List.append_assoc] at hlist
    have hsplit : a.toList ++ '.' :: s.toList = b.toList ++ '.' :: t.toList := hlist
    obtain ⟨hfront, hrest⟩ := separated_inj ha hb hsplit
    exact ⟨String.toList_inj.mp hfront, String.toList_inj.mp hrest⟩
  · rintro ⟨rfl, rfl⟩
    rfl

/-- A dotless text is not one with a dot in it. -/
theorem Dotless.ne_append_dot {a : String} (ha : Dotless a) (b t : String) : a ≠ b ++ "." ++ t := by
  rintro rfl
  refine ha ?_
  simp

/-- Texts whose suffixes end differently differ. -/
theorem append_ne_append {s t : String} {c d : Char} (hs : s.toList.getLast? = some c)
    (ht : t.toList.getLast? = some d) (hne : c ≠ d) (a b : String) : a ++ s ≠ b ++ t := by
  intro h
  have hlast := congrArg (fun u : String => u.toList.getLast?) h
  simp only [String.toList_append, List.getLast?_append, hs, ht, Option.some_or] at hlast
  exact hne (Option.some.inj hlast)

end Lib
