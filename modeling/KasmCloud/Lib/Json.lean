/-
KasmCloud.Lib.Json — JSON documents, merge patches and readers.

* `mergePatch` is RFC 7386: members of the patch are merged into the target
  one by one, and a null in the patch deletes the member of that name.
* `Serde α` writes values as documents and reads them back, as a derived
  serializer does: `required` and `optional` read the members of an object,
  and an absent optional member reads as `none`, like a null.
* `Serde.Restores` is what a writer of patches relies on: whatever the target
  was, the merged document reads as the value written. It composes member by
  member, although a `none` is written as a null and is not there afterwards.

Members are compared by name only; their order in a document is never read.
-/
import Mathlib.Algebra.Group.Int.Defs
import Mathlib.Data.List.Basic
import Mathlib.Tactic.Common

namespace Lib

inductive Json where
  | null
  | bool (b : Bool)
  | num (n : Int)
  | str (s : String)
  | arr (items : List Json)
  | obj (members : List (String × Json))
  deriving Inhabited

namespace Json

/-- The members of an object; any other value has none. -/
def members : Json → List (String × Json)
  | .obj members => members
  | _ => []

def isNull : Json → Bool
  | .null => true
  | _ => false

def field? (doc : Json) (name : String) : Option Json := doc.members.lookup name

/-! ## Members of an object -/

def eraseMember (members : List (String × Json)) (name : String) : List (String × Json) :=
  members.filter fun m => m.1 != name

def setMember (members : List (String × Json)) (name : String) (value : Json) :
    List (String × Json) :=
  (name, value) :: eraseMember members name

theorem lookup_member (members : List (String × Json)) (name : String) (value : Json)
    (other : String) :
    List.lookup other ((name, value) :: members) =
      if other = name then some value else members.lookup other := by
  rw [List.lookup_cons]
  by_cases h : other = name
  · rw [if_pos h, beq_iff_eq.mpr h]
  · rw [if_neg h, beq_false_of_ne h]

theorem lookup_eraseMember (members : List (String × Json)) (name other : String) :
    (eraseMember members name).lookup other =
      if other = name then none else members.lookup other := by
  induction members with
  | nil => simp [eraseMember]
  | cons m rest ih =>
    obtain ⟨key, value⟩ := m
    unfold eraseMember at ih ⊢
    by_cases hkey : key = name
    · subst hkey
      rw [List.filter_cons_of_neg (by simp), ih, lookup_member]
      split <;> rfl
    · rw [List.filter_cons_of_pos (by simpa using hkey), lookup_member, lookup_member, ih]
      by_cases hother : other = key
      · subst hother
        rw [if_pos rfl, if_neg hkey, if_pos rfl]
      · rw [if_neg hother, if_neg hother]

theorem lookup_setMember (members : List (String × Json)) (name : String) (value : Json)
    (other : String) :
    (setMember members name value).lookup other =
      if other = name then some value else members.lookup other := by
  unfold setMember
  rw [lookup_member, lookup_eraseMember]
  split <;> rfl

/-! ## Merge patches -/

mutual

/-- `MergePatch(Target, Patch)` of RFC 7386; an absent target is a null. -/
def mergePatch (target : Json) : Json → Json
  | .obj patch => .obj (mergeMembers target.members patch)
  | patch => patch

def mergeMembers (target : List (String × Json)) : List (String × Json) → List (String × Json)
  | [] => target
  | m :: rest => mergeMembers (mergeMember target m) rest

def mergeMember (target : List (String × Json)) : String × Json → List (String × Json)
  | (name, value) =>
    if value.isNull then eraseMember target name
    else setMember target name (mergePatch ((target.lookup name).getD .null) value)

end

/-- A member after merging one: only that of the same name differs. -/
theorem lookup_mergeMember (target : List (String × Json)) (name : String) (value : Json)
    (other : String) :
    (mergeMember target (name, value)).lookup other =
      if other = name then
        if value.isNull then none
        else some (mergePatch ((target.lookup name).getD .null) value)
      else target.lookup other := by
  unfold mergeMember
  by_cases hnull : value.isNull = true
  · rw [if_pos hnull, if_pos hnull, lookup_eraseMember]
  · rw [if_neg hnull, if_neg hnull, lookup_setMember]

/-- A member that the patch does not name stays as it is. -/
theorem lookup_mergeMembers_absent {patch : List (String × Json)} {name : String}
    (h : name ∉ patch.map Prod.fst) (target : List (String × Json)) :
    (mergeMembers target patch).lookup name = target.lookup name := by
  induction patch generalizing target with
  | nil => rfl
  | cons m rest ih =>
    obtain ⟨key, value⟩ := m
    simp only [List.map_cons, List.mem_cons, not_or] at h
    unfold mergeMembers
    rw [ih h.2, lookup_mergeMember, if_neg h.1]

/-- A member that the patch names once is deleted or merged. -/
theorem lookup_mergeMembers {patch : List (String × Json)} (hnodup : (patch.map Prod.fst).Nodup)
    {name : String} {value : Json} (h : patch.lookup name = some value)
    (target : List (String × Json)) :
    (mergeMembers target patch).lookup name =
      if value.isNull then none
      else some (mergePatch ((target.lookup name).getD .null) value) := by
  induction patch generalizing target with
  | nil => cases h
  | cons m rest ih =>
    obtain ⟨key, first⟩ := m
    rw [List.map_cons, List.nodup_cons] at hnodup
    rw [lookup_member] at h
    unfold mergeMembers
    by_cases hkey : name = key
    · subst hkey
      rw [if_pos rfl] at h
      cases h
      rw [lookup_mergeMembers_absent hnodup.1, lookup_mergeMember, if_pos rfl]
    · rw [if_neg hkey] at h
      rw [ih hnodup.2 h, lookup_mergeMember, if_neg hkey]

theorem isNull_mergePatch (target : Json) {patch : Json} (h : patch.isNull = false) :
    (mergePatch target patch).isNull = false := by
  cases patch with
  | null => cases h
  | bool _ | num _ | str _ | arr _ => rfl
  | obj members => simp [mergePatch, isNull]

section Field

variable {patch : List (String × Json)} {name : String}

theorem field?_mergePatch (hnodup : (patch.map Prod.fst).Nodup) {value : Json}
    (h : patch.lookup name = some value) (target : Json) :
    (mergePatch target (.obj patch)).field? name =
      if value.isNull then none else some (mergePatch ((target.field? name).getD .null) value) := by
  simp only [field?, mergePatch, members]
  exact lookup_mergeMembers hnodup h target.members

theorem field?_mergePatch_absent (h : name ∉ patch.map Prod.fst) (target : Json) :
    (mergePatch target (.obj patch)).field? name = target.field? name := by
  simp only [field?, mergePatch, members]
  exact lookup_mergeMembers_absent h target.members

end Field

end Json

/-! ## Writers and readers -/

/-- How values of a type are written as documents and read. -/
structure Serde (α : Type) where
  write : α → Json
  read : Json → Option α

namespace Serde

variable {α : Type}

/-- A member that must be there. -/
def required (c : Serde α) (doc : Json) (name : String) : Option α :=
  (doc.field? name).bind c.read

/-- A member that may be absent or null. -/
def optional (c : Serde α) (doc : Json) (name : String) : Option (Option α) :=
  match doc.field? name with
  | none | some .null => some none
  | some value => (c.read value).map some

/-- A member that has a default when it is absent. -/
def defaulted (c : Serde α) (default : α) (doc : Json) (name : String) : Option α :=
  match doc.field? name with
  | none => some default
  | some value => c.read value

/-- `none` is written as a null. -/
def writeOption (c : Serde α) : Option α → Json
  | none => .null
  | some a => c.write a

/-- Whatever was there before, a patch that writes `a` makes it read as `a`. -/
structure Restores (c : Serde α) (a : α) : Prop where
  present : (c.write a).isNull = false
  read : ∀ target, c.read (Json.mergePatch target (c.write a)) = some a

/-- A reader goes on with what it has read. -/
theorem read_bind {β : Type} {x : Option α} {a : α} {f : α → Option β} {b : β} (h : x = some a)
    (hrest : f a = some b) : (x >>= f) = some b := by
  rw [h]
  exact hrest

section Members

variable {c : Serde α} {patch : List (String × Json)} {name : String} {target : Json}

theorem Restores.required {a : α} (h : c.Restores a) (hnodup : (patch.map Prod.fst).Nodup)
    (hmem : patch.lookup name = some (c.write a)) :
    c.required (.mergePatch target (.obj patch)) name = some a := by
  rw [Serde.required, Json.field?_mergePatch hnodup hmem, h.present]
  exact h.read _

/-- An optional member, written or deleted. -/
theorem restores_optional {o : Option α} (h : ∀ a, o = some a → c.Restores a)
    (hnodup : (patch.map Prod.fst).Nodup) (hmem : patch.lookup name = some (c.writeOption o)) :
    c.optional (.mergePatch target (.obj patch)) name = some o := by
  have hfield := Json.field?_mergePatch hnodup hmem target
  unfold Serde.optional
  cases o with
  | none =>
    rw [hfield]
    rfl
  | some a =>
    have ha := h a rfl
    have hread := ha.read ((target.field? name).getD .null)
    have hnull := Json.isNull_mergePatch ((target.field? name).getD .null) ha.present
    rw [writeOption, ha.present] at hfield
    rw [hfield]
    generalize Json.mergePatch ((target.field? name).getD .null) (c.write a) = value at hread hnull
    cases value with
    | null => cases hnull
    | bool _ | num _ | str _ | arr _ | obj _ => simp [hread]

end Members

/-! ### Values that are no objects -/

def string : Serde String where
  write := .str
  read
    | .str s => some s
    | _ => none

/-- A 32-bit integer; a number out of its range is refused. -/
def int32 : Serde Int32 where
  write n := .num n.toInt
  read
    | .num n => if Int32.minValue.toInt ≤ n ∧ n ≤ Int32.maxValue.toInt then some (.ofInt n) else none
    | _ => none

/-- An array of values, all of which must be readable. -/
def list (c : Serde α) : Serde (List α) where
  write as := .arr (as.map c.write)
  read
    | .arr items => items.mapM c.read
    | _ => none

theorem restores_string (s : String) : string.Restores s := ⟨rfl, fun _ => rfl⟩

theorem restores_int32 (n : Int32) : int32.Restores n := by
  refine ⟨rfl, fun target => ?_⟩
  have hrange : Int32.minValue.toInt ≤ n.toInt ∧ n.toInt ≤ Int32.maxValue.toInt :=
    ⟨n.minValue_le_toInt, n.toInt_le⟩
  simp only [int32, Json.mergePatch, if_pos hrange, Int32.ofInt_toInt]

theorem restores_list {c : Serde α} {as : List α} (h : ∀ a ∈ as, c.read (c.write a) = some a) :
    c.list.Restores as := by
  refine ⟨rfl, fun target => ?_⟩
  simp only [list, Json.mergePatch]
  induction as with
  | nil => rfl
  | cons a rest ih =>
    have hrest := ih fun b hb => h b (List.mem_cons_of_mem a hb)
    rw [List.map_cons, List.mapM_cons, h a List.mem_cons_self, hrest]
    rfl

end Serde

end Lib
