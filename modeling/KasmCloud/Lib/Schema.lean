/-
KasmCloud.Lib.Schema — validation of a document by a structural OpenAPI
schema, as far as custom resources here use it.

`Schema.accepts` is the validator; `accepts_object_iff` reads an object schema
member by member. A member that the schema does not name is never refused: it
is pruned.
-/
import KasmCloud.Lib.Json

namespace Lib

inductive Schema where
  | string (minLength : Nat)
  | integer
  | object (properties : List (String × Schema)) (required : List String)

namespace Schema

mutual

def accepts : Schema → Json → Bool
  | .string minLength, .str s => minLength ≤ s.length
  | .integer, .num _ => true
  | .object properties required, .obj members =>
    required.all (fun name => (members.lookup name).isSome) && acceptsAll properties members
  | _, _ => false

def acceptsAll : List (String × Schema) → List (String × Json) → Bool
  | [], _ => true
  | p :: properties, members => acceptsOne p members && acceptsAll properties members

/-- A property that is absent is left to `required`. -/
def acceptsOne : String × Schema → List (String × Json) → Bool
  | (name, schema), members =>
    match members.lookup name with
    | none => true
    | some value => schema.accepts value

end

theorem accepts_string_iff {minLength : Nat} {s : String} :
    (string minLength).accepts (.str s) = true ↔ minLength ≤ s.length := decide_eq_true_iff

theorem accepts_integer (n : Int) : integer.accepts (.num n) = true := rfl

theorem acceptsOne_iff {name : String} {schema : Schema} {members : List (String × Json)} :
    acceptsOne (name, schema) members = true ↔
      ∀ value, members.lookup name = some value → schema.accepts value = true := by
  unfold acceptsOne
  cases members.lookup name with
  | none => simp
  | some value => simp

theorem acceptsAll_iff {properties : List (String × Schema)} {members : List (String × Json)} :
    acceptsAll properties members = true ↔
      ∀ p ∈ properties, ∀ value, members.lookup p.1 = some value → p.2.accepts value = true := by
  induction properties with
  | nil => simp [acceptsAll]
  | cons p properties ih =>
    rw [acceptsAll, Bool.and_eq_true, ih, List.forall_mem_cons, ← acceptsOne_iff]

/-- An object is accepted when the required members are there and every member
that has a schema is accepted by it. -/
theorem accepts_object_iff {properties : List (String × Schema)} {required : List String}
    {members : List (String × Json)} :
    (object properties required).accepts (.obj members) = true ↔
      (∀ name ∈ required, (members.lookup name).isSome = true) ∧
        ∀ p ∈ properties, ∀ value, members.lookup p.1 = some value → p.2.accepts value = true := by
  rw [accepts, Bool.and_eq_true, List.all_eq_true, acceptsAll_iff]

end Schema

end Lib
