/-
KasmCloud.Apis.Labels — the labels that the webhooks' `Default` keeps on an
object (`api/v1alpha1/*_webhook.go`).

`Default` copies strings of the spec and of the status into label values, and
rewrites only the `:` of a contract id on the way. `default_validLabels_iff`
says for which strings the object it returns still has valid labels, which
the API server asks of every later update.

* `Webhook.Actor`, `Webhook.Provider` and `Webhook.Link` are the objects as
  the webhook decodes them: a missing status is the zero value, and a label
  map may be `nil`. Of the two statuses that the host fills from an image
  they have the fields `Default` reads or writes.
* `setLabel` is one assignment to, or deletion from, `r.Labels`.
-/
import KasmCloud.Apis.V1alpha1
import KasmCloud.Lib.Tables

namespace KasmCloud

open Lib V1alpha1

/-! ## Label values -/

/-- At most 63 characters that are all `ok`, and an alphanumeric at both
ends. The empty string is one. -/
def LabelShape (ok : Char → Bool) (value : String) : Prop :=
  value.toList.length ≤ 63 ∧ (∀ c ∈ value.toList, ok c = true) ∧
    (∀ c ∈ value.toList.head?, c.isAlphanum = true) ∧
    ∀ c ∈ value.toList.getLast?, c.isAlphanum = true

instance (ok : Char → Bool) (value : String) : Decidable (LabelShape ok value) :=
  decidable_of_iff
    (value.toList.length ≤ 63 ∧ value.toList.all ok = true ∧
      value.toList.head?.all Char.isAlphanum = true ∧
      value.toList.getLast?.all Char.isAlphanum = true)
    (by simp [LabelShape, Option.all_eq_true, List.all_eq_true])

def labelChar (c : Char) : Bool := c.isAlphanum || c == '.' || c == '_' || c == '-'

/-- A valid Kubernetes label value. -/
abbrev ValidLabel (value : String) : Prop := LabelShape labelChar value

/-- `strings.ReplaceAll(s, ":", ".")`. -/
def dotted (s : String) : String := String.ofList (s.toList.map fun c => if c = ':' then '.' else c)

/-- A contract id: it may have a `:` where a label value may have a `.`. -/
abbrev ValidContract (contractId : String) : Prop :=
  LabelShape (fun c => c == ':' || labelChar c) contractId

example : ValidLabel "wasmcloud.httpserver" ∧ ValidLabel "" ∧ ¬ ValidLabel "HTTP Server" := by decide

theorem alphanum_dotted (c : Char) :
    (if c = ':' then '.' else c).isAlphanum = true ↔ c.isAlphanum = true := by
  split
  · rename_i hcolon
    subst hcolon
    decide
  · rfl

/-- The replacement makes a label value of a contract id, and of nothing
else. -/
theorem validLabel_dotted (s : String) : ValidLabel (dotted s) ↔ ValidContract s := by
  have hchar (c : Char) : labelChar (if c = ':' then '.' else c) = true ↔
      (c == ':' || labelChar c) = true := by
    split
    · rename_i hcolon
      subst hcolon
      decide
    · rename_i hother
      simp [hother]
  unfold ValidLabel ValidContract LabelShape dotted
  rw [String.toList_ofList, List.length_map, List.head?_map, List.getLast?_map]
  simp only [List.forall_mem_map, hchar, Option.mem_def, Option.map_eq_some_iff,
    forall_exists_index, and_imp, forall_apply_eq_imp_iff₂, alphanum_dotted]

/-! ## `Default` -/

/-- `r.Labels[u.1] = v`, or `delete(r.Labels, u.1)`. -/
def setLabel (labels : HashMap String String) (u : String × Option String) :
    HashMap String String :=
  match u.2 with
  | some v => labels.insert u.1 v
  | none => labels.erase u.1

/-- The value of a label that is only kept while it is not empty. -/
def nonEmpty (s : String) : Option String := if s ≠ "" then some s else none

namespace Webhook

structure ActorSpec where
  host : String
  image : String
  replicas : UInt64

structure ActorStatus where
  publicKey : String
  descriptiveName : String
  replicas : UInt64

structure Actor where
  labels : Option (HashMap String String)
  spec : ActorSpec
  status : ActorStatus

/-- `func (r *Actor) Default()`. -/
def Actor.default (r : Actor) : Actor where
  labels := some ([("host", some r.spec.host), ("publickey", nonEmpty r.status.publicKey),
    ("desc", nonEmpty r.status.descriptiveName)].foldl setLabel (r.labels.getD ∅))
  spec := r.spec
  status := { r.status with replicas := r.spec.replicas }

structure ProviderStatus where
  publicKey : String
  descriptiveName : String

structure Provider where
  labels : Option (HashMap String String)
  spec : ProviderSpec
  status : ProviderStatus

/-- `func (r *Provider) Default()`. -/
def Provider.default (r : Provider) : Provider where
  labels := some ([("host", some r.spec.host), ("link", some r.spec.link),
    ("publickey", nonEmpty r.status.publicKey),
    ("desc", nonEmpty r.status.descriptiveName)].foldl setLabel (r.labels.getD ∅))
  spec := r.spec
  status := r.status

structure Link where
  labels : Option (HashMap String String)
  spec : LinkSpec
  status : LinkStatus

/-- `func (r *Link) Default()`. -/
def Link.default (r : Link) : Link where
  labels := some ([("contract", some (dotted r.spec.contractId)),
    ("providerkey", nonEmpty r.status.providerKey), ("link", nonEmpty r.status.linkName),
    ("actorkey", nonEmpty r.status.actorKey)].foldl setLabel (r.labels.getD ∅))
  spec := r.spec
  status := r.status

/-- The status of an Actor as the host has written it; `null` and a missing
field are the zero value. -/
def ActorStatus.decode (status : Option V1alpha1.ActorStatus) : ActorStatus where
  publicKey := status.elim "" (·.publicKey)
  descriptiveName := status.elim "" (·.descriptiveName.getD "")
  replicas := status.elim 0 fun s => .ofNat s.replicas.toInt.toNat

def ProviderStatus.decode (status : Option V1alpha1.ProviderStatus) : ProviderStatus where
  publicKey := status.elim "" (·.publicKey)
  descriptiveName := status.elim "" (·.descriptiveName.getD "")

end Webhook

/-! ## Objects of the three kinds -/

/-- An object that goes through one of the webhooks. -/
inductive Resource where
  | actor (r : Webhook.Actor)
  | provider (r : Webhook.Provider)
  | link (r : Webhook.Link)

namespace Resource

def default : Resource → Resource
  | actor r => actor r.default
  | provider r => provider r.default
  | link r => link r.default

def labels : Resource → HashMap String String
  | actor r => r.labels.getD ∅
  | provider r => r.labels.getD ∅
  | link r => r.labels.getD ∅

/-- The strings that `Default` copies are label values, or a contract id. -/
def StringsValid : Resource → Prop
  | actor r => ValidLabel r.spec.host ∧ ValidLabel r.status.publicKey ∧
      ValidLabel r.status.descriptiveName
  | provider r => ValidLabel r.spec.host ∧ ValidLabel r.spec.link ∧
      ValidLabel r.status.publicKey ∧ ValidLabel r.status.descriptiveName
  | link r => ValidContract r.spec.contractId ∧ ValidLabel r.status.providerKey ∧
      ValidLabel r.status.linkName ∧ ValidLabel r.status.actorKey

end Resource

/-- All values of a label map are valid. -/
def ValidLabels (labels : HashMap String String) : Prop :=
  ∀ key value, labels.lookup key = some value → ValidLabel value

theorem lookup_setLabel (labels : HashMap String String) (u : String × Option String)
    (key : String) :
    (setLabel labels u).lookup key = if key = u.1 then u.2 else labels.lookup key := by
  obtain ⟨name, _ | value⟩ := u
  · exact HashMap.lookup_erase_if labels name key
  · exact HashMap.lookup_insert_if labels name key value

/-- Assignments to distinct labels leave valid labels exactly when each
assigned value is valid and so is every other label. -/
theorem validLabels_foldl {updates : List (String × Option String)}
    (hdistinct : (updates.map Prod.fst).Nodup) (labels : HashMap String String) :
    ValidLabels (updates.foldl setLabel labels) ↔
      (∀ u ∈ updates, ∀ value ∈ u.2, ValidLabel value) ∧
        ∀ key ∉ updates.map Prod.fst, ∀ value, labels.lookup key = some value →
          ValidLabel value := by
  induction updates generalizing labels with
  | nil => simp [ValidLabels]
  | cons u updates ih =>
    rw [List.map_cons, List.nodup_cons] at hdistinct
    obtain ⟨hfresh, hdistinct⟩ := hdistinct
    rw [List.foldl_cons, ih hdistinct, List.forall_mem_cons]
    simp only [lookup_setLabel, List.map_cons, List.mem_cons, not_or]
    constructor
    · rintro ⟨hupdates, hothers⟩
      refine ⟨⟨fun value hvalue => ?_, hupdates⟩, fun key hkey value hvalue => ?_⟩
      · exact hothers u.1 hfresh value (by rw [if_pos rfl]; exact hvalue)
      · exact hothers key hkey.2 value (by rw [if_neg hkey.1]; exact hvalue)
    · rintro ⟨⟨hfirst, hupdates⟩, hothers⟩
      refine ⟨hupdates, fun key hkey value hvalue => ?_⟩
      by_cases hsame : key = u.1
      · rw [if_pos hsame] at hvalue
        exact hfirst value hvalue
      · rw [if_neg hsame] at hvalue
        exact hothers key ⟨hsame, hkey⟩ value hvalue

theorem forall_nonEmpty (s : String) : (∀ value ∈ nonEmpty s, ValidLabel value) ↔ ValidLabel s := by
  by_cases h : s = ""
  · subst h
    simp only [nonEmpty, ne_eq, not_true_eq_false, if_false, Option.mem_def, reduceCtorEq,
      false_implies, implies_true, true_iff]
    decide
  · simp [nonEmpty, h]

/-- `Default` leaves an object with valid labels exactly when the strings it
copies are valid as they are. -/
theorem default_validLabels_iff (r : Resource) (hlabels : ValidLabels r.labels) :
    ValidLabels r.default.labels ↔ r.StringsValid := by
  have hothers (keys : List String) : ∀ key ∉ keys, ∀ value,
      r.labels.lookup key = some value → ValidLabel value :=
    fun key _ value hvalue => hlabels key value hvalue
  cases r with
  | actor r =>
    refine (validLabels_foldl (by simp) _).trans ((and_iff_left (hothers _)).trans ?_)
    simp only [List.forall_mem_cons, forall_nonEmpty, Resource.StringsValid]
    simp
  | provider r =>
    refine (validLabels_foldl (by simp) _).trans ((and_iff_left (hothers _)).trans ?_)
    simp only [List.forall_mem_cons, forall_nonEmpty, Resource.StringsValid]
    simp
  | link r =>
    refine (validLabels_foldl (by simp) _).trans ((and_iff_left (hothers _)).trans ?_)
    simp only [List.forall_mem_cons, forall_nonEmpty, Resource.StringsValid]
    simp [validLabel_dotted]

/-! ## The quick start's provider -/

/-- The provider of the quick start, with the status its host has written. -/
def httpserverDefault (descriptiveName : String) : Resource :=
  .provider ⟨none, ⟨"kasmcloud-host-default", "ghcr.io/iceber/wasmcloud/httpserver:0.17.0-index",
    "test"⟩, .decode (some ⟨"VAG3QITQQ2ODAOWB5TTQSDJ53XK3SHBEIFNK4AYJ5RKAX2UNSCAPHA5M",
      "wasmcloud:httpserver", some descriptiveName,
      ⟨"ACOJJN6WUP4ODD75XEBKKTCCUJJCY5ZKQ56XVKYK4BEJWGVAOOQHZMCW",
        "VAG3QITQQ2ODAOWB5TTQSDJ53XK3SHBEIFNK4AYJ5RKAX2UNSCAPHA5M", 0, none, none⟩,
      [], "wasmCloud", none, none, [], ""⟩)⟩

theorem httpserverDefault_labels (descriptiveName : String) :
    ValidLabels (httpserverDefault descriptiveName).labels := by
  intro key value h
  cases h

/-- Its descriptive name has a space, which no label value has. -/
theorem httpServer_not_validLabels :
    ValidLabels (httpserverDefault "HTTP Server").labels ∧
      ¬ ValidLabels (httpserverDefault "HTTP Server").default.labels := by
  refine ⟨httpserverDefault_labels _, fun h => ?_⟩
  have hdesc : (httpserverDefault "HTTP Server").default.labels.lookup "desc" =
      some "HTTP Server" := rfl
  exact absurd (h "desc" _ hdesc) (by decide)

/-- Without the space it would be admitted. -/
theorem httpserver_validLabels :
    ValidLabels (httpserverDefault "HTTPServer").default.labels :=
  (default_validLabels_iff (httpserverDefault "HTTPServer") (httpserverDefault_labels _)).mpr
    (by unfold httpserverDefault Resource.StringsValid; decide)

end KasmCloud
