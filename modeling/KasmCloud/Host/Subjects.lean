/-
KasmCloud.Host.Subjects — the NATS subjects of a host, for what each is used.

Five formats are put together in `handler.rs` and `lib.rs`, all from a
lattice prefix, a public key and, except for the calls of an actor, a link
name. A public key has no dot, so the key and what follows it can be read
back (`subject_eq_iff`); what follows is a free-form link name, with or
without a suffix.
-/
import KasmCloud.Host.Actors
import KasmCloud.Host.Handler
import KasmCloud.Host.Providers
import KasmCloud.Lib.Dotted

namespace KasmCloud

open Lib

/-- A purpose with the entity it is about. -/
inductive SubjectUse where
  | actorCalls (key : String)
  | providerRpc (key linkName : String)
  | linkdefs (verb : LinkdefVerb) (key linkName : String)
  | shutdown (key linkName : String)
  deriving DecidableEq, Repr

namespace SubjectUse

def key : SubjectUse → String
  | .actorCalls key | .providerRpc key _ | .linkdefs _ key _ | .shutdown key _ => key

def subject (latticePrefix : String) : SubjectUse → String
  | .actorCalls key => actorTopic latticePrefix key
  | .providerRpc key linkName => callTopic latticePrefix none ⟨key, linkName, ""⟩
  | .linkdefs verb key linkName =>
    LinkdefMessage.subject latticePrefix ⟨verb, ⟨"", key, linkName, "", ∅⟩⟩
  | .shutdown key linkName => shutdownTopic latticePrefix key linkName

/-- What follows the key and a dot. -/
def linkPart : SubjectUse → Option String
  | .actorCalls _ => none
  | .providerRpc _ linkName => some linkName
  | .linkdefs .put _ linkName => some (linkName ++ ".linkdefs.put")
  | .linkdefs .del _ linkName => some (linkName ++ ".linkdefs.del")
  | .shutdown _ linkName => some (linkName ++ ".shutdown")

end SubjectUse

/-! ## Every subject the host uses is one of these -/

section Uses

variable (latticePrefix : String)

/-- A call goes to a link of a provider, or to an actor. -/
theorem callTopic_eq_subject (target : Option TargetEntity) (entity : WasmCloudEntity) :
    callTopic latticePrefix target entity =
      SubjectUse.subject latticePrefix
        (match target with
          | none | some (.link _) => .providerRpc entity.publicKey entity.linkName
          | some (.actor _) => .actorCalls entity.publicKey) := by
  rcases target with _ | _ | _ <;> rfl

theorem linkdefMessage_subject_eq (m : LinkdefMessage) :
    m.subject latticePrefix =
      SubjectUse.subject latticePrefix
        (.linkdefs m.verb m.definition.providerId m.definition.linkName) :=
  rfl

end Uses

/-! ## Reading a subject back -/

section Read

variable {latticePrefix : String} {u v : SubjectUse}

theorem subject_eq (latticePrefix : String) (u : SubjectUse) :
    u.subject latticePrefix =
      "wasmbus.rpc." ++ latticePrefix ++ "." ++
        match u.linkPart with
        | none => u.key
        | some part => u.key ++ "." ++ part := by
  have hassoc : ∀ front a b : String, front ++ a ++ "." ++ b = front ++ (a ++ "." ++ b) := by
    intro front a b
    simp only [String.append_assoc]
  have hsuffix : ∀ front a b c : String,
      front ++ a ++ "." ++ b ++ c = front ++ (a ++ "." ++ (b ++ c)) := by
    intro front a b c
    simp only [String.append_assoc]
  cases u with
  | actorCalls key => rfl
  | providerRpc key linkName => exact hassoc _ key linkName
  | linkdefs verb key linkName => cases verb <;> exact hsuffix _ key linkName _
  | shutdown key linkName => exact hsuffix _ key linkName _

/-- Two subjects are equal exactly if the keys are and what follows them is. -/
theorem subject_eq_iff (hu : Dotless u.key) (hv : Dotless v.key) :
    u.subject latticePrefix = v.subject latticePrefix ↔
      u.key = v.key ∧ u.linkPart = v.linkPart := by
  rw [subject_eq, subject_eq, String.append_right_inj]
  cases hpart : u.linkPart with
  | none =>
    cases hpart' : v.linkPart with
    | none => simp
    | some part' => simp [hu.ne_append_dot]
  | some part =>
    cases hpart' : v.linkPart with
    | none => simp [(hv.ne_append_dot _ _).symm]
    | some part' => simp [hu.append_dot_inj hv]

end Read

/-! ## Collisions -/

/-- The invocations of the first use go out on the control subject of the
second. -/
def SubjectUse.Shadows : SubjectUse → SubjectUse → Prop
  | .providerRpc key l, .linkdefs .put key' l' => key = key' ∧ l = l' ++ ".linkdefs.put"
  | .providerRpc key l, .linkdefs .del key' l' => key = key' ∧ l = l' ++ ".linkdefs.del"
  | .providerRpc key l, .shutdown key' l' => key = key' ∧ l = l' ++ ".shutdown"
  | _, _ => False

section Collisions

variable {u v : SubjectUse}

theorem SubjectUse.Shadows.key_eq (h : u.Shadows v) :
    u ≠ v ∧ u.key = v.key ∧ u.linkPart = v.linkPart := by
  rcases u with key | ⟨key, l⟩ | ⟨_ | _, key, l⟩ | ⟨key, l⟩ <;>
    rcases v with key' | ⟨key', l'⟩ | ⟨_ | _, key', l'⟩ | ⟨key', l'⟩ <;>
    first
    | exact h.elim
    | exact ⟨by simp, h.1, congrArg some h.2⟩

/-- The suffixes are told apart by their last characters. -/
theorem shadows_of_linkPart (hkey : u.key = v.key) (hpart : u.linkPart = v.linkPart) :
    u = v ∨ u.Shadows v ∨ v.Shadows u := by
  have hput : ".linkdefs.put".toList.getLast? = some 't' := by decide
  have hdel : ".linkdefs.del".toList.getLast? = some 'l' := by decide
  have hshutdown : ".shutdown".toList.getLast? = some 'n' := by decide
  have htl := append_ne_append hput hdel (by decide)
  have htn := append_ne_append hput hshutdown (by decide)
  have hln := append_ne_append hdel hshutdown (by decide)
  rcases u with key | ⟨key, l⟩ | ⟨_ | _, key, l⟩ | ⟨key, l⟩ <;>
    rcases v with key' | ⟨key', l'⟩ | ⟨_ | _, key', l'⟩ | ⟨key', l'⟩ <;>
    simp only [SubjectUse.key, SubjectUse.linkPart, Option.some.injEq, String.append_left_inj,
      reduceCtorEq] at hkey hpart
  · subst hkey
    exact .inl rfl
  · subst hkey hpart
    exact .inl rfl
  · subst hkey hpart
    exact .inr (.inl ⟨rfl, rfl⟩)
  · subst hkey hpart
    exact .inr (.inl ⟨rfl, rfl⟩)
  · subst hkey hpart
    exact .inr (.inl ⟨rfl, rfl⟩)
  · subst hkey hpart
    exact .inr (.inr ⟨rfl, rfl⟩)
  · subst hkey hpart
    exact .inl rfl
  · exact absurd hpart (htl _ _)
  · exact absurd hpart (htn _ _)
  · subst hkey hpart
    exact .inr (.inr ⟨rfl, rfl⟩)
  · exact absurd hpart.symm (htl _ _)
  · subst hkey hpart
    exact .inl rfl
  · exact absurd hpart (hln _ _)
  · subst hkey hpart
    exact .inr (.inr ⟨rfl, rfl⟩)
  · exact absurd hpart.symm (htn _ _)
  · exact absurd hpart.symm (hln _ _)
  · subst hkey hpart
    exact .inl rfl

end Collisions

/-- Two uses have different subjects exactly if neither is the calls of a link
that is named like the other's link with a control suffix. -/
theorem subjects_apart_iff (latticePrefix : String) (u v : SubjectUse) (hu : Dotless u.key)
    (hv : Dotless v.key) :
    (u ≠ v → u.subject latticePrefix ≠ v.subject latticePrefix) ↔
      ¬ (u.Shadows v ∨ v.Shadows u) := by
  constructor
  · rintro hapart (h | h)
    · obtain ⟨hne, hsame⟩ := h.key_eq
      exact hapart hne ((subject_eq_iff hu hv).mpr hsame)
    · obtain ⟨hne, hsame⟩ := h.key_eq
      exact hapart hne.symm ((subject_eq_iff hv hu).mpr hsame).symm
  · rintro hnone hne heq
    obtain ⟨hkey, hpart⟩ := (subject_eq_iff hu hv).mp heq
    rcases shadows_of_linkPart hkey hpart with hsame | hshadows
    · exact hne hsame
    · exact hnone hshadows

/-- Calls on link `cache.v2.shutdown` of a provider do not shut down its link
`cache`. -/
theorem dottedLinks_apart :
    SubjectUse.subject "default" (.providerRpc "VREDIS" "cache.v2.shutdown") ≠
      SubjectUse.subject "default" (.shutdown "VREDIS" "cache") := by
  refine (subjects_apart_iff "default" (.providerRpc "VREDIS" "cache.v2.shutdown")
    (.shutdown "VREDIS" "cache") (by decide) (by decide)).mpr ?_ (by decide)
  rintro (h | h)
  · exact absurd h.2 (by decide)
  · exact h

/-- Calls on link `cache.shutdown` shut down the provider of link `cache`. -/
theorem cacheShutdown_collides :
    ¬ ∀ latticePrefix u v, Dotless (SubjectUse.key u) → Dotless (SubjectUse.key v) → u ≠ v →
      u.subject latticePrefix ≠ v.subject latticePrefix := by
  intro hall
  refine hall "default" (.providerRpc "VREDIS" "cache.shutdown") (.shutdown "VREDIS" "cache")
    (by decide) (by decide) (by decide) ?_
  decide

end KasmCloud
