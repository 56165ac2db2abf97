/-
KasmCloud.Host.Isolation — whether invocations of one actor see each other's
targets.

The instances of an actor share its handler, and so its target table
(`sameActor_sameTargets`). What an interface call uses is therefore the last
write to that table, by whichever invocation: `TargetIsolated` holds of a
call exactly if its invocation is `Alone` in the table at the interface it
uses (`targets_isolated_iff`).

The steps of the host neither read the target tables nor change what stands
in them; `start_actor` adds an empty one. `step_withTargets` says so, and
with it two runs that differ only in what is set stay side by side.
-/
import KasmCloud.Host.Targets

namespace KasmCloud

open Lib

/-- What a step does to the table that `x` would have to itself. -/
def BusStep.ownEffect (x : Invoker) (targets : TargetTable) : BusStep → TargetTable
  | .setTarget y target interfaces => if y = x then targets.set target interfaces else targets
  | .host _ | .interfaceCall .. => targets

/-- The table the calls of `x` alone make. -/
def ownTable (x : Invoker) (ls : List BusStep) : TargetTable :=
  ls.foldl (BusStep.ownEffect x) ∅

/-- The same step, but for what another invocation than `x` sets. -/
inductive BusStep.Variant (x : Invoker) : BusStep → BusStep → Prop where
  | same (l : BusStep) : Variant x l l
  | other {y : Invoker} (target target' : Option TargetEntity)
      (interfaces interfaces' : List TargetInterface) :
      y ≠ x → Variant x (.setTarget y target interfaces) (.setTarget y target' interfaces')

/-- After the run `ls`, which led to `t`, a call of `x` uses the target that
the calls of `x` alone made, and sends the same, whatever the others set. -/
def TargetIsolated (sha256 : String → String) (latticePrefix : String) (chunkThreshold : Nat)
    (ls : List BusStep) (t : System) (x : Invoker) (method : InterfaceMethod) : Prop :=
  ∀ ls' t', List.Forall₂ (BusStep.Variant x) ls ls' →
    (busMachine sha256 latticePrefix).exec (.new latticePrefix) ls' = some t' →
    t'.host.targetFor x.handler method.interface = (ownTable x ls).lookup method.interface ∧
      ∀ request, t'.host.interfaceCall chunkThreshold x.handler method request =
        t.host.interfaceCall chunkThreshold x.handler method request

/-! ## What the tables hold -/

/-- The write a step makes to one table. -/
def BusStep.write? (cell : Ref) : BusStep → Option (Write Invoker TargetInterface TargetEntity)
  | .setTarget x target interfaces =>
    if x.handler.targets = cell then some ⟨x, interfaces, target⟩ else none
  | .host _ | .interfaceCall .. => none

/-- The writes a run makes to one table. -/
def targetWrites (cell : Ref) (ls : List BusStep) :
    List (Write Invoker TargetInterface TargetEntity) :=
  ls.filterMap (·.write? cell)

theorem targetWrites_cons (cell : Ref) (l : BusStep) (ls : List BusStep) :
    targetWrites cell (l :: ls) = (l.write? cell).toList ++ targetWrites cell ls := by
  unfold targetWrites
  cases hwrite : l.write? cell with
  | none => rw [List.filterMap_cons_none hwrite]; rfl
  | some w => rw [List.filterMap_cons_some hwrite]; rfl

/-- What the table in a cell holds for an interface. -/
def Host.targetAt (host : Host) (cell : Ref) (interface : TargetInterface) : Option TargetEntity :=
  (host.targetTables.get? cell).bind (·.lookup interface)

/-! ## The host does not read targets -/

/-- Some empty tables more. -/
def growTables (targetTables : Heap TargetTable) : Nat → Heap TargetTable
  | 0 => targetTables
  | n + 1 => (growTables targetTables n).alloc ∅

@[simp] theorem growTables_next (targetTables : Heap TargetTable) (n : Nat) :
    (growTables targetTables n).next = targetTables.next + n := by
  induction n with
  | zero => rfl
  | succ n ih => rw [growTables, Heap.next_alloc, ih, Nat.add_assoc]

/-- A new table is empty, an old one as it was. -/
theorem growTables_lookup (targetTables : Heap TargetTable) (n : Nat) (cell : Ref)
    (interface : TargetInterface) :
    ((growTables targetTables n).get? cell).bind (·.lookup interface) =
      (targetTables.get? cell).bind (·.lookup interface) := by
  induction n with
  | zero => rfl
  | succ n ih =>
    rw [growTables, Heap.get?_alloc]
    split
    · rename_i hcell
      have hfree : (growTables targetTables n).get? cell = none := by rw [hcell, Heap.get?_next]
      rw [← ih, hfree]
      rfl
    · exact ih

/-- The same host with other target tables. -/
def Host.withTargets (host : Host) (targetTables : Heap TargetTable) : Host :=
  { host with targetTables }

def System.withTargets (s : System) (targetTables : Heap TargetTable) : System :=
  { s with host := s.host.withTargets targetTables }

@[simp] theorem withTargets_self (s : System) : s.withTargets s.host.targetTables = s := rfl

section Blind

variable (host : Host) (T : Heap TargetTable)

theorem registerActorKey_withTargets (name publicKey : String) :
    (host.withTargets T).registerActorKey name publicKey =
      (host.registerActorKey name publicKey).withTargets T := by
  simp only [Host.registerActorKey, Host.withTargets]
  cases host.actorKeys.lookup name <;> rfl

theorem lookupGroup_withTargets (publicKey : String) :
    (host.withTargets T).lookupGroup publicKey =
      ((host.lookupGroup publicKey).1, (host.lookupGroup publicKey).2.withTargets T) := by
  simp only [Host.lookupGroup, Host.withTargets]
  cases host.actors.lookup publicKey <;> rfl

theorem instantiateActor_withTargets (pool : WasmActor) (handler : Handler) (count : Nat)
    (failAt : Option Nat) :
    (host.withTargets T).instantiateActor pool handler count failAt =
      ((host.instantiateActor pool handler count failAt).1.withTargets T,
        (host.instantiateActor pool handler count failAt).2) := by
  induction count generalizing host failAt with
  | zero => rfl
  | succ count ih =>
    cases failAt with
    | none =>
      have hnext := ih { host with loops := insert host.nextId host.loops, nextId := host.nextId + 1 } none
      simp only [Host.instantiateActor, Host.withTargets, Option.map_none] at hnext ⊢
      rw [hnext]
      rcases Host.instantiateActor _ pool handler count none with ⟨host', _ | _⟩ <;> rfl
    | some n =>
      cases n with
      | zero => rfl
      | succ n =>
        have hnext := ih { host with loops := insert host.nextId host.loops, nextId := host.nextId + 1 } (some n)
        simp only [Host.instantiateActor, Host.withTargets, Option.map_some, Nat.add_sub_cancel] at hnext ⊢
        rw [hnext]
        rcases Host.instantiateActor _ pool handler count (some n) with ⟨host', _ | _⟩ <;> rfl

theorem removeFromGroup_withTargets (publicKey name : String) :
    (host.withTargets T).removeFromGroup publicKey name =
      (host.removeFromGroup publicKey name).withTargets T := by
  simp only [Host.removeFromGroup, Host.withTargets]
  cases host.actors.lookup publicKey with
  | none => rfl
  | some ref =>
    cases hg : host.groups.get? ref with
    | none => simp only [hg]
    | some g =>
      simp only [hg]
      cases g.actors.lookup name <;> dsimp only <;> split <;> rfl

end Blind

/-- The one place where tables are added: an actor with claims is started. -/
theorem startActor_withTargets (host : Host) (actor : WasmActor) (actorRef : String)
    (replica : Nat) (group : Ref) (failAt : Option Nat) :
    ∃ n, ∀ T : Heap TargetTable, T.next = host.targetTables.next →
      (host.withTargets T).startActor actor actorRef replica group failAt =
        ((host.startActor actor actorRef replica group failAt).1.withTargets (growTables T n),
          (host.startActor actor actorRef replica group failAt).2) := by
  cases hclaims : actor.claims with
  | none => exact ⟨0, fun T _ => by simp only [Host.startActor, hclaims, growTables]⟩
  | some claims =>
    refine ⟨1, fun T hT => ?_⟩
    have hhandler : (host.withTargets T).actorHandler claims group = host.actorHandler claims group := by
      simp only [Host.actorHandler, Host.withTargets, hT]
    have halloc : (host.withTargets T).allocTargets = host.allocTargets.withTargets (growTables T 1) := rfl
    simp only [Host.startActor, hclaims, hhandler, halloc, instantiateActor_withTargets]
    rcases Host.instantiateActor _ actor _ replica failAt with ⟨host', _ | _⟩ <;> rfl

theorem fillGroup_withTargets (host : Host) (group : Ref) (name : String) (actor : WasmActor)
    (actorRef : String) (replica : Nat) (failAt : Option Nat) :
    ∃ n, ∀ T : Heap TargetTable, T.next = host.targetTables.next →
      ((host.withTargets T).fillGroup group name actor actorRef replica failAt).1 =
        (host.fillGroup group name actor actorRef replica failAt).1.withTargets (growTables T n) := by
  have hgroups (T : Heap TargetTable) : (host.withTargets T).groups = host.groups := rfl
  unfold Host.fillGroup
  simp only [hgroups]
  cases host.groups.get? group with
  | none => exact ⟨0, fun T _ => rfl⟩
  | some g =>
    dsimp only
    cases g.actors.lookup name with
    | none =>
      dsimp only
      split
      · exact ⟨0, fun T _ => rfl⟩
      · obtain ⟨n, hstart⟩ := startActor_withTargets host actor actorRef replica group failAt
        refine ⟨n, fun T hT => ?_⟩
        rw [hstart T hT]
        rcases host.startActor actor actorRef replica group failAt with ⟨host', _ | _⟩ <;> rfl
    | some a =>
      refine ⟨0, fun T _ => ?_⟩
      dsimp only
      split
      · split
        · rfl
        · rw [instantiateActor_withTargets]
          rcases host.instantiateActor a.pool a.handler _ failAt with ⟨host', _ | _⟩ <;> rfl
      · rfl

theorem actorSection_withTargets (host : Host) (name : String) (failAt : Option Nat)
    (call : ActorCall) :
    ∃ n, ∀ T : Heap TargetTable, T.next = host.targetTables.next →
      (host.withTargets T).actorSection name failAt call =
        ((host.actorSection name failAt call).1.withTargets (growTables T n),
          (host.actorSection name failAt call).2) := by
  cases call with
  | check job =>
    refine ⟨0, fun T _ => ?_⟩
    simp only [Host.actorSection, Host.checkActorKey, Host.withTargets]
    cases host.actorKeys.lookup name with
    | none => rfl
    | some key => dsimp only; split <;> rfl
  | register job =>
    refine ⟨0, fun T _ => ?_⟩
    simp only [Host.actorSection, registerActorKey_withTargets, growTables]
  | lookup job =>
    refine ⟨0, fun T _ => ?_⟩
    simp only [Host.actorSection, lookupGroup_withTargets, growTables]
  | fill job group =>
    obtain ⟨n, hfill⟩ := fillGroup_withTargets host group name job.actor job.actorRef job.replica failAt
    refine ⟨n, fun T hT => ?_⟩
    simp only [Host.actorSection, hfill T hT]
  | readKey =>
    refine ⟨0, fun T _ => ?_⟩
    simp only [Host.actorSection, Host.readActorKey, Host.withTargets]
    cases host.actorKeys.lookup name <;> rfl
  | removeGroup key =>
    refine ⟨0, fun T _ => ?_⟩
    simp only [Host.actorSection, removeFromGroup_withTargets, growTables]
  | dropKey => exact ⟨0, fun T _ => rfl⟩

/-- A step goes the same way whatever the target tables hold. -/
theorem step_withTargets (sha256 : String → String) (s : System) (step : SystemStep) :
    ∃ n, ∀ T : Heap TargetTable, T.next = s.host.targetTables.next →
      (s.withTargets T).step sha256 step =
        (s.step sha256 step).map fun s' => s'.withTargets (growTables T n) := by
  cases step with
  | reconcileActor name actorRef fetched replica =>
    refine ⟨0, fun T _ => ?_⟩
    simp only [System.step, System.withTargets]
    split
    · rfl
    · cases ActorJob.fetched? actorRef fetched replica <;> rfl
  | removeActor name =>
    refine ⟨0, fun T _ => ?_⟩
    simp only [System.step, System.withTargets]
    split <;> rfl
  | actorSection name failAt =>
    cases hcall : s.actorCalls.lookup name with
    | none => exact ⟨0, fun T _ => by simp only [System.step, System.withTargets, hcall]; rfl⟩
    | some call =>
      obtain ⟨n, hsection⟩ := actorSection_withTargets s.host name failAt call
      refine ⟨n, fun T hT => ?_⟩
      simp only [System.step, System.withTargets, hcall, hsection T hT]
      rcases s.host.actorSection name failAt call with ⟨host', _ | _⟩ <;> rfl
  | addLinkdef ld =>
    refine ⟨0, fun T _ => ?_⟩
    simp only [System.step, System.withTargets, Host.addLinkdefInsert, Host.withTargets]
    split
    · rfl
    · cases s.host.links.lookup (ld.hash sha256) <;> rfl
  | deleteLinkdef ld =>
    refine ⟨0, fun T _ => ?_⟩
    simp only [System.step, System.withTargets, Host.deleteLinkdefRemove, Host.withTargets]
    split
    · rfl
    · cases s.host.links.lookup (ld.hash sha256) <;> rfl
  | routeLinkdef =>
    refine ⟨0, fun T _ => ?_⟩
    simp only [System.step, System.withTargets]
    split
    · split <;> rfl
    · rfl
  | publishLinkdef outcome =>
    refine ⟨0, fun T _ => ?_⟩
    simp only [System.step, System.withTargets]
    split
    · split
      · cases outcome <;> rfl
      · rfl
    · rfl

theorem step_targetAt {sha256 : String → String} {s s' : System} {step : SystemStep}
    (h : s.step sha256 step = some s') (cell : Ref) (interface : TargetInterface) :
    s'.host.targetAt cell interface = s.host.targetAt cell interface := by
  obtain ⟨n, hstep⟩ := step_withTargets sha256 s step
  have hself := hstep s.host.targetTables rfl
  rw [withTargets_self, h, Option.map_some] at hself
  have htables : s'.host.targetTables = growTables s.host.targetTables n :=
    congrArg (fun t => t.host.targetTables) (Option.some.inj hself)
  simp only [Host.targetAt, htables, growTables_lookup]

/-! ## Runs -/

section Runs

variable {sha256 : String → String} {latticePrefix : String} {s s' : System}

theorem step_busStep_setTarget {x : Invoker} {target : Option TargetEntity}
    {interfaces : List TargetInterface}
    (h : s.busStep sha256 (.setTarget x target interfaces) = some s') :
    x.handler.targets < s.host.targetTables.next ∧
      s' = s.withTargets
        (s.host.targetTables.modify x.handler.targets (·.set target interfaces)) := by
  simp only [System.busStep] at h
  split at h
  · rename_i table htable
    exact ⟨Heap.lt_next_of_get? htable, (Option.some.inj h).symm⟩
  · cases h

theorem step_busStep_interfaceCall {x : Invoker} {method : InterfaceMethod} {request : Bytes}
    (h : s.busStep sha256 (.interfaceCall x method request) = some s') :
    x.handler.targets < s.host.targetTables.next ∧ s' = s := by
  simp only [System.busStep] at h
  split at h
  · rename_i table htable
    exact ⟨Heap.lt_next_of_get? htable, (Option.some.inj h).symm⟩
  · cases h

theorem busStep_setTarget_of_lt {x : Invoker}
    (hcell : x.handler.targets < s.host.targetTables.next) (target : Option TargetEntity)
    (interfaces : List TargetInterface) :
    s.busStep sha256 (.setTarget x target interfaces) =
      some (s.withTargets
        (s.host.targetTables.modify x.handler.targets (·.set target interfaces))) := by
  obtain ⟨table, htable⟩ := Heap.exists_get?_iff.mpr hcell
  simp only [System.busStep, htable]
  rfl

theorem busStep_interfaceCall_of_lt {x : Invoker}
    (hcell : x.handler.targets < s.host.targetTables.next) (method : InterfaceMethod)
    (request : Bytes) :
    s.busStep sha256 (.interfaceCall x method request) = some s := by
  obtain ⟨table, htable⟩ := Heap.exists_get?_iff.mpr hcell
  simp only [System.busStep, htable]

/-- The only steps that change what a table holds are the writes to it. -/
theorem busStep_targetAt {l : BusStep} (h : s.busStep sha256 l = some s') (cell : Ref)
    (interface : TargetInterface) :
    s'.host.targetAt cell interface =
      valueFrom interface (s.host.targetAt cell interface) (l.write? cell).toList := by
  cases l with
  | host step => exact step_targetAt h cell interface
  | interfaceCall x method request =>
    obtain ⟨-, rfl⟩ := step_busStep_interfaceCall h
    rfl
  | setTarget x target interfaces =>
    obtain ⟨hcell, rfl⟩ := step_busStep_setTarget h
    obtain ⟨table, htable⟩ := Heap.exists_get?_iff.mpr hcell
    simp only [Host.targetAt, System.withTargets, Host.withTargets, Heap.get?_modify, BusStep.write?]
    by_cases hmine : cell = x.handler.targets
    · subst hmine
      simp [htable, TargetTable.lookup_set, Write.effect]
    · simp [hmine, Ne.symm hmine]

/-- What a table holds is the last write to it. -/
theorem exec_targetAt {ls : List BusStep} {t : System}
    (h : (busMachine sha256 latticePrefix).exec s ls = some t) (cell : Ref)
    (interface : TargetInterface) :
    t.host.targetAt cell interface =
      valueFrom interface (s.host.targetAt cell interface) (targetWrites cell ls) := by
  induction ls generalizing s with
  | nil =>
    cases h
    rfl
  | cons l ls ih =>
    obtain ⟨s₁, hs, hrest⟩ := Option.bind_eq_some_iff.mp h
    rw [ih hrest, busStep_targetAt hs, targetWrites_cons]
    exact List.foldl_append.symm

/-- A variant of a step goes the same way, whatever the target tables hold. -/
theorem busStep_variant {x : Invoker} {l l' : BusStep} (hvariant : l.Variant x l')
    (h : s.busStep sha256 l = some s') {T : Heap TargetTable}
    (hT : T.next = s.host.targetTables.next) :
    ∃ T', (s.withTargets T).busStep sha256 l' = some (s'.withTargets T') ∧
      T'.next = s'.host.targetTables.next := by
  have hset (y : Invoker) (target target' : Option TargetEntity)
      (interfaces interfaces' : List TargetInterface)
      (h : s.busStep sha256 (.setTarget y target interfaces) = some s') :
      ∃ T', (s.withTargets T).busStep sha256 (.setTarget y target' interfaces') =
          some (s'.withTargets T') ∧ T'.next = s'.host.targetTables.next := by
    obtain ⟨hcell, rfl⟩ := step_busStep_setTarget h
    have hthere : y.handler.targets < (s.withTargets T).host.targetTables.next := hT ▸ hcell
    refine ⟨_, busStep_setTarget_of_lt hthere target' interfaces', ?_⟩
    simpa [System.withTargets, Host.withTargets] using hT
  cases hvariant with
  | other target target' interfaces interfaces' _ =>
    exact hset _ target target' interfaces interfaces' h
  | same =>
    cases l with
    | host step =>
      obtain ⟨n, hstep⟩ := step_withTargets sha256 s step
      have hs : s.step sha256 step = some s' := h
      have hself := hstep s.host.targetTables rfl
      rw [withTargets_self, hs, Option.map_some] at hself
      have htables : s'.host.targetTables = growTables s.host.targetTables n :=
        congrArg (fun t => t.host.targetTables) (Option.some.inj hself)
      refine ⟨growTables T n, ?_, ?_⟩
      · show (s.withTargets T).step sha256 step = _
        rw [hstep T hT, hs, Option.map_some]
      · rw [htables, growTables_next, growTables_next, hT]
    | setTarget y target interfaces => exact hset y target target interfaces interfaces h
    | interfaceCall y method request =>
      obtain ⟨hcell, rfl⟩ := step_busStep_interfaceCall h
      have hthere : y.handler.targets < (s'.withTargets T).host.targetTables.next := hT ▸ hcell
      exact ⟨T, busStep_interfaceCall_of_lt hthere method request, hT⟩

/-- A variant of a run goes the same way. -/
theorem exec_variant {x : Invoker} {ls ls' : List BusStep} {t : System}
    (hvariant : List.Forall₂ (BusStep.Variant x) ls ls')
    (h : (busMachine sha256 latticePrefix).exec s ls = some t) {T : Heap TargetTable}
    (hT : T.next = s.host.targetTables.next) :
    ∃ T', (busMachine sha256 latticePrefix).exec (s.withTargets T) ls' = some (t.withTargets T') := by
  induction hvariant generalizing s T with
  | nil =>
    cases h
    exact ⟨T, rfl⟩
  | cons hl _ ih =>
    obtain ⟨s₁, hs, hrest⟩ := Option.bind_eq_some_iff.mp h
    obtain ⟨T₁, hs', hT₁⟩ := busStep_variant hl hs hT
    obtain ⟨T', hrest'⟩ := ih hrest hT₁
    refine ⟨T', ?_⟩
    show ((s.withTargets T).busStep sha256 _).bind _ = _
    rw [hs']
    exact hrest'

end Runs

/-! ## Variants of a run and of its writes -/

theorem targetWrites_variant {x : Invoker} {ls ls' : List BusStep}
    (h : List.Forall₂ (BusStep.Variant x) ls ls') (cell : Ref) :
    Variant x (targetWrites cell ls) (targetWrites cell ls') := by
  induction h with
  | nil => exact .refl x []
  | @cons l l' ls ls' hl _ ih =>
    rw [targetWrites_cons, targetWrites_cons]
    refine Variant.append ?_ ih
    cases hl with
    | same => exact .refl x _
    | @other y target target' interfaces interfaces' hother =>
      by_cases hcell : y.handler.targets = cell
      · simp only [BusStep.write?, hcell, if_true]
        exact .cons ⟨rfl, fun hown => absurd hown hother⟩ .nil
      · simp only [BusStep.write?, hcell, if_false]
        exact .refl x []

/-- Whatever other writes the others could have made to a table, a variant of
the run makes them. -/
theorem exists_run_variant {x : Invoker} {cell : Ref} {ls : List BusStep}
    {ws' : List (Write Invoker TargetInterface TargetEntity)}
    (h : Variant x (targetWrites cell ls) ws') :
    ∃ ls', List.Forall₂ (BusStep.Variant x) ls ls' ∧ targetWrites cell ls' = ws' := by
  induction ls generalizing ws' with
  | nil =>
    cases h
    exact ⟨[], .nil, rfl⟩
  | cons l ls ih =>
    cases hwrite : l.write? cell with
    | none =>
      rw [targetWrites, List.filterMap_cons_none hwrite] at h
      obtain ⟨ls', hls, rfl⟩ := ih h
      exact ⟨l :: ls', .cons (.same l) hls, List.filterMap_cons_none hwrite⟩
    | some w =>
      rw [targetWrites, List.filterMap_cons_some hwrite] at h
      cases h with
      | @cons _ w' _ ws' hw hws =>
        obtain ⟨ls', hls, rfl⟩ := ih hws
        cases l with
        | host step => cases hwrite
        | interfaceCall y method request => cases hwrite
        | setTarget y target interfaces =>
          simp only [BusStep.write?] at hwrite
          split at hwrite
          · rename_i hcell
            cases hwrite
            obtain ⟨who, keys, value⟩ := w'
            obtain ⟨rfl, hown⟩ := hw
            refine ⟨.setTarget who value keys :: ls', .cons ?_ hls, ?_⟩
            · by_cases hx : who = x
              · cases hown hx
                exact .same _
              · exact .other target value interfaces keys hx
            · refine List.filterMap_cons_some ?_
              simp only [BusStep.write?, hcell, if_true]
          · cases hwrite

/-- The table of `x` alone holds what its own writes put there. -/
theorem ownTable_lookup (x : Invoker) (ls : List BusStep) (interface : TargetInterface) :
    (ownTable x ls).lookup interface =
      valueAfter interface (ownWrites x (targetWrites x.handler.targets ls)) := by
  suffices hfrom : ∀ targets : TargetTable,
      (ls.foldl (BusStep.ownEffect x) targets).lookup interface =
        valueFrom interface (targets.lookup interface)
          (ownWrites x (targetWrites x.handler.targets ls)) from hfrom ∅
  induction ls with
  | nil => exact fun _ => rfl
  | cons l ls ih =>
    intro targets
    rw [List.foldl_cons, ih]
    cases l with
    | host step => rfl
    | interfaceCall y method request => rfl
    | setTarget y target interfaces =>
      by_cases hown : y = x
      · subst hown
        simp [BusStep.ownEffect, targetWrites, BusStep.write?, ownWrites, TargetTable.lookup_set,
          Write.effect]
      · by_cases hcell : y.handler.targets = x.handler.targets <;>
          simp [BusStep.ownEffect, targetWrites, BusStep.write?, ownWrites, hown, hcell]

/-! ## Isolation -/

section Isolation

variable {sha256 : String → String} {latticePrefix : String}

/-- The instances of an actor share its handler, and with it the target
table. -/
theorem sameActor_sameTargets {ls : List BusStep} {t : System}
    (h : (busMachine sha256 latticePrefix).exec (.new latticePrefix) ls = some t) {ref : Ref}
    {name : String} {a : Actor} (ha : t.host.actorAt ref name = some a) {x y : Invoker}
    (hx : x.actorInstance ∈ a.instances) (hy : y.actorInstance ∈ a.instances) :
    x.handler.targets = y.handler.targets := by
  have hbuilt : HandlersBuilt t.host := by
    refine Machine.exec_invariant (I := fun s => HandlersBuilt s.host) ?_ h ?_
    · intro s l s' hI hs
      cases l with
      | host step => exact handlersBuilt_step hI hs
      | setTarget x target interfaces =>
        have hset : s.busStep sha256 (.setTarget x target interfaces) = some s' := hs
        obtain ⟨-, rfl⟩ := step_busStep_setTarget hset
        exact hI
      | interfaceCall x method request =>
        have hcall : s.busStep sha256 (.interfaceCall x method request) = some s' := hs
        obtain ⟨-, rfl⟩ := step_busStep_interfaceCall hcall
        exact hI
    · intro ref name a ha
      cases ha
  obtain ⟨-, hshared⟩ := hbuilt ref name a ha
  rw [Invoker.handler, Invoker.handler, hshared _ hx, hshared _ hy]

/-- A call uses the targets of its own invocation, whatever the others set,
exactly if every write of another invocation to the actor's table is followed
by one of its own invocation at the interface it uses. -/
theorem targets_isolated_iff {ls : List BusStep} {t : System}
    (h : (busMachine sha256 latticePrefix).exec (.new latticePrefix) ls = some t)
    (chunkThreshold : Nat) (x : Invoker) (method : InterfaceMethod) :
    TargetIsolated sha256 latticePrefix chunkThreshold ls t x method ↔
      Alone x method.interface (targetWrites x.handler.targets ls) := by
  have htarget {ls' : List BusStep} {t' : System}
      (h' : (busMachine sha256 latticePrefix).exec (.new latticePrefix) ls' = some t') :
      t'.host.targetFor x.handler method.interface =
        valueAfter method.interface (targetWrites x.handler.targets ls') :=
    exec_targetAt h' x.handler.targets method.interface
  rw [← valueAfter_variant_iff]
  constructor
  · intro hisolated ws' hws
    obtain ⟨ls', hls, rfl⟩ := exists_run_variant hws
    obtain ⟨T', h'⟩ := exec_variant hls h (T := .empty) rfl
    rw [← htarget h', (hisolated ls' _ hls h').1, ownTable_lookup]
  · intro hall ls' t' hls h'
    have hown {us : List BusStep} (hus : List.Forall₂ (BusStep.Variant x) ls us) :
        valueAfter method.interface (targetWrites x.handler.targets us) =
          (ownTable x ls).lookup method.interface := by
      rw [ownTable_lookup]
      exact hall _ (targetWrites_variant hus x.handler.targets)
    have huses : t'.host.targetFor x.handler method.interface =
        (ownTable x ls).lookup method.interface := (htarget h').trans (hown hls)
    have hused : t.host.targetFor x.handler method.interface =
        (ownTable x ls).lookup method.interface :=
      (htarget h).trans (hown (List.forall₂_same.mpr fun l _ => .same l))
    refine ⟨huses, fun request => ?_⟩
    -- both runs end in the same state but for the target tables
    obtain ⟨T', hsame⟩ := exec_variant hls h (T := .empty) rfl
    have ht' : t' = t.withTargets T' := Option.some.inj (h'.symm.trans hsame)
    have hlinks : t'.host.linksOf x.handler = t.host.linksOf x.handler := by rw [ht']; rfl
    have haliases : t'.host.aliases = t.host.aliases := by rw [ht']; rfl
    simp only [Host.interfaceCall, hlinks, haliases, huses, hused]

end Isolation

/-! ## Two invocations of one actor -/

def messengerClaims : Jwt.Claims Jwt.Actor :=
  ⟨"A", "M", 0, none, none, some ⟨none, some ["wasmcloud:messaging"], false, none, none, none⟩⟩

def imageMessenger : WasmActor where
  module := "messenger"
  claims := some messengerClaims

/-- Actor `M` is started with two instances. -/
def startMessenger : List BusStep :=
  [.host (.reconcileActor "messenger" "image" (.ok imageMessenger) 2),
    .host (.actorSection "messenger" none), .host (.actorSection "messenger" none),
    .host (.actorSection "messenger" none), .host (.actorSection "messenger" none)]

/-- A message handled by one of the two. -/
def messengerCall (id : Ulid) : Invoker where
  actorInstance := ⟨id, Host.actorHandler (.new "default") messengerClaims 0, imageMessenger⟩
  message := 0

/-- An invocation of the second instance sets a link for messaging. -/
def leakingRun : List BusStep :=
  startMessenger ++
    [.setTarget (messengerCall 1) (some (.link (some "other"))) [.wasmcloudMessagingConsumer]]

/-- An invocation of the first instance, which set nothing, publishes over
that link. -/
theorem leakingRun_not_isolated :
    ∃ t, (busMachine id "default").exec (.new "default") leakingRun = some t ∧
      (∀ i ∈ [0, 1], (messengerCall i).actorInstance ∈ t.host.instancesAt 0 "messenger") ∧
      t.host.targetFor (messengerCall 0).handler InterfaceMethod.publish.interface =
        some (.link (some "other")) ∧
      ¬ TargetIsolated id "default" 1024 leakingRun t (messengerCall 0) .publish := by
  have htarget : ((busMachine id "default").exec (.new "default") leakingRun).map
      (fun t => t.host.targetFor (messengerCall 0).handler InterfaceMethod.publish.interface) =
        some (some (.link (some "other"))) := by decide
  have hinstances : ((busMachine id "default").exec (.new "default") leakingRun).map
      (fun t => decide (∀ i ∈ [0, 1],
        (messengerCall i).actorInstance ∈ t.host.instancesAt 0 "messenger")) = some true := by decide
  obtain ⟨t, hexec, htarget⟩ := Option.map_eq_some_iff.mp htarget
  rw [hexec, Option.map_some, Option.some.injEq, decide_eq_true_iff] at hinstances
  refine ⟨t, hexec, hinstances, htarget, fun hisolated => ?_⟩
  have hown := (hisolated leakingRun t (List.forall₂_same.mpr fun l _ => .same l) hexec).1
  rw [htarget] at hown
  revert hown
  decide

/-- The first invocation sets its own target after the other. -/
def settingRun : List BusStep :=
  leakingRun ++
    [.setTarget (messengerCall 0) (some (.link (some "mine"))) [.wasmcloudMessagingConsumer]]

theorem settingRun_isolated :
    ∃ t, (busMachine id "default").exec (.new "default") settingRun = some t ∧
      TargetIsolated id "default" 1024 settingRun t (messengerCall 0) .publish := by
  have hruns : ((busMachine id "default").exec (.new "default") settingRun).isSome = true := by
    decide
  obtain ⟨t, hexec⟩ := Option.isSome_iff_exists.mp hruns
  exact ⟨t, hexec, (targets_isolated_iff hexec 1024 _ _).mpr (by decide)⟩

end KasmCloud
