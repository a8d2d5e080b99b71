import PlatformHealth.Engine.Effects
import PlatformHealth.Engine.LockFreedom

namespace PlatformHealth

open LockDiscipline

namespace PhmEngine

variable {μ ε : Type} [IMonitor μ ε]

section
variable {e f : PhmEngine μ}

theorem eq_of_unlocked (hfree : f.mutex = false) (h : e = { f with mutex := false }) : e = f := by
  rw [h, ← hfree]

def added (e : PhmEngine μ) (cfg : SEConfig) : PhmEngine μ :=
  if e.entities.contains cfg.name then e
  else { e with
    objects := e.objects ++ [{ SupervisedEntity.new cfg with stateCb := true }]
    entities := e.entities.insert cfg.name e.objects.length }

def loaded (e : PhmEngine μ) (path : String) (result : ParseResult) : PhmEngine μ :=
  { Runs.run added { e with config := result.global } result.entities with configPath := path }

def named (e : PhmEngine μ) (name : String) : Option (SupervisedEntity μ) :=
  e.entities[name]?.bind fun ref => e.objects[ref]?

theorem mutex_added (cfg : SEConfig) : (e.added cfg).mutex = e.mutex := by
  unfold added
  split <;> rfl

theorem addSupervisedEntity_eq (hfree : e.mutex = false) (cfg : SEConfig) :
    addSupervisedEntity cfg e = .ok (!e.entities.contains cfg.name, e.added cfg) := by
  have hlocked : ({ e with mutex := false } : PhmEngine μ) = e := by rw [← hfree]
  have hends : Ends (addSupervisedEntity cfg) e
      (fun ok f => ok = !e.entities.contains cfg.name ∧ f = e.added cfg) (fun _ => False) := by
    rw [addSupervisedEntity, ends_withLock_of_free hfree, ends_bind, ends_get]
    change Ends (if e.entities.contains cfg.name = true then _ else _) _ _ _
    cases hknown : e.entities.contains cfg.name with
    | true => exact ⟨rfl, by rw [added, if_pos hknown]; exact hlocked⟩
    | false =>
      refine ⟨rfl, ?_⟩
      rw [added, if_neg (by simp [hknown])]
      conv_rhs => rw [← hlocked]
      rfl
  obtain ⟨_, f, hf, rfl, rfl⟩ := ends_ok_iff.mp hends
  exact hf

theorem addAll_eq (hfree : e.mutex = false) (cfgs : List SEConfig) :
    addAll cfgs e = .ok ((), Runs.run added e cfgs) := by
  induction cfgs generalizing e with
  | nil => rfl
  | cons cfg rest ih =>
    have hnext := ih ((mutex_added cfg).trans hfree)
    change (addSupervisedEntity cfg e >>= fun p => addAll rest p.2) = _
    rw [addSupervisedEntity_eq hfree]
    exact hnext

theorem loadConfiguration_eq (hfree : e.mutex = false) (path : String) (result : ParseResult) :
    loadConfiguration path (.ok result) e = .ok (true, e.loaded path result) := by
  have hadd := addAll_eq (e := { e with config := result.global }) hfree result.entities
  change (addAll result.entities { e with config := result.global } >>= fun p =>
    .ok (true, { p.2 with configPath := path })) = _
  rw [hadd]
  rfl

theorem reloadConfiguration_eq (hfree : e.mutex = false) (hpath : e.configPath ≠ "")
    (result : ParseResult) :
    reloadConfiguration (.ok result) e = .ok (true, e.loaded e.configPath result) := by
  change (if e.configPath = "" then _ else loadConfiguration e.configPath (.ok result)) e = _
  rw [if_neg hpath, loadConfiguration_eq hfree]

def enrolled (e : PhmEngine μ) (ref : Nat) : PhmEngine μ :=
  match e.objects[ref]? with
  | none => e
  | some se =>
    if e.entities.contains se.config.name then e
    else { e.store ref { se with stateCb := true } with
      entities := e.entities.insert se.config.name ref }

def removed (e : PhmEngine μ) (name : String) : PhmEngine μ :=
  match e.entities[name]? with
  | none => e
  | some ref =>
    { e with
      objects := e.objects.modify ref SupervisedEntity.stop
      entities := e.entities.erase name }

def stopped (e : PhmEngine μ) : PhmEngine μ :=
  if e.running then { e with running := false, worker := none, objects := stopAll e.refs e.objects }
  else { e with running := false }

theorem ends_registerEntity (hfree : e.mutex = false) (entity : Option Nat) :
    Ends (registerEntity entity) e (fun _ f => f = (entity.map e.enrolled).getD e)
      (fun _ => False) := by
  cases entity with
  | none => exact rfl
  | some ref =>
    rw [registerEntity, ends_withLock_of_free hfree, ends_bind, ends_get]
    change Ends (match e.objects[ref]? with | none => _ | some se => _) _ _ _
    cases hse : e.objects[ref]? with
    | none =>
      simp only [Option.map_some, Option.getD_some, enrolled, hse]
      exact eq_of_unlocked hfree rfl
    | some se =>
      dsimp only
      change Ends (if e.entities.contains se.config.name = true then _ else _) _ _ _
      cases hknown : e.entities.contains se.config.name with
      | true =>
        simp only [Option.map_some, Option.getD_some, enrolled, hse, hknown, if_true]
        exact eq_of_unlocked hfree rfl
      | false =>
        simp only [Option.map_some, Option.getD_some, enrolled, hse, hknown, Bool.false_eq_true, if_false]
        exact eq_of_unlocked hfree rfl

theorem ends_removeEntity (hfree : e.mutex = false) (name : String) :
    Ends (removeEntity name) e (fun _ f => f = e.removed name) (fun _ => False) := by
  rw [removeEntity, ends_withLock_of_free hfree, ends_bind, ends_get]
  change Ends (match e.entities[name]? with | none => _ | some ref => _) _ _ _
  cases href : e.entities[name]? with
  | none =>
    simp only [removed, href]
    exact eq_of_unlocked hfree rfl
  | some ref =>
    simp only [removed, href]
    exact eq_of_unlocked hfree rfl

theorem ends_stop (hfree : e.mutex = false) :
    Ends stop e (fun _ f => f = e.stopped) (fun _ => False) := by
  rw [stop, ends_bind, ends_withLock_of_free hfree, ends_bind, ends_get]
  cases hrun : e.running with
  | false =>
    rw [ends_bind, ends_set, ends_pure, if_neg Bool.false_ne_true, ends_pure, stopped, hrun,
      if_neg Bool.false_ne_true]
    exact eq_of_unlocked hfree rfl
  | true =>
    rw [ends_bind, ends_set, ends_pure, if_pos rfl, ends_bind, ends_modify, ends_withLock_of_free rfl,
      ends_modify, stopped, if_pos hrun]
    exact eq_of_unlocked hfree rfl

end

def launched (readings : Nat → Nat → ε) (ref : Nat) (se : SupervisedEntity μ) : SupervisedEntity μ :=
  if se.config.enabled then se.apply (.start (readings ref)) else se

theorem ends_startEntities {readings : Nat → Nat → ε} {refs : List Nat} (hnodup : refs.Nodup)
    {e : PhmEngine μ} (hlock : e.mutex = true)
    (hcb : ∀ ref ∈ refs, ∃ se, e.objects[ref]? = some se ∧ se.stateCb = true) :
    Ends (startEntities readings refs) e
      (fun _ f => f = { e with objects := f.objects } ∧
        Swept (launched readings) refs e.objects f.objects)
      (fun _ => True) := by
  induction refs generalizing e with
  | nil => exact ⟨rfl, .nil _ _⟩
  | cons ref rest ih =>
    obtain ⟨hnot, hnodup'⟩ := List.nodup_cons.mp hnodup
    obtain ⟨se, hse, hsecb⟩ := hcb ref (by simp)
    have hrest : ∀ r ∈ rest, ∃ t, e.objects[r]? = some t ∧ t.stateCb = true :=
      fun r hr => hcb r (by simp [hr])
    rw [startEntities, ends_bind, ends_get, hse]
    dsimp only
    cases henabled : se.config.enabled with
    | false =>
      have hkept : e.objects.set ref (launched readings ref se) = e.objects := by
        obtain ⟨hlt, rfl⟩ := List.getElem?_eq_some_iff.mp hse
        rw [launched, henabled, if_neg Bool.false_ne_true, List.set_getElem_self]
      refine (ih hnodup' hlock hrest).mono ?_ (fun _ h => h)
      rintro _ f ⟨hsame, hswept⟩
      exact ⟨hsame, .cons hnot hse (by rwa [hkept])⟩
    | true =>
      have hstart : launched readings ref se = se.apply (.start (readings ref)) := by
        rw [launched, henabled, if_pos rfl]
      rw [if_pos rfl, ends_bind]
      by_cases hlaunch : Launches se (readings ref)
      · exact (relock_of_launches hlock hsecb hlaunch).mono (fun _ _ h => h.elim) (fun _ _ => trivial)
      · refine (start_of_not_launches hlaunch).mono ?_ (fun _ _ => trivial)
        rintro ⟨se', ok⟩ f ⟨rfl, rfl⟩
        rw [ends_bind, ends_modify]
        have hothers : ∀ r ∈ rest, ∃ t, (f.store ref (se.apply (.start (readings ref)))).objects[r]? =
            some t ∧ t.stateCb = true := by
          intro r hr
          have hne : ref ≠ r := fun heq => hnot (heq ▸ hr)
          rw [store, List.getElem?_set_ne hne]
          exact hrest r hr
        refine (ih (e := f.store ref (se.apply (.start (readings ref)))) hnodup' hlock hothers).mono ?_
          (fun _ h => h)
        rintro _ g ⟨hsame, hswept⟩
        refine ⟨?_, .cons hnot hse ?_⟩
        · rw [hsame]
          rfl
        · rw [hstart]
          exact hswept

section
variable {e : PhmEngine μ}

theorem ends_start (he : e.Ready) (readings : Nat → Nat → ε) :
    Ends (start readings) e
      (fun _ f => if e.running then f = e
        else f = { e with
            objects := f.objects, running := true, worker := some e.config.tickInterval } ∧
          Swept (launched readings) e.refs e.objects f.objects)
      (fun _ => True) := by
  rw [start, ends_withLock_of_free he.free, ends_bind, ends_get]
  cases hrun : e.running with
  | true =>
    rw [if_pos rfl]
    exact eq_of_unlocked he.free rfl
  | false =>
    rw [if_neg Bool.false_ne_true, ends_bind, ends_get, ends_bind]
    refine (ends_startEntities (e := { e with mutex := true }) he.registered.nodup_refs rfl
      fun _ href => he.registered.exists_of_mem_refs href).mono ?_ (fun _ h => h)
    rintro _ f ⟨hsame, hswept⟩
    rw [ends_bind, ends_modify]
    refine ⟨?_, hswept⟩
    rw [hsame]
    exact eq_of_unlocked he.free rfl

end

def restarts (se : SupervisedEntity μ) (r : EntityReading ε) : Bool :=
  let checked := se.apply (.checkAll r.check)
  checked.currentState = .fatal && checked.config.autoRestart

def Effect : EngineStep μ ε → PhmEngine μ → PhmEngine μ → Prop
  | .call (.addSupervisedEntity cfg), e, f => f = e.added cfg
  | .call (.registerEntity entity), e, f => f = (entity.map e.enrolled).getD e
  | .call (.removeEntity name), e, f => f = e.removed name
  | .call (.loadConfiguration path (.ok result)), e, f => f = e.loaded path result
  | .call (.reloadConfiguration (.ok result)), e, f =>
    f = if e.configPath = "" then e else e.loaded e.configPath result
  | .call (.start readings), e, f =>
    if e.running then f = e
    else f = { e with objects := f.objects, running := true, worker := some e.config.tickInterval } ∧
      Swept (launched readings) e.refs e.objects f.objects
  | .call .stop, e, f => f = e.stopped
  | .call (.setGlobalStateCallback installed), e, f => f = { e with globalStateCb := installed }
  | .call _, e, f => f = e
  | .tick readings uptimeMs, e, f =>
    if e.running then
      f = { e with objects := f.objects, reported := f.reported, uptimeMs } ∧
        Swept (fun ref se => entityTick se (readings ref)) e.refs e.objects f.objects ∧
        ∀ ref ∈ e.refs, ∀ se, e.objects[ref]? = some se → Completes se (readings ref)
    else f = e
  | .makeShared cfg, e, f => f = { e with objects := e.objects ++ [SupervisedEntity.new cfg] }
  | .useEntity ref op, e, f =>
    f = (e.objects[ref]?.map fun se => e.store ref (se.apply op)).getD e

def Inert (e : PhmEngine μ) : EngineStep μ ε → Prop
  | .call (.addSupervisedEntity _) | .call (.removeEntity _) | .call .stop => False
  | .call (.registerEntity entity) => entity = none
  | .call (.loadConfiguration _ parsed) => ∃ what, parsed = .error what
  | .call (.reloadConfiguration parsed) => (∃ what, parsed = .error what) ∨ e.configPath = ""
  | .call (.start _) => e.running = true
  | .call (.setGlobalStateCallback _) | .makeShared _ => False
  | .call _ => True
  | .tick _ _ => e.running = false
  | .useEntity ref _ => e.objects[ref]? = none

inductive Change (e : PhmEngine μ) : EngineStep μ ε → PhmEngine μ → Prop
  | inert {s : EngineStep μ ε} : Inert e s → Change e s e
  | added (cfg : SEConfig) : Change e (.call (.addSupervisedEntity cfg)) (e.added cfg)
  | enrolled (ref : Nat) : Change e (.call (.registerEntity (some ref))) (e.enrolled ref)
  | removed (name : String) : Change e (.call (.removeEntity name)) (e.removed name)
  | loaded (path : String) (result : ParseResult) :
    Change e (.call (.loadConfiguration path (.ok result))) (e.loaded path result)
  | reloaded (result : ParseResult) : e.configPath ≠ "" →
    Change e (.call (.reloadConfiguration (.ok result))) (e.loaded e.configPath result)
  | started (readings : Nat → Nat → ε) (objects : List (SupervisedEntity μ)) : e.running = false →
    Swept (launched readings) e.refs e.objects objects →
    Change e (.call (.start readings))
      { e with objects, running := true, worker := some e.config.tickInterval }
  | stopped : Change e (.call .stop) e.stopped
  | calledBack (installed : Bool) :
    Change e (.call (.setGlobalStateCallback installed)) { e with globalStateCb := installed }
  | ticked (readings : Nat → EntityReading ε) (uptimeMs : Nat) (objects : List (SupervisedEntity μ))
    (reported : List DataRecord) : e.running = true →
    Swept (fun ref se => entityTick se (readings ref)) e.refs e.objects objects →
    Change e (.tick readings uptimeMs) { e with objects, reported, uptimeMs }
  | shared (cfg : SEConfig) :
    Change e (.makeShared cfg) { e with objects := e.objects ++ [SupervisedEntity.new cfg] }
  | used {ref : Nat} {se : SupervisedEntity μ} (op : EntityOp μ ε) : e.objects[ref]? = some se →
    Change e (.useEntity ref op) (e.store ref (se.apply op))

section
variable {e f : PhmEngine μ}

theorem ends_loadConfiguration (hfree : e.mutex = false) (path : String) (result : ParseResult) :
    Ends (loadConfiguration path (.ok result)) e (fun _ f => f = e.loaded path result)
      (fun _ => False) :=
  ends_ok_iff.mpr ⟨true, _, loadConfiguration_eq hfree path result, rfl⟩

theorem Ends.discarded {α : Type} {x : EngineM μ α} {Q : PhmEngine μ → Prop} {F : Fault CheckFault → Prop}
    (h : Ends x e (fun _ f => Q f) F) : Ends (discard x) e (fun _ f => Q f) (fun _ => True) :=
  ends_map.mpr (h.mono (fun _ _ h => h) (fun _ _ => trivial))

theorem ends_query {α : Type} (hfree : e.mutex = false) (g : PhmEngine μ → α) :
    Ends (withLock do return g (← get) : EngineM μ α) e (fun _ f => f = e) (fun _ => False) := by
  rw [ends_withLock_of_free hfree]
  exact eq_of_unlocked hfree rfl

theorem ends_call (he : e.Ready) (op : EngineOp ε) :
    Ends (perform op : EngineM μ Unit) e (fun _ f => Effect (.call op : EngineStep μ ε) e f)
      (fun _ => True) := by
  cases op with
  | addSupervisedEntity cfg =>
    exact Ends.discarded (ends_ok_iff.mpr ⟨_, _, addSupervisedEntity_eq he.free cfg, rfl⟩)
  | registerEntity entity => exact Ends.discarded (ends_registerEntity he.free entity)
  | removeEntity name => exact Ends.discarded (ends_removeEntity he.free name)
  | loadConfiguration path parsed =>
    cases parsed with
    | error what => exact rfl
    | ok result => exact Ends.discarded (ends_loadConfiguration he.free path result)
  | reloadConfiguration parsed =>
    refine Ends.discarded (F := fun _ => False) ?_
    rw [reloadConfiguration, ends_bind, ends_get]
    dsimp only
    cases parsed with
    | error what => split <;> exact rfl
    | ok result =>
      split
      · next hpath => exact (if_pos hpath).symm
      · next hpath =>
        refine (ends_loadConfiguration he.free e.configPath result).mono ?_ (fun _ h => h)
        rintro _ f rfl
        exact (if_neg hpath).symm
  | start readings => exact Ends.discarded (ends_start he readings)
  | stop => exact (ends_stop he.free).mono (fun _ _ h => h) (fun _ h => h.elim)
  | isRunning => exact rfl
  | getGlobalState => exact Ends.discarded (ends_query he.free worst)
  | getEntity name => exact Ends.discarded (ends_query he.free fun e => e.entities[name]?)
  | getEntityNames => exact Ends.discarded (ends_query he.free fun e => e.entities.keys)
  | getStats =>
    exact ends_map.mpr ((getStats_relocks he).mono (fun _ _ h => h.elim) (fun _ _ => trivial))
  | getAllEvents minSeverity => exact rfl
  | acknowledgeEvents eventIds => exact rfl
  | setGlobalStateCallback installed => exact rfl
  | config => exact rfl

theorem ends_exec (he : e.Ready) (s : EngineStep μ ε) :
    Ends (exec s) e (fun _ f => Effect s e f) (fun _ => True) := by
  cases s with
  | call op => exact ends_call he op
  | tick readings uptimeMs =>
    cases hrun : e.running with
    | true =>
      refine (ends_tick he hrun readings uptimeMs).mono ?_ (fun _ _ => trivial)
      rintro _ f h
      rwa [Effect, if_pos hrun]
    | false =>
      rw [exec, tick, ends_bind, ends_get, hrun, if_neg Bool.false_ne_true, ends_pure, Effect,
        if_neg (by simp [hrun])]
  | makeShared cfg => exact rfl
  | useEntity ref op =>
    cases hse : e.objects[ref]? with
    | none =>
      rw [exec, useEntity, ends_bind, ends_get, hse]
      simp [Effect, hse]
    | some se =>
      have hends : Ends (useEntity ref op) e (fun _ f => f = e.store ref (se.apply op))
          (fun _ => False) := ends_ok_iff.mpr ⟨(), _, useEntity_eq he.free hse op, rfl⟩
      refine hends.mono ?_ (fun _ h => h.elim)
      rintro _ f rfl
      simp [Effect, hse]

theorem effect_of_exec (he : e.Ready) {s : EngineStep μ ε} (h : exec s e = .ok ((), f)) :
    Effect s e f := by
  have hends := ends_exec he s
  rw [Ends, h] at hends
  exact hends

def execAll : List (EngineStep μ ε) → EngineM μ Unit
  | [] => return
  | s :: rest => do
    exec s
    execAll rest

theorem Reachable.execAll {steps : List (EngineStep μ ε)} (h : Reachable e)
    (hexec : execAll steps e = .ok ((), f)) : Reachable f := by
  induction steps generalizing e with
  | nil =>
    cases hexec
    exact h
  | cons s rest ih =>
    change (exec s e >>= fun out => PhmEngine.execAll rest out.2) = _ at hexec
    cases hs : exec s e with
    | error x =>
      rw [hs] at hexec
      cases hexec
    | ok out =>
      rw [hs] at hexec
      exact ih (h.step s hs) hexec

theorem evolves_added (e : PhmEngine μ) (cfg : SEConfig) : Evolves e.objects (e.added cfg).objects := by
  unfold added
  split
  · exact .refl _
  · exact evolves_append _ _

theorem evolves_loaded (e : PhmEngine μ) (path : String) (result : ParseResult) :
    Evolves e.objects (e.loaded path result).objects := by
  have hstep (f : PhmEngine μ) (cfg : SEConfig) (h : Evolves e.objects f.objects) :
      Evolves e.objects (f.added cfg).objects := h.trans (evolves_added f cfg)
  exact Runs.run_invariant (P := fun f : PhmEngine μ => Evolves e.objects f.objects) hstep
    (s := { e with config := result.global }) (.refl _) result.entities

theorem evolves_enrolled (e : PhmEngine μ) (ref : Nat) : Evolves e.objects (e.enrolled ref).objects := by
  unfold enrolled
  split
  · exact .refl _
  · next se hse =>
    split
    · exact .refl _
    · exact (Evolves.refl _).set hse rfl fun _ => rfl

theorem evolves_removed (e : PhmEngine μ) (name : String) :
    Evolves e.objects (e.removed name).objects := by
  unfold removed
  split
  · exact .refl _
  · exact evolves_modify _ _ (fun _ => rfl) (fun _ => rfl)

theorem evolves_stopped (e : PhmEngine μ) : Evolves e.objects e.stopped.objects := by
  unfold stopped
  split
  · exact evolves_stopAll _ _
  · exact .refl _

theorem config_launched (readings : Nat → Nat → ε) (ref : Nat) (se : SupervisedEntity μ) :
    (launched readings ref se).config = se.config := by
  unfold launched
  split
  · exact SupervisedEntity.config_run se [.start (readings ref)]
  · rfl

theorem stateCb_launched (readings : Nat → Nat → ε) (ref : Nat) (se : SupervisedEntity μ) :
    (launched readings ref se).stateCb = se.stateCb := by
  unfold launched
  split
  · exact SupervisedEntity.stateCb_apply se (.start (readings ref))
  · rfl

theorem Effect.change {s : EngineStep μ ε} (h : Effect s e f) : Change e s f := by
  cases s with
  | call op =>
    cases op with
    | addSupervisedEntity cfg => exact h ▸ .added cfg
    | registerEntity entity =>
      obtain rfl : f = (entity.map e.enrolled).getD e := h
      cases entity with
      | none => exact .inert rfl
      | some ref => exact .enrolled ref
    | removeEntity name => exact h ▸ .removed name
    | loadConfiguration path parsed =>
      cases parsed with
      | error what => exact h ▸ .inert ⟨what, rfl⟩
      | ok result => exact h ▸ .loaded path result
    | reloadConfiguration parsed =>
      cases parsed with
      | error what => exact h ▸ .inert (.inl ⟨what, rfl⟩)
      | ok result =>
        obtain rfl : f = if e.configPath = "" then e else e.loaded e.configPath result := h
        split
        · next hpath => exact .inert (.inr hpath)
        · next hpath => exact .reloaded result hpath
    | start readings =>
      cases hrun : e.running with
      | true =>
        rw [Effect, if_pos hrun] at h
        rw [h]
        exact .inert hrun
      | false =>
        rw [Effect, hrun, if_neg Bool.false_ne_true] at h
        rw [h.1]
        exact .started readings f.objects hrun h.2
    | stop => exact h ▸ .stopped
    | setGlobalStateCallback installed => exact h ▸ .calledBack installed
    | _ => exact h ▸ .inert trivial
  | tick readings uptimeMs =>
    cases hrun : e.running with
    | true =>
      rw [Effect, if_pos hrun] at h
      rw [h.1]
      exact .ticked readings uptimeMs f.objects f.reported hrun h.2.1
    | false =>
      rw [Effect, hrun, if_neg Bool.false_ne_true] at h
      rw [h]
      exact .inert hrun
  | makeShared cfg => exact h ▸ .shared cfg
  | useEntity ref op =>
    obtain rfl : f = (e.objects[ref]?.map fun se => e.store ref (se.apply op)).getD e := h
    cases hse : e.objects[ref]? with
    | none => exact .inert hse
    | some se => exact .used op hse

theorem Effect.evolves {s : EngineStep μ ε} (h : Effect s e f) : Evolves e.objects f.objects := by
  cases h.change with
  | inert _ => exact .refl _
  | added cfg => exact evolves_added e cfg
  | enrolled ref => exact evolves_enrolled e ref
  | removed name => exact evolves_removed e name
  | loaded path result => exact evolves_loaded e path result
  | reloaded result _ => exact evolves_loaded e e.configPath result
  | started readings objects _ hswept =>
    exact hswept.evolves (config_launched readings) (stateCb_launched readings)
  | stopped => exact evolves_stopped e
  | calledBack installed => exact .refl _
  | ticked readings uptimeMs objects reported _ hswept =>
    exact hswept.evolves (fun ref se => config_entityTick se (readings ref))
      (fun ref se => stateCb_entityTick se (readings ref))
  | shared cfg => exact evolves_append _ _
  | used op hse =>
    exact (Evolves.refl _).set hse (SupervisedEntity.config_run _ [op])
      (SupervisedEntity.stateCb_apply _ op).trans

def runningAfter : EngineStep μ ε → Bool → Bool
  | .call (.start _), _ => true
  | .call .stop, _ => false
  | _, running => running

def globalOf (e : PhmEngine μ) : EngineStep μ ε → Option PhmConfig
  | .call (.loadConfiguration _ (.ok result)) => some result.global
  | .call (.reloadConfiguration (.ok result)) => if e.configPath = "" then none else some result.global
  | _ => none

def workerAfter (e : PhmEngine μ) : EngineStep μ ε → Option Int
  | .call (.start _) => if e.running then e.worker else some e.config.tickInterval
  | .call .stop => if e.running then none else e.worker
  | _ => e.worker

structure Frame (e : PhmEngine μ) (running : Bool) (global : Option PhmConfig) (worker : Option Int)
    (f : PhmEngine μ) : Prop where
  announced : f.announced = e.announced
  ctorConfig : f.ctorConfig = e.ctorConfig
  dataDir : f.dataDir = e.dataDir
  running : f.running = running
  config : f.config = global.getD e.config
  worker : f.worker = worker

theorem Frame.added {running : Bool} {global : Option PhmConfig} {worker : Option Int}
    (h : Frame e running global worker f) (cfg : SEConfig) :
    Frame e running global worker (f.added cfg) := by
  unfold PhmEngine.added
  split
  · exact h
  · exact ⟨h.announced, h.ctorConfig, h.dataDir, h.running, h.config, h.worker⟩

theorem frame_loaded (e : PhmEngine μ) (path : String) (result : ParseResult) :
    Frame e e.running (some result.global) e.worker (e.loaded path result) := by
  have hrun : Frame e e.running (some result.global) e.worker
      (Runs.run added { e with config := result.global } result.entities) :=
    Runs.run_invariant (fun _ cfg h => h.added cfg) (s := { e with config := result.global })
      ⟨rfl, rfl, rfl, rfl, rfl, rfl⟩ result.entities
  exact ⟨hrun.announced, hrun.ctorConfig, hrun.dataDir, hrun.running, hrun.config, hrun.worker⟩

theorem frame_removed (e : PhmEngine μ) (name : String) :
    Frame e e.running none e.worker (e.removed name) := by
  unfold removed
  split <;> exact ⟨rfl, rfl, rfl, rfl, rfl, rfl⟩

theorem frame_enrolled (e : PhmEngine μ) (ref : Nat) :
    Frame e e.running none e.worker (e.enrolled ref) := by
  unfold enrolled
  split
  · exact ⟨rfl, rfl, rfl, rfl, rfl, rfl⟩
  · split <;> exact ⟨rfl, rfl, rfl, rfl, rfl, rfl⟩

theorem frame_stopped (e : PhmEngine μ) :
    Frame e false none (if e.running then none else e.worker) e.stopped := by
  unfold stopped
  split <;> exact ⟨rfl, rfl, rfl, rfl, rfl, rfl⟩

omit [IMonitor μ ε] in
theorem Inert.frame {s : EngineStep μ ε} (h : Inert e s) :
    Frame e (runningAfter s e.running) (e.globalOf s) (e.workerAfter s) e := by
  cases s with
  | call op =>
    cases op with
    | addSupervisedEntity cfg => exact h.elim
    | removeEntity name => exact h.elim
    | stop => exact h.elim
    | setGlobalStateCallback installed => exact h.elim
    | loadConfiguration path parsed =>
      obtain ⟨what, rfl⟩ := h
      exact ⟨rfl, rfl, rfl, rfl, rfl, rfl⟩
    | reloadConfiguration parsed =>
      rcases h with ⟨what, rfl⟩ | hpath
      · exact ⟨rfl, rfl, rfl, rfl, rfl, rfl⟩
      · cases parsed <;> exact ⟨rfl, rfl, rfl, rfl, by simp [globalOf, hpath], rfl⟩
    | start readings => exact ⟨rfl, rfl, rfl, h, rfl, (if_pos h).symm⟩
    | _ => exact ⟨rfl, rfl, rfl, rfl, rfl, rfl⟩
  | makeShared cfg => exact h.elim
  | _ => exact ⟨rfl, rfl, rfl, rfl, rfl, rfl⟩

theorem Effect.frame {s : EngineStep μ ε} (h : Effect s e f) :
    Frame e (runningAfter s e.running) (e.globalOf s) (e.workerAfter s) f := by
  have hself : Frame e e.running none e.worker e := ⟨rfl, rfl, rfl, rfl, rfl, rfl⟩
  cases h.change with
  | inert hinert => exact hinert.frame
  | added cfg => exact hself.added cfg
  | enrolled ref => exact frame_enrolled e ref
  | removed name => exact frame_removed e name
  | loaded path result => exact frame_loaded e path result
  | reloaded result hpath =>
    simp only [globalOf, hpath, if_false]
    exact frame_loaded e e.configPath result
  | started readings objects hrun _ =>
    exact ⟨rfl, rfl, rfl, rfl, rfl, by simp [workerAfter, hrun]⟩
  | stopped => exact frame_stopped e
  | _ => exact ⟨rfl, rfl, rfl, rfl, rfl, rfl⟩

end

end PhmEngine

end PlatformHealth
