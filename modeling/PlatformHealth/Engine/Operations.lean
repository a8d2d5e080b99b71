import PlatformHealth.Engine.Registry
import PlatformHealth.Entity.History

namespace PlatformHealth

open LockDiscipline

inductive EngineOp (ε : Type) where
  | addSupervisedEntity (cfg : SEConfig)
  | registerEntity (entity : Option Nat)
  | removeEntity (name : String)
  | loadConfiguration (path : String) (parsed : Except String ParseResult)
  | reloadConfiguration (parsed : Except String ParseResult)
  | start (readings : Nat → Nat → ε)
  | stop
  | isRunning
  | getGlobalState
  | getEntity (name : String)
  | getEntityNames
  | getStats
  | getAllEvents (minSeverity : Severity)
  | acknowledgeEvents (eventIds : List String)
  | setGlobalStateCallback (installed : Bool)
  | config

-- makeShared and useEntity are the program around the engine: it makes entities of its
-- own and calls the operations of the entities it holds a pointer to
inductive EngineStep (μ ε : Type) where
  | call (op : EngineOp ε)
  | tick (readings : Nat → EntityReading ε) (uptimeMs : Nat)
  | makeShared (cfg : SEConfig)
  | useEntity (ref : Nat) (op : EntityOp μ ε)

namespace PhmEngine

variable {μ ε : Type} [IMonitor μ ε]

def perform : EngineOp ε → EngineM μ Unit
  | .addSupervisedEntity cfg => discard (addSupervisedEntity cfg)
  | .registerEntity entity => discard (registerEntity entity)
  | .removeEntity name => discard (removeEntity name)
  | .loadConfiguration path parsed => discard (loadConfiguration path parsed)
  | .reloadConfiguration parsed => discard (reloadConfiguration parsed)
  | .start readings => discard (start readings)
  | .stop => stop
  | .isRunning => discard isRunning
  | .getGlobalState => discard getGlobalState
  | .getEntity name => discard (getEntity name)
  | .getEntityNames => discard getEntityNames
  | .getStats => discard getStats
  | .getAllEvents minSeverity => discard (getAllEvents minSeverity)
  | .acknowledgeEvents eventIds => acknowledgeEvents eventIds
  | .setGlobalStateCallback installed => setGlobalStateCallback installed
  | .config => discard getConfig

def useEntity (ref : Nat) (op : EntityOp μ ε) : EngineM μ Unit := do
  match (← get).objects[ref]? with
  | none => return
  | some se =>
    let se ← se.perform (stateCallback ref) op
    modify (·.store ref se)

def exec : EngineStep μ ε → EngineM μ Unit
  | .call op => perform op
  | .tick readings uptimeMs => tick readings uptimeMs
  | .makeShared cfg => modify fun e => { e with objects := e.objects ++ [SupervisedEntity.new cfg] }
  | .useEntity ref op => useEntity ref op

inductive Reachable : PhmEngine μ → Prop
  | new (cfg : PhmConfig) : Reachable (new cfg)
  | step {e f : PhmEngine μ} (s : EngineStep μ ε) : Reachable e → exec s e = .ok ((), f) →
      Reachable f

structure Ready (e : PhmEngine μ) : Prop where
  free : e.mutex = false
  registered : e.Registered

section
variable {e f : PhmEngine μ}

theorem Ready.evolves (h : e.Ready) (hobj : Evolves e.objects f.objects)
    (hent : f.entities = e.entities) (hfree : f.mutex = false) : f.Ready :=
  ⟨hfree, h.registered.evolves hobj hent⟩

structure Follows (e f : PhmEngine μ) : Prop where
  free : f.mutex = false
  evolves : Evolves e.objects f.objects
  entities : f.entities = e.entities

theorem Ready.follows (h : e.Ready) : e.Follows e := ⟨h.free, .refl _, rfl⟩

theorem Ready.store (h : e.Ready) (hf : e.Follows f) {ref : Nat} {se se' : SupervisedEntity μ}
    (hse : e.objects[ref]? = some se) (hcfg : se'.config = se.config)
    (hcb : se.stateCb = true → se'.stateCb = true) : (f.store ref se').Ready :=
  h.evolves (hf.evolves.set hse hcfg hcb) hf.entities hf.free

theorem ends_getGlobalState {Q : SeState → PhmEngine μ → Prop} {F : Fault CheckFault → Prop}
    (h : e.mutex = false) : Ends getGlobalState e Q F ↔ Q e.worst e := by
  have hlocked : ({ e with mutex := false } : PhmEngine μ) = e := by rw [← h]
  rw [getGlobalState, ends_withLock_of_free h]
  change Q e.worst { e with mutex := false } ↔ _
  rw [hlocked]

theorem simulates_stateCallback (ref : Nat) (name : String) (oldState newState : SeState) :
    Simulates e.Follows (stateCallback ref name oldState newState) (pure ()) := by
  intro f hf
  have hnext : e.Follows (f.setState ref newState) :=
    ⟨hf.free, hf.evolves.trans (evolves_modify _ ref (fun _ => rfl) (fun _ => rfl)), hf.entities⟩
  simp only [stateCallback, onEntityStateChanged, ends_bind, ends_modify]
  rw [ends_getGlobalState hnext.free, ends_getGlobalState hnext.free]
  simpa using hnext

end

section
variable {α β : Type}

def Keeps (x : EngineM μ α) : Prop :=
  ∀ e : PhmEngine μ, e.Ready → Ends x e (fun _ f => f.Ready) (fun _ => False)

theorem Keeps.discard {x : EngineM μ α} (h : Keeps x) : Keeps (discard x) := by
  intro e he
  exact ends_map.mpr (h e he)

theorem keeps_pure (a : α) : Keeps (pure a : EngineM μ α) := fun _ he => he

theorem keeps_modify {g : PhmEngine μ → PhmEngine μ} (hobj : ∀ e, (g e).objects = e.objects)
    (hent : ∀ e, (g e).entities = e.entities) (hfree : ∀ e, (g e).mutex = e.mutex) :
    Keeps (modify g : EngineM μ Unit) := by
  intro e he
  exact he.evolves (by rw [hobj]; exact .refl _) (hent e) ((hfree e).trans he.free)

theorem Keeps.bind {x : EngineM μ β} {f : β → EngineM μ α} (hx : Keeps x)
    (hf : ∀ b, Keeps (f b)) : Keeps (x >>= f) := by
  intro e he
  rw [ends_bind]
  exact (hx e he).mono (fun b t ht => hf b t ht) (fun _ h => h)

theorem keeps_withLock {body : EngineM μ α}
    (h : ∀ e : PhmEngine μ, e.Registered →
      Ends body e (fun _ f => f.Registered) (fun _ => False)) : Keeps (withLock body) := by
  intro e he
  rw [ends_withLock_of_free he.free]
  exact (h { e with mutex := true } he.registered).mono (fun _ f hf => ⟨rfl, hf⟩) (fun _ h => h)

theorem keeps_addSupervisedEntity (cfg : SEConfig) :
    Keeps (addSupervisedEntity cfg : EngineM μ Bool) := by
  refine keeps_withLock fun e he => ?_
  rw [ends_bind, ends_get]
  split
  · exact he
  · have hnew : (e.objects ++ [{ SupervisedEntity.new cfg with stateCb := true }])[e.objects.length]?
        = some ({ SupervisedEntity.new cfg with stateCb := true } : SupervisedEntity μ) := by simp
    have hgrown : Registered { e with
        objects := e.objects ++ [{ SupervisedEntity.new cfg with stateCb := true }] } :=
      he.evolves (evolves_append _ _) rfl
    exact hgrown.insert hnew rfl rfl

theorem keeps_registerEntity (entity : Option Nat) : Keeps (registerEntity entity : EngineM μ Bool) := by
  cases entity with
  | none => exact keeps_pure _
  | some ref =>
    refine keeps_withLock fun e he => ?_
    rw [ends_bind, ends_get]
    cases hse : e.objects[ref]? with
    | none => exact he
    | some se =>
      dsimp only
      split
      · exact he
      · have hlt := (List.getElem?_eq_some_iff.mp hse).1
        have hset : Registered (e.store ref { se with stateCb := true }) :=
          he.evolves ((Evolves.refl _).set hse rfl fun _ => rfl) rfl
        have hstored : (e.store ref { se with stateCb := true }).objects[ref]? =
            some { se with stateCb := true } := by simp [store, hlt]
        exact hset.insert hstored rfl rfl

theorem keeps_removeEntity (name : String) : Keeps (removeEntity name : EngineM μ Bool) := by
  refine keeps_withLock fun e he => ?_
  rw [ends_bind, ends_get]
  cases href : e.entities[name]? with
  | none => exact he
  | some ref =>
    have hstop : Registered { e with objects := e.objects.modify ref SupervisedEntity.stop } :=
      he.evolves (evolves_modify _ _ (fun _ => rfl) (fun _ => rfl)) rfl
    exact hstop.erase name

theorem keeps_addAll (cfgs : List SEConfig) : Keeps (addAll cfgs : EngineM μ Unit) := by
  induction cfgs with
  | nil => exact keeps_pure ()
  | cons cfg rest ih => exact (keeps_addSupervisedEntity cfg).bind fun _ => ih

theorem keeps_loadConfiguration (path : String) (parsed : Except String ParseResult) :
    Keeps (loadConfiguration path parsed : EngineM μ Bool) := by
  cases parsed with
  | error what => exact keeps_pure false
  | ok result =>
    refine Keeps.bind (keeps_modify (fun _ => rfl) (fun _ => rfl) fun _ => rfl) fun _ => ?_
    refine (keeps_addAll result.entities).bind fun _ => ?_
    exact Keeps.bind (keeps_modify (fun _ => rfl) (fun _ => rfl) fun _ => rfl) fun _ => keeps_pure _

theorem keeps_reloadConfiguration (parsed : Except String ParseResult) :
    Keeps (reloadConfiguration parsed : EngineM μ Bool) := by
  intro e he
  rw [reloadConfiguration, ends_bind, ends_get]
  dsimp only
  split
  · exact he
  · exact keeps_loadConfiguration _ parsed e he

theorem keeps_stop : Keeps (stop : EngineM μ Unit) := by
  refine Keeps.bind (keeps_withLock fun e he => he.evolves (.refl _) rfl) fun wasRunning => ?_
  cases wasRunning with
  | false => exact keeps_pure ()
  | true =>
    refine Keeps.bind (keeps_modify (fun _ => rfl) (fun _ => rfl) fun _ => rfl) fun _ => ?_
    exact keeps_withLock fun e he => he.evolves (evolves_stopAll _ _) rfl

theorem keeps_getEntity (name : String) : Keeps (getEntity name : EngineM μ (Option Nat)) :=
  keeps_withLock fun _ he => he

theorem keeps_getEntityNames : Keeps (getEntityNames : EngineM μ (List String)) :=
  keeps_withLock fun _ he => he

end

section
variable {e : PhmEngine μ}

theorem useEntity_completes (he : e.Ready) (ref : Nat) (op : EntityOp μ ε) :
    Ends (useEntity ref op) e (fun _ f => f.Ready) (fun _ => False) := by
  rw [useEntity, ends_bind, ends_get]
  cases hse : e.objects[ref]? with
  | none => exact he
  | some se =>
    rw [ends_bind]
    refine (SupervisedEntity.simulates_perform (simulates_stateCallback ref) op se e
      he.follows).mono ?_ (fun _ h => h)
    rintro se' f ⟨hse', hf⟩
    rw [SupervisedEntity.perform_silent] at hse'
    subst hse'
    exact he.store hf hse (SupervisedEntity.config_run se [op])
      (SupervisedEntity.stateCb_apply se op).trans

theorem restart_completes (he : e.Ready) {ref : Nat} {se : SupervisedEntity μ}
    (hse : e.objects[ref]? = some se) (readings : Nat → ε) :
    Ends (do
      let (se, _) ← se.start (stateCallback ref) readings
      modify (·.store ref se)) e (fun _ f => f.Ready) (fun _ => False) := by
  rw [ends_bind]
  refine (SupervisedEntity.simulates_start (simulates_stateCallback ref) readings se e
    he.follows).mono ?_ (fun _ h => h)
  rintro ⟨se', ok⟩ f ⟨hout, hf⟩
  obtain rfl : se' = se.apply (.start readings) := congrArg Prod.fst hout
  exact he.store hf hse (SupervisedEntity.config_run se [.start readings])
    (SupervisedEntity.stateCb_apply se (.start readings)).trans

theorem tickEntity_keeps (he : e.Ready) (ref : Nat) (r : EntityReading ε) :
    Ends (tickEntity ref r) e (fun _ f => f.Ready) (· ≠ .relock) := by
  rw [tickEntity, ends_bind, ends_get]
  cases hse : e.objects[ref]? with
  | none => exact he
  | some se =>
    dsimp only
    rw [ends_bind]
    refine (SupervisedEntity.simulates_checkAll (simulates_stateCallback ref) r.check se e
      he.follows).mono ?_ (fun _ h => h.elim)
    rintro ⟨se', events⟩ f ⟨hout, hf⟩
    have hchecked : se' = se.apply (.checkAll r.check) := congrArg Prod.fst hout
    have hready : (f.store ref se').Ready := by
      subst hchecked
      exact he.store hf hse (SupervisedEntity.config_run se [.checkAll r.check])
        (SupervisedEntity.stateCb_apply se (.checkAll r.check)).trans
    rw [ends_bind, ends_modify]
    cases events with
    | error fault => simp
    | ok evts =>
      dsimp only
      rw [ends_bind, collectAndReport, ends_modify]
      have hreported : Ready { f.store ref se' with
          reported := f.reported ++ se'.monitors.map (record se' r.nowMs) } :=
        hready.evolves (.refl _) rfl hready.free
      split
      · have hlt : ref < f.objects.length := by
          obtain ⟨t, ht, -⟩ := hf.evolves ref se hse
          exact (List.getElem?_eq_some_iff.mp ht).1
        have hstored : (f.store ref se').objects[ref]? = some se' := by simp [store, hlt]
        have hreset : Ready (PhmEngine.store { f.store ref se' with
            reported := f.reported ++ se'.monitors.map (record se' r.nowMs) } ref se'.reset) :=
          hreported.store hreported.follows hstored rfl id
        rw [ends_bind, ends_modify]
        exact (restart_completes hreset (by simp [store, hlt]) r.restart).mono (fun _ _ h => h)
          (fun _ h => h.elim)
      · exact hreported

theorem tickEntities_keeps (he : e.Ready) (readings : Nat → EntityReading ε) (refs : List Nat) :
    Ends (tickEntities readings refs) e (fun _ f => f.Ready) (· ≠ .relock) := by
  induction refs generalizing e with
  | nil => exact he
  | cons ref rest ih =>
    rw [tickEntities, ends_bind]
    exact (tickEntity_keeps he ref (readings ref)).mono (fun _ f hf => ih hf) (fun _ h => h)

theorem tick_keeps (he : e.Ready) (readings : Nat → EntityReading ε) (uptimeMs : Nat) :
    Ends (tick readings uptimeMs) e (fun _ f => f.Ready) (· ≠ .relock) := by
  rw [tick, ends_bind, ends_get]
  split
  · rw [ends_bind, ends_withLock_of_free he.free, ends_bind, ends_get, ends_pure, ends_bind]
    have hready : Ready { e with mutex := false } := he.evolves (.refl _) rfl rfl
    refine (tickEntities_keeps hready readings e.refs).mono ?_ (fun _ h => h)
    intro _ f hf
    exact hf.evolves (.refl _) rfl hf.free
  · exact he

end

end PhmEngine

end PlatformHealth
