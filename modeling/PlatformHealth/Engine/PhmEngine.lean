import PlatformHealth.Entity.Run
import PlatformHealth.Library.LockDiscipline

namespace PlatformHealth

open LockDiscipline

structure DataRecord where
  seName : String := ""
  monitorName : String := ""
  monitorType : String := ""
  state : SeState := .init
  timestampMs : Int := 0
  metrics : StringMap ℚ := ∅
  rawData : String := ""

-- ctorConfig is PhmEngine's own config_, config is the one of PhmEngine::Impl; entities_
-- maps a name to the place of the shared entity in objects; worker is the interval that
-- a joinable tickLoop thread runs with; announced lists the calls of global_state_cb_
structure PhmEngine (μ : Type) where
  ctorConfig : PhmConfig
  config : PhmConfig
  configPath : String := ""
  running : Bool := false
  uptimeMs : Nat := 0
  worker : Option Int := none
  mutex : Bool := false
  objects : List (SupervisedEntity μ) := []
  entities : StringMap Nat := ∅
  globalStateCb : Bool := false
  announced : List (SeState × SeState) := []
  dataDir : String
  reported : List DataRecord := []

instance {μ : Type} : Lockable (PhmEngine μ) where
  held e := e.mutex
  setHeld b e := { e with mutex := b }
  held_setHeld _ _ := rfl

abbrev EngineM (μ : Type) := Locked (PhmEngine μ) CheckFault

structure EntityReading (ε : Type) where
  check : Nat → ε
  restart : Nat → ε
  nowMs : Int := 0

namespace PhmEngine

variable {μ ε : Type} [IMonitor μ ε]

def new (cfg : PhmConfig) : PhmEngine μ where
  ctorConfig := cfg
  config := cfg
  dataDir := if cfg.logDir = "" then "/var/log/phmd/data" else cfg.logDir ++ "/data"

def store (e : PhmEngine μ) (ref : Nat) (se : SupervisedEntity μ) : PhmEngine μ :=
  { e with objects := e.objects.set ref se }

def setState (e : PhmEngine μ) (ref : Nat) (state : SeState) : PhmEngine μ :=
  { e with objects := e.objects.modify ref fun se => { se with currentState := state } }

def refs (e : PhmEngine μ) : List Nat := e.entities.toList.map Prod.snd

def registered (e : PhmEngine μ) : List (SupervisedEntity μ) :=
  e.refs.filterMap (e.objects[·]?)

def worst (e : PhmEngine μ) : SeState :=
  e.registered.foldl (fun worst se =>
    if seStateToIndex worst < seStateToIndex se.currentState then se.currentState else worst)
    .running

def getGlobalState : EngineM μ SeState :=
  withLock do return (← get).worst

def onEntityStateChanged (_name : String) (_oldState _newState : SeState) : EngineM μ Unit := do
  let oldGlobal ← getGlobalState
  let newGlobal ← getGlobalState
  if oldGlobal ≠ newGlobal && (← get).globalStateCb then
    modify fun e => { e with announced := e.announced ++ [(oldGlobal, newGlobal)] }

-- transitionTo has written current_state_ of the shared entity before it calls back
def stateCallback (ref : Nat) : StateChangeCallback (EngineM μ) := fun name oldState newState => do
  modify (·.setState ref newState)
  onEntityStateChanged name oldState newState

def addSupervisedEntity (cfg : SEConfig) : EngineM μ Bool :=
  withLock do
    let e ← get
    if e.entities.contains cfg.name then
      return false
    let entity := { SupervisedEntity.new cfg with stateCb := true }
    set { e with
      objects := e.objects ++ [entity]
      entities := e.entities.insert cfg.name e.objects.length }
    return true

def registerEntity (entity : Option Nat) : EngineM μ Bool := do
  match entity with
  | none => return false
  | some ref =>
    withLock do
      let e ← get
      match e.objects[ref]? with
      | none => return false
      | some se =>
        if e.entities.contains se.config.name then
          return false
        set { e.store ref { se with stateCb := true } with
          entities := e.entities.insert se.config.name ref }
        return true

def removeEntity (name : String) : EngineM μ Bool :=
  withLock do
    let e ← get
    match e.entities[name]? with
    | none => return false
    | some ref =>
      set { e with
        objects := e.objects.modify ref SupervisedEntity.stop
        entities := e.entities.erase name }
      return true

def addAll : List SEConfig → EngineM μ Unit
  | [] => return
  | cfg :: rest => do
    let _ ← addSupervisedEntity cfg
    addAll rest

-- parsed is what ConfigParser::parseFile returns or throws for the file
def loadConfiguration (path : String) (parsed : Except String ParseResult) : EngineM μ Bool := do
  match parsed with
  | .error _ => return false
  | .ok result =>
    modify fun e => { e with config := result.global }
    addAll result.entities
    modify fun e => { e with configPath := path }
    return true

def reloadConfiguration (parsed : Except String ParseResult) : EngineM μ Bool := do
  let path := (← get).configPath
  if path = "" then
    return false
  loadConfiguration path parsed

def startEntities (readings : Nat → Nat → ε) : List Nat → EngineM μ Unit
  | [] => return
  | ref :: rest => do
    match (← get).objects[ref]? with
    | none => startEntities readings rest
    | some se =>
      if se.config.enabled then
        let (se, _) ← se.start (stateCallback ref) (readings ref)
        modify (·.store ref se)
      startEntities readings rest

def start (readings : Nat → Nat → ε) : EngineM μ Bool :=
  withLock do
    if (← get).running then
      return false
    startEntities readings (← get).refs
    modify fun e => { e with running := true, worker := some e.config.tickInterval }
    return true

def stopAll (refs : List Nat) (objects : List (SupervisedEntity μ)) : List (SupervisedEntity μ) :=
  refs.foldl (fun objects ref => objects.modify ref SupervisedEntity.stop) objects

def stop : EngineM μ Unit := do
  let wasRunning ← withLock do
    let e ← get
    set { e with running := false }
    return e.running
  if wasRunning then
    modify fun e => { e with worker := none }
    withLock do
      modify fun e => { e with objects := stopAll e.refs e.objects }

def isRunning : EngineM μ Bool := return (← get).running

def getEntity (name : String) : EngineM μ (Option Nat) :=
  withLock do return (← get).entities[name]?

def getEntityNames : EngineM μ (List String) :=
  withLock do return (← get).entities.keys

def getStats : EngineM μ EngineStats :=
  withLock do
    let e ← get
    let globalState ← getGlobalState
    return {
      totalEntities := e.entities.size
      activeEntities := (e.registered.filter (·.currentState ≠ .init)).length
      totalMonitors := (e.registered.map (·.monitors.length)).sum
      globalState
      uptimeMs := e.uptimeMs }

def getAllEvents (_minSeverity : Severity) : EngineM μ (List PhmEvent) := return []

def acknowledgeEvents (_eventIds : List String) : EngineM μ Unit := return

def setGlobalStateCallback (installed : Bool) : EngineM μ Unit :=
  modify fun e => { e with globalStateCb := installed }

def getConfig : EngineM μ PhmConfig := return (← get).ctorConfig

def record (se : SupervisedEntity μ) (nowMs : Int) (monitor : μ) : DataRecord where
  seName := se.config.name
  monitorName := IMonitor.name monitor
  monitorType := monitorTypeToString (IMonitor.getType monitor)
  state := IMonitor.getState monitor
  timestampMs := nowMs
  metrics :=
    let m := IMonitor.collectMetrics monitor
    match IMonitor.getType monitor with
    | .resource =>
      ((StringMap.empty.insert "cpu_usage" (m.getD "cpu_usage" 0)).insert "memory_bytes"
        (m.getD "memory_bytes" 0)).insert "fd_count" (m.getD "fd_count" 0)
    | .alive => StringMap.empty.insert "alive_counter" (m.getD "alive_counter" 0)
    | .processLifecycle =>
      StringMap.empty.insert "running" (if IMonitor.getState monitor ≠ .fatal then 1 else 0)
    | _ => ∅

def collectAndReport (se : SupervisedEntity μ) (nowMs : Int) : EngineM μ Unit :=
  modify fun e => { e with reported := e.reported ++ se.monitors.map (record se nowMs) }

def tickEntity (ref : Nat) (r : EntityReading ε) : EngineM μ Unit := do
  match (← get).objects[ref]? with
  | none => return
  | some se =>
    let (se, events) ← se.checkAll (stateCallback ref) r.check
    modify (·.store ref se)
    match events with
    | .error fault => throw (.raised fault)
    | .ok _ =>
      collectAndReport se r.nowMs
      if se.currentState = .fatal && se.config.autoRestart then
        modify (·.store ref se.reset)
        let (se, _) ← se.reset.start (stateCallback ref) r.restart
        modify (·.store ref se)

def tickEntities (readings : Nat → EntityReading ε) : List Nat → EngineM μ Unit
  | [] => return
  | ref :: rest => do
    tickEntity ref (readings ref)
    tickEntities readings rest

def tick (readings : Nat → EntityReading ε) (uptimeMs : Nat) : EngineM μ Unit := do
  if (← get).running then
    let snapshot ← withLock do return (← get).refs
    tickEntities readings snapshot
    modify fun e => { e with uptimeMs }

end PhmEngine

end PlatformHealth
