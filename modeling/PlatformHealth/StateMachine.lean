import PlatformHealth.Monitor

namespace PlatformHealth

def seStateFromSeverity : Severity → SeState
  | .info => .running
  | .warning => .warn
  | .error => .error
  | .critical => .error
  | .fatal => .fatal

def transitionTable : List (List Bool) :=
  [[false, true, true, false, false, false],
   [false, false, true, true, true, true],
   [false, true, false, true, true, false],
   [false, true, false, false, true, false],
   [false, true, false, false, false, true],
   [false, false, false, false, false, false]]

def seStateToIndex : SeState → Nat
  | .init => 0
  | .running => 1
  | .suspect => 2
  | .warn => 3
  | .error => 4
  | .fatal => 5

theorem seStateToIndex_injective : Function.Injective seStateToIndex := by
  intro s t h
  cases s <;> cases t <;> first | rfl | exact absurd h (by decide)

def isTransitionAllowed (source target : SeState) : Bool :=
  let fi := seStateToIndex source
  let ti := seStateToIndex target
  if 6 ≤ fi ∨ 6 ≤ ti then false else (transitionTable.getD fi []).getD ti false

structure HealthChannel where
  name : String
  timeout : Int

structure DebounceEntry where
  consecutiveCount : UInt32 := 0
  targetState : SeState := .init
deriving DecidableEq, Repr

structure SupervisedEntity (μ : Type) where
  config : SEConfig
  monitors : List μ := []
  healthChannel : HealthChannel
  pendingEvents : List PhmEvent := []
  stateCb : Bool := false
  currentState : SeState := .init
  debounceMap : StringMap DebounceEntry := ∅

abbrev StateChangeCallback (m : Type → Type) := String → SeState → SeState → m Unit

def eventType (sourceMonitor : String) : MonitorType :=
  if sourceMonitor = "process_lifecycle" then .processLifecycle
  else if sourceMonitor = "resource" then .resource
  else if sourceMonitor = "deadlock" then .deadlock
  else if sourceMonitor = "alive" then .alive
  else .custom

def findConfig (cfg : SEConfig) (sourceMonitor : String) : Option MonitorConfig :=
  cfg.monitors.find? (fun mc => mc.type = eventType sourceMonitor)

def debounceOf (mc : MonitorConfig) : UInt32 :=
  if mc.debounceCount = 0 then 1 else mc.debounceCount

namespace SupervisedEntity

variable {m : Type → Type} [Monad m] {μ ε : Type} [IMonitor μ ε]

def new (config : SEConfig) : SupervisedEntity μ where
  config
  healthChannel := ⟨config.name, config.aliveTimeout⟩
  debounceMap := (config.monitors.filter (·.enabled)).foldl
    (fun dm mc => dm.insert (monitorTypeToString mc.type) {}) ∅

def transitionTo (cb : StateChangeCallback m) (newState : SeState) (se : SupervisedEntity μ) :
    m (SupervisedEntity μ × Bool) := do
  if !isTransitionAllowed se.currentState newState then
    return (se, false)
  let oldState := se.currentState
  let se := { se with currentState := newState }
  if se.stateCb then
    cb se.config.name oldState newState
  return (se, true)

def setEntry (se : SupervisedEntity μ) (key : String) (entry : DebounceEntry) : SupervisedEntity μ :=
  { se with debounceMap := se.debounceMap.insert key entry }

def processMonitorResult (cb : StateChangeCallback m) (event : PhmEvent) (se : SupervisedEntity μ) :
    m (SupervisedEntity μ) := do
  match findConfig se.config event.sourceMonitor with
  | none => return se
  | some mc =>
    let debounce := debounceOf mc
    let target := seStateFromSeverity event.severity
    let key := event.sourceMonitor
    let entry := se.debounceMap.getD key {}
    if target = .running then
      let se := se.setEntry key { consecutiveCount := 0, targetState := .running }
      if se.currentState ≠ .running then
        let (se, _) ← transitionTo cb .running se
        return se
      return se
    if seStateToIndex se.currentState < seStateToIndex target then
      let entry := { entry with consecutiveCount := entry.consecutiveCount + 1 }
      let se := se.setEntry key entry
      if debounce ≤ entry.consecutiveCount then
        let (se, _) ← transitionTo cb target se
        return se.setEntry key { entry with consecutiveCount := 0 }
      if se.currentState = .running then
        let (se, _) ← transitionTo cb .suspect se
        return se
      return se
    return se.setEntry key entry

def registerMonitor (monitor : Option μ) (se : SupervisedEntity μ) : SupervisedEntity μ × Bool :=
  match monitor with
  | none => (se, false)
  | some mon =>
    if se.monitors.any (fun other => IMonitor.name other = IMonitor.name mon) then (se, false)
    else ({ se with monitors := se.monitors ++ [mon] }, true)

def startMonitors (readings : Nat → ε) : Nat → List μ → List μ × Bool
  | _, [] => ([], true)
  | i, mon :: rest =>
    let (ok, mon) := IMonitor.start mon (readings i)
    let (rest, allOk) := startMonitors readings (i + 1) rest
    (mon :: rest, ok && allOk)

def start (cb : StateChangeCallback m) (readings : Nat → ε) (se : SupervisedEntity μ) :
    m (SupervisedEntity μ × Bool) := do
  let (monitors, allOk) := startMonitors readings 0 se.monitors
  let se := { se with monitors }
  if allOk && se.currentState = .init then
    let (se, _) ← transitionTo cb .running se
    return (se, allOk)
  return (se, allOk)

def stop (se : SupervisedEntity μ) : SupervisedEntity μ :=
  { se with monitors := se.monitors.map IMonitor.stop }

def reset (se : SupervisedEntity μ) : SupervisedEntity μ :=
  let se := se.stop
  { se with
    pendingEvents := []
    debounceMap := ∅
    currentState := .init
    monitors := se.monitors.map IMonitor.reset }

def onMonitorEvent (cb : StateChangeCallback m) (event : PhmEvent) (se : SupervisedEntity μ) :
    m (SupervisedEntity μ) :=
  processMonitorResult cb event { se with pendingEvents := se.pendingEvents ++ [event] }

def onMonitorEvents (cb : StateChangeCallback m) : List PhmEvent → SupervisedEntity μ →
    m (SupervisedEntity μ)
  | [], se => return se
  | event :: rest, se => do onMonitorEvents cb rest (← onMonitorEvent cb event se)

def checkMonitors (cb : StateChangeCallback m) (readings : Nat → ε) :
    Nat → List μ → SupervisedEntity μ → List PhmEvent →
      m (List μ × SupervisedEntity μ × Except CheckFault (List PhmEvent))
  | _, [], se, events => return ([], se, .ok events)
  | i, mon :: rest, se, events => do
    let res := IMonitor.check mon (readings i)
    let se ← onMonitorEvents cb res.raised se
    match res.outcome with
    | .error fault => return (res.monitor :: rest, se, .error fault)
    | .ok evt =>
      if evt.id = "" then
        let (rest, out) ← checkMonitors cb readings (i + 1) rest se events
        return (res.monitor :: rest, out)
      let se ← processMonitorResult cb evt se
      let (rest, out) ← checkMonitors cb readings (i + 1) rest se (events ++ [evt])
      return (res.monitor :: rest, out)

def checkAll (cb : StateChangeCallback m) (readings : Nat → ε) (se : SupervisedEntity μ) :
    m (SupervisedEntity μ × Except CheckFault (List PhmEvent)) := do
  let (monitors, se, events) ← checkMonitors cb readings 0 se.monitors se []
  return ({ se with monitors }, events)

def drainEvents (se : SupervisedEntity μ) : SupervisedEntity μ × List PhmEvent :=
  ({ se with pendingEvents := [] }, se.pendingEvents)

end SupervisedEntity

end PlatformHealth
