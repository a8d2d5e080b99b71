import Mathlib.Data.Rat.Defs

namespace PlatformHealth

abbrev Bytes := List UInt8

abbrev StringMap (β : Type) := Std.ExtTreeMap String β compare

def StringMap.empty {β : Type} : StringMap β := ∅

inductive SeState where
  | init
  | running
  | suspect
  | warn
  | error
  | fatal
deriving DecidableEq, Repr

inductive Severity where
  | info
  | warning
  | error
  | critical
  | fatal
deriving DecidableEq, Repr

def Severity.value : Severity → Nat
  | .info => 0
  | .warning => 1
  | .error => 2
  | .critical => 3
  | .fatal => 4

inductive MonitorType where
  | processLifecycle
  | resource
  | deadlock
  | alive
  | custom
deriving DecidableEq, Repr

structure PhmEvent where
  id : String := ""
  sourceSe : String := ""
  sourceMonitor : String := ""
  severity : Severity := .info
  state : SeState := .init
  message : String := ""
  timestamp : Int := 0
  metadata : StringMap String := ∅

-- chrono durations are signed counts: milliseconds here, seconds for restartDelay
structure MonitorConfig where
  type : MonitorType := .custom
  params : StringMap String := ∅
  interval : Int := 1000
  timeout : Int := 5000
  debounceCount : UInt32 := 3
  warnThreshold : ℚ := 0
  errorThreshold : ℚ := 0
  enabled : Bool := true

structure SEConfig where
  name : String := ""
  description : String := ""
  monitors : List MonitorConfig := []
  dependencies : List String := []
  aliveTimeout : Int := 5000
  autoRestart : Bool := false
  maxRestartCount : UInt32 := 3
  restartDelay : Int := 5
  enabled : Bool := true

structure PhmConfig where
  appName : String := "phmd"
  version : String := "1.0.0"
  tickInterval : Int := 100
  logDir : String := "/var/log/phmd"
  ipcEndpoint : String := "/tmp/phmd.sock"
  configPath : String := "/etc/phm/se_config.json"
  enableAutoRecovery : Bool := true
  eventQueueSize : UInt32 := 1024

structure ParseResult where
  global : PhmConfig := {}
  entities : List SEConfig := []

structure EngineStats where
  totalEntities : Nat := 0
  activeEntities : Nat := 0
  totalMonitors : Nat := 0
  pendingEvents : Nat := 0
  globalState : SeState := .init
  uptimeMs : Nat := 0

end PlatformHealth
