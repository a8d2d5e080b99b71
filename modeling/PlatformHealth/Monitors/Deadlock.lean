import PlatformHealth.Library.Chrono
import PlatformHealth.Platform

namespace PlatformHealth

structure DeadlockMonitor where
  name : String
  config : MonitorConfig
  threadName : String
  state : SeState := .init
  lastCheckOk : Bool := true
  lastCheckTime : Int := 0
  healthChannel : Option String := none
  platform : Bool := false

namespace DeadlockMonitor

def new (name : String) (cfg : MonitorConfig) : DeadlockMonitor where
  name
  config := cfg
  threadName := cfg.params.getD "thread_name" ""

def start (m : DeadlockMonitor) (r : Reading) : Bool × DeadlockMonitor :=
  if !r.created then (false, { m with platform := false })
  else
    (true, { m with
      platform := true, state := .running, lastCheckOk := true, lastCheckTime := r.steadyNow })

def stop (m : DeadlockMonitor) : DeadlockMonitor :=
  { m with platform := false, state := .init }

def reset (m : DeadlockMonitor) : DeadlockMonitor :=
  { m with state := .init, lastCheckOk := true }

def due (m : DeadlockMonitor) (r : Reading) : Bool :=
  !decide (Chrono.Younger nsPerMs m.config.interval m.lastCheckTime r.steadyNow)

def alive (m : DeadlockMonitor) (r : Reading) : Bool :=
  match m.healthChannel with
  | some c => (r.channel c).isAlive
  | none => if m.threadName = "" then true else r.checkThreadByName m.threadName

def hangEvent (m : DeadlockMonitor) (r : Reading) : PhmEvent where
  id := generateId "phm_mon_dead_" r
  sourceMonitor := m.name
  severity := .error
  state := .error
  message := "Deadlock or hang detected on thread '" ++ m.threadName ++ "'"
  timestamp := r.systemNow
  metadata := (StringMap.empty.insert "thread" m.threadName).insert "timeout_ms"
    (toString m.config.timeout)

def check (m : DeadlockMonitor) (r : Reading) : CheckResult DeadlockMonitor :=
  if !m.platform then { monitor := m, outcome := .ok {} }
  else if !m.due r then { monitor := m, outcome := .ok {} }
  else
    let checked := { m with lastCheckTime := r.steadyNow }
    if !m.alive r && m.lastCheckOk then
      { monitor := { checked with lastCheckOk := false, state := .error }
        outcome := .ok (m.hangEvent r) }
    else if m.alive r && !m.lastCheckOk then
      { monitor := { checked with lastCheckOk := true, state := .running }, outcome := .ok {} }
    else { monitor := checked, outcome := .ok {} }

def configure (m : DeadlockMonitor) (cfg : MonitorConfig) : DeadlockMonitor :=
  { m with config := cfg, threadName := cfg.params.getD "thread_name" m.threadName }

instance : IMonitor DeadlockMonitor Reading where
  start := start
  stop := stop
  check := check
  reset := reset
  getState := state
  getType _ := .deadlock
  configure := configure
  getConfig := config
  name := name

theorem check_skipped {m : DeadlockMonitor} {r : Reading} (h : (m.platform && m.due r) = false) :
    m.check r = { monitor := m, outcome := .ok {} } := by
  unfold check
  cases hp : m.platform with
  | false => simp
  | true => simp_all

theorem regular_check (m : DeadlockMonitor) (r : Reading) : Regular m (m.check r) := by
  unfold check
  dsimp only
  split_ifs
  · exact regular_quiet rfl
  · exact regular_quiet rfl
  · exact regular_event rfl nofun nofun rfl
  · exact regular_quiet rfl
  · exact regular_quiet rfl

end DeadlockMonitor

end PlatformHealth
