import PlatformHealth.Platform

namespace PlatformHealth

structure ProcessLifecycleMonitor where
  name : String
  config : MonitorConfig
  processName : String
  processPath : String
  state : SeState := .init
  pid : Int := -1
  platform : Bool := false

namespace ProcessLifecycleMonitor

def new (name : String) (cfg : MonitorConfig) : ProcessLifecycleMonitor where
  name
  config := cfg
  processName := cfg.params.getD "process_name" ""
  processPath := cfg.params.getD "process_path" ""

def start (m : ProcessLifecycleMonitor) (r : Reading) : Bool × ProcessLifecycleMonitor :=
  if !r.created then (false, { m with platform := false })
  else if m.processName = "" then (true, { m with platform := true })
  else
    let pid := r.getProcessId m.processName
    (true, { m with platform := true, pid, state := if 0 < pid then .running else m.state })

def stop (m : ProcessLifecycleMonitor) : ProcessLifecycleMonitor :=
  { m with platform := false, state := .init }

def reset (m : ProcessLifecycleMonitor) : ProcessLifecycleMonitor :=
  { m with state := .init, pid := -1 }

-- the locals pid_ and exists as check() has them after looking at the platform
def probe (m : ProcessLifecycleMonitor) (r : Reading) : Int × Bool :=
  if 0 < m.pid then (m.pid, r.processExists m.pid)
  else if m.processName = "" then (m.pid, false)
  else (r.getProcessId m.processName, decide (0 < r.getProcessId m.processName))

def exitEvent (m : ProcessLifecycleMonitor) (pid : Int) (r : Reading) : PhmEvent where
  id := generateId "phm_mon_proc_" r
  sourceSe := ""
  sourceMonitor := m.name
  severity := .error
  state := .error
  message := "Process '" ++ m.processName ++ "' (pid=" ++ toString pid ++ ") has exited"
  timestamp := r.systemNow
  metadata := (StringMap.empty.insert "process_name" m.processName).insert "last_pid" (toString pid)

def check (m : ProcessLifecycleMonitor) (r : Reading) : CheckResult ProcessLifecycleMonitor :=
  if !m.platform then { monitor := m, outcome := .ok {} }
  else
    let (pid, found) := m.probe r
    if !found && m.state = .running then
      { monitor := { m with state := .error, pid := -1 }, outcome := .ok (m.exitEvent pid r) }
    else if found && m.state = .error then
      { monitor := { m with state := .running, pid }, outcome := .ok {} }
    else { monitor := { m with pid }, outcome := .ok {} }

def configure (m : ProcessLifecycleMonitor) (cfg : MonitorConfig) : ProcessLifecycleMonitor :=
  { m with
    config := cfg
    processName := cfg.params.getD "process_name" m.processName
    processPath := cfg.params.getD "process_path" m.processPath }

instance : IMonitor ProcessLifecycleMonitor Reading where
  start := start
  stop := stop
  check := check
  reset := reset
  getState := state
  getType _ := .processLifecycle
  configure := configure
  getConfig := config
  name := name

theorem regular_check (m : ProcessLifecycleMonitor) (r : Reading) : Regular m (m.check r) := by
  unfold check
  dsimp only
  split_ifs
  · exact regular_quiet rfl
  · exact regular_event rfl nofun nofun rfl
  · exact regular_quiet rfl
  · exact regular_quiet rfl

end ProcessLifecycleMonitor

end PlatformHealth
