import PlatformHealth.Platform

namespace PlatformHealth

structure ResourceMonitor where
  name : String
  config : MonitorConfig
  processName : String
  state : SeState := .init
  pid : Int := -1
  healthChannel : Option String := none
  lastCpu : ℚ := 0
  lastMemory : ℚ := 0
  lastFd : ℚ := 0
  platform : Bool := false

namespace ResourceMonitor

def new (name : String) (cfg : MonitorConfig) : ResourceMonitor where
  name
  config := cfg
  processName := cfg.params.getD "process_name" ""

def start (m : ResourceMonitor) (r : Reading) : Bool × ResourceMonitor :=
  if !r.created then (false, { m with platform := false })
  else
    let pid := if m.processName = "" then m.pid else r.getProcessId m.processName
    (true, { m with platform := true, pid, state := if 0 < pid then .running else m.state })

def stop (m : ResourceMonitor) : ResourceMonitor :=
  { m with platform := false, state := .init }

def reset (m : ResourceMonitor) : ResourceMonitor :=
  { m with state := .init, pid := -1 }

def getMetricWithFallback (m : ResourceMonitor) (r : Reading) (key : String) (osFn lastVal : ℚ) :
    ℚ × ℚ :=
  match m.healthChannel.bind (fun c => (r.channel c).metrics[key]?) with
  | some v => (v, v)
  | none => if 0 < osFn ∨ key = "fd_count" then (osFn, osFn) else (lastVal, lastVal)

def lostEvent (m : ResourceMonitor) (r : Reading) : PhmEvent where
  id := generateId "phm_mon_res_" r
  sourceMonitor := m.name
  severity := .error
  state := .error
  message := "Process no longer exists (resource monitor)"
  timestamp := r.systemNow

def thresholdEvent (m : ResourceMonitor) (severity : Severity) (state : SeState) (label : String)
    (threshold cpu : ℚ) (mem : UInt64) (r : Reading) : PhmEvent where
  id := generateId "phm_mon_res_" r
  sourceMonitor := m.name
  severity
  state
  message := "CPU usage " ++ toStringDouble cpu ++ "% exceeds " ++ label ++ " threshold " ++
    toStringDouble threshold ++ "%"
  timestamp := r.systemNow
  metadata := (StringMap.empty.insert "cpu_percent" (toStringDouble cpu)).insert "memory_bytes"
    (toString mem)

def sample (m : ResourceMonitor) (r : Reading) : ResourceMonitor :=
  { m with
    lastCpu := (m.getMetricWithFallback r "cpu" (r.getCpuUsage m.pid) m.lastCpu).2
    lastMemory := (m.getMetricWithFallback r "memory_bytes"
      (r.getMemoryUsageBytes m.pid).toNat m.lastMemory).2
    lastFd := (m.getMetricWithFallback r "fd_count"
      (r.getOpenFileCount m.pid).toNat m.lastFd).2 }

-- after sample() the last value is the value used: both outcomes of the fallback agree
def classify (m : ResourceMonitor) (r : Reading) : CheckResult ResourceMonitor :=
  let cpu := m.lastCpu
  let mem := UInt64.ofNat m.lastMemory.floor.toNat
  if 0 < m.config.errorThreshold ∧ m.config.errorThreshold ≤ cpu then
    { monitor := { m with state := .error }
      outcome := .ok (m.thresholdEvent .error .error "error" m.config.errorThreshold cpu mem r) }
  else if 0 < m.config.warnThreshold ∧ m.config.warnThreshold ≤ cpu then
    { monitor := { m with state := .warn }
      outcome := .ok (m.thresholdEvent .warning .warn "warn" m.config.warnThreshold cpu mem r) }
  else { monitor := { m with state := .running }, outcome := .ok {} }

def check (m : ResourceMonitor) (r : Reading) : CheckResult ResourceMonitor :=
  if !m.platform || m.pid ≤ 0 then
    if m.processName = "" then { monitor := m, outcome := .ok {} }
    -- platform_ is dereferenced here whether or not it was the null test that led here
    else if !m.platform then { monitor := m, outcome := .error .nullPlatform }
    else { monitor := { m with pid := r.getProcessId m.processName }, outcome := .ok {} }
  else if !r.processExists m.pid then
    { monitor := { m with pid := -1, state := .error }, outcome := .ok (m.lostEvent r) }
  else (m.sample r).classify r

def configure (m : ResourceMonitor) (cfg : MonitorConfig) : ResourceMonitor :=
  { m with config := cfg, processName := cfg.params.getD "process_name" m.processName }

instance : IMonitor ResourceMonitor Reading where
  start := start
  stop := stop
  check := check
  reset := reset
  getState := state
  getType _ := .resource
  configure := configure
  getConfig := config
  name := name
  collectMetrics m :=
    ((StringMap.empty.insert "cpu_usage" m.lastCpu).insert "memory_bytes" m.lastMemory).insert
      "fd_count" m.lastFd

theorem regular_check (m : ResourceMonitor) (r : Reading) : Regular m (m.check r) := by
  unfold check classify
  dsimp only
  split_ifs
  · exact regular_quiet rfl
  · exact regular_fault .nullPlatform
  · exact regular_quiet rfl
  · exact regular_event rfl nofun nofun rfl
  · exact regular_event rfl nofun nofun rfl
  · exact regular_event rfl nofun nofun rfl
  · exact regular_quiet rfl

end ResourceMonitor

end PlatformHealth
