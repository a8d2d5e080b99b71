import PlatformHealth.Platform

namespace PlatformHealth

structure AliveMonitor where
  name : String
  config : MonitorConfig
  channelName : String
  state : SeState := .init
  lastCounter : UInt64 := 0
  firstCheck : Bool := true
  healthChannel : Option String := none

namespace AliveMonitor

def new (name : String) (cfg : MonitorConfig) : AliveMonitor where
  name
  config := cfg
  channelName := cfg.params.getD "health_channel" ""

def start (m : AliveMonitor) (_ : Reading) : Bool × AliveMonitor :=
  (true, { m with state := .running, lastCounter := 0, firstCheck := true })

def stop (m : AliveMonitor) : AliveMonitor :=
  { m with state := .init }

def reset (m : AliveMonitor) : AliveMonitor :=
  { m with state := .init, lastCounter := 0, firstCheck := true }

def frozenEvent (m : AliveMonitor) (current : UInt64) (r : Reading) : PhmEvent where
  id := generateId "phm_mon_alive_" r
  sourceMonitor := m.name
  severity := .warning
  state := .warn
  message := "Alive heartbeat not detected (counter=" ++ toString current ++ ", last=" ++
    toString m.lastCounter ++ ")"
  timestamp := r.systemNow
  metadata := (StringMap.empty.insert "alive_counter" (toString current)).insert "last_counter"
    (toString m.lastCounter)

def check (m : AliveMonitor) (r : Reading) : CheckResult AliveMonitor :=
  match m.healthChannel with
  | none => { monitor := m, outcome := .ok {} }
  | some c =>
    let current := (r.channel c).aliveCounter
    let alive := (r.channel c).isAlive
    if m.firstCheck then
      { monitor := { m with lastCounter := current, firstCheck := false }, outcome := .ok {} }
    else if !alive || current = m.lastCounter then
      { monitor := { m with state := .warn, lastCounter := current }
        outcome := .ok (m.frozenEvent current r) }
    else if m.lastCounter < current then
      { monitor := { m with state := .running, lastCounter := current }, outcome := .ok {} }
    else { monitor := { m with lastCounter := current }, outcome := .ok {} }

def configure (m : AliveMonitor) (cfg : MonitorConfig) : AliveMonitor :=
  { m with config := cfg }

instance : IMonitor AliveMonitor Reading where
  start := start
  stop := stop
  check := check
  reset := reset
  getState := state
  getType _ := .alive
  configure := configure
  getConfig := config
  name := name
  -- static_cast<double> of the counter, exact below 2^53
  collectMetrics m := StringMap.empty.insert "alive_counter" (m.lastCounter.toNat : ℚ)

theorem regular_check (m : AliveMonitor) (r : Reading) : Regular m (m.check r) := by
  unfold check
  split
  · exact regular_quiet rfl
  · dsimp only
    split_ifs
    · exact regular_quiet rfl
    · exact regular_event rfl nofun nofun rfl
    · exact regular_quiet rfl
    · exact regular_quiet rfl

end AliveMonitor

end PlatformHealth
