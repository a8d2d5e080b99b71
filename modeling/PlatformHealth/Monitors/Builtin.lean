import PlatformHealth.Monitors.ProcessLifecycle
import PlatformHealth.Monitors.Resource
import PlatformHealth.Monitors.Deadlock
import PlatformHealth.Monitors.Alive

namespace PlatformHealth

inductive BuiltinMonitor where
  | processLifecycle (m : ProcessLifecycleMonitor)
  | resource (m : ResourceMonitor)
  | deadlock (m : DeadlockMonitor)
  | alive (m : AliveMonitor)

namespace BuiltinMonitor

def lift {μ : Type} (wrap : μ → BuiltinMonitor) (res : CheckResult μ) : CheckResult BuiltinMonitor where
  monitor := wrap res.monitor
  raised := res.raised
  outcome := res.outcome

instance : IMonitor BuiltinMonitor Reading where
  start
    | processLifecycle m, r => ((m.start r).1, processLifecycle (m.start r).2)
    | resource m, r => ((m.start r).1, resource (m.start r).2)
    | deadlock m, r => ((m.start r).1, deadlock (m.start r).2)
    | alive m, r => ((m.start r).1, alive (m.start r).2)
  stop
    | processLifecycle m => processLifecycle m.stop
    | resource m => resource m.stop
    | deadlock m => deadlock m.stop
    | alive m => alive m.stop
  check
    | processLifecycle m, r => lift processLifecycle (m.check r)
    | resource m, r => lift resource (m.check r)
    | deadlock m, r => lift deadlock (m.check r)
    | alive m, r => lift alive (m.check r)
  reset
    | processLifecycle m => processLifecycle m.reset
    | resource m => resource m.reset
    | deadlock m => deadlock m.reset
    | alive m => alive m.reset
  getState
    | processLifecycle m => m.state
    | resource m => m.state
    | deadlock m => m.state
    | alive m => m.state
  getType
    | processLifecycle m => IMonitor.getType m
    | resource m => IMonitor.getType m
    | deadlock m => IMonitor.getType m
    | alive m => IMonitor.getType m
  configure
    | processLifecycle m, cfg => processLifecycle (m.configure cfg)
    | resource m, cfg => resource (m.configure cfg)
    | deadlock m, cfg => deadlock (m.configure cfg)
    | alive m, cfg => alive (m.configure cfg)
  getConfig
    | processLifecycle m => m.config
    | resource m => m.config
    | deadlock m => m.config
    | alive m => m.config
  name
    | processLifecycle m => m.name
    | resource m => m.name
    | deadlock m => m.name
    | alive m => m.name
  collectMetrics
    | processLifecycle m => IMonitor.collectMetrics m
    | resource m => IMonitor.collectMetrics m
    | deadlock m => IMonitor.collectMetrics m
    | alive m => IMonitor.collectMetrics m

def evaluate : BuiltinMonitor → Reading → Option Bool
  | processLifecycle m, r => if m.platform then some (m.probe r).2 else none
  | resource m, r =>
    if !m.platform || m.pid ≤ 0 then none
    else if !r.processExists m.pid then some false
    else some !(decide (0 < m.config.errorThreshold ∧ m.config.errorThreshold ≤ (m.sample r).lastCpu) ||
      decide (0 < m.config.warnThreshold ∧ m.config.warnThreshold ≤ (m.sample r).lastCpu))
  | deadlock m, r => if m.platform && m.due r then some (m.alive r) else none
  | alive m, r =>
    match m.healthChannel with
    | none => none
    | some c =>
      if m.firstCheck then none
      else some ((r.channel c).isAlive && (r.channel c).aliveCounter != m.lastCounter)

theorem regular_lift {μ : Type} [IMonitor μ Reading] {wrap : μ → BuiltinMonitor} {m : μ} {res : CheckResult μ}
    (h : Regular m res) (hname : ∀ m, IMonitor.name (wrap m) = IMonitor.name m)
    (hstate : ∀ m, IMonitor.getState (wrap m) = IMonitor.getState m) : Regular (wrap m) (lift wrap res) where
  raised := h.raised
  name := (hname _).trans (h.name.trans (hname m).symm)
  idOfRunning evt hok hrunning := h.idOfRunning evt hok ((hstate _).symm.trans hrunning)
  severity := h.severity
  sourceSe := h.sourceSe

theorem regular_check (mon : BuiltinMonitor) (r : Reading) : Regular mon (IMonitor.check mon r) := by
  cases mon with
  | processLifecycle m => exact regular_lift (m.regular_check r) (fun _ => rfl) fun _ => rfl
  | resource m => exact regular_lift (m.regular_check r) (fun _ => rfl) fun _ => rfl
  | deadlock m => exact regular_lift (m.regular_check r) (fun _ => rfl) fun _ => rfl
  | alive m => exact regular_lift (m.regular_check r) (fun _ => rfl) fun _ => rfl

end BuiltinMonitor

end PlatformHealth
