import PlatformHealth.Library.EdgeDetector
import PlatformHealth.Monitors.Builtin

namespace PlatformHealth

open EdgeDetector

namespace BuiltinMonitor

def EdgeTriggered (mon : BuiltinMonitor) : Prop :=
  IMonitor.getType mon = .deadlock ∨ IMonitor.getType mon = .processLifecycle

def armed : BuiltinMonitor → Bool
  | processLifecycle m => m.state = .running
  | deadlock m => m.lastCheckOk
  | _ => false

def alarm : BuiltinMonitor → Reading → PhmEvent
  | processLifecycle m, r => m.exitEvent (m.probe r).1 r
  | deadlock m, r => m.hangEvent r
  | _, _ => {}

theorem getType_check (mon : BuiltinMonitor) (r : Reading) :
    IMonitor.getType (IMonitor.check mon r).monitor = IMonitor.getType mon := by
  cases mon <;> rfl

variable {mon : BuiltinMonitor} {r : Reading}

theorem armed_of_unevaluated (hedge : EdgeTriggered mon) (h : mon.evaluate r = none) :
    armed (IMonitor.check mon r).monitor = armed mon := by
  cases mon with
  | processLifecycle m =>
    change armed (processLifecycle (m.check r).monitor) = armed (processLifecycle m)
    unfold ProcessLifecycleMonitor.check
    grind [evaluate, armed]
  | deadlock m =>
    change armed (deadlock (m.check r).monitor) = armed (deadlock m)
    unfold DeadlockMonitor.check
    grind [evaluate, armed]
  | resource m => simp [EdgeTriggered, IMonitor.getType] at hedge
  | alive m => simp [EdgeTriggered, IMonitor.getType] at hedge

theorem unarmed_of_faulty (hedge : EdgeTriggered mon) (h : mon.evaluate r = some false) :
    armed (IMonitor.check mon r).monitor = false := by
  cases mon with
  | processLifecycle m =>
    change armed (processLifecycle (m.check r).monitor) = false
    unfold ProcessLifecycleMonitor.check
    grind [evaluate, armed]
  | deadlock m =>
    change armed (deadlock (m.check r).monitor) = false
    unfold DeadlockMonitor.check
    grind [evaluate, armed]
  | resource m => simp [EdgeTriggered, IMonitor.getType] at hedge
  | alive m => simp [EdgeTriggered, IMonitor.getType] at hedge

theorem outcome_check (hedge : EdgeTriggered mon) :
    (IMonitor.check mon r).outcome =
      .ok (if mon.evaluate r = some false ∧ armed mon then alarm mon r else {}) := by
  cases mon with
  | processLifecycle m =>
    change (m.check r).outcome = _
    unfold ProcessLifecycleMonitor.check
    grind [evaluate, armed, alarm]
  | deadlock m =>
    change (m.check r).outcome = _
    unfold DeadlockMonitor.check
    grind [evaluate, armed, alarm]
  | resource m => simp [EdgeTriggered, IMonitor.getType] at hedge
  | alive m => simp [EdgeTriggered, IMonitor.getType] at hedge

theorem alarm_spec (hedge : EdgeTriggered mon) : (alarm mon r).id ≠ "" ∧
    (alarm mon r).sourceMonitor = IMonitor.name mon ∧ (alarm mon r).severity = .error := by
  cases mon with
  | processLifecycle m => exact ⟨generateId_ne_empty (by decide) r, rfl, rfl⟩
  | deadlock m => exact ⟨generateId_ne_empty (by decide) r, rfl, rfl⟩
  | resource m => simp [EdgeTriggered, IMonitor.getType] at hedge
  | alive m => simp [EdgeTriggered, IMonitor.getType] at hedge

end BuiltinMonitor

abbrev EdgeMonitor := {mon : BuiltinMonitor // mon.EdgeTriggered}

namespace EdgeMonitor

def detector : Detector EdgeMonitor Reading PhmEvent where
  sense mon r := mon.val.evaluate r
  next mon r :=
    ⟨(IMonitor.check mon.val r).monitor, by
      rw [BuiltinMonitor.EdgeTriggered, BuiltinMonitor.getType_check]
      exact mon.property⟩
  armed mon := mon.val.armed
  alarm mon r := mon.val.alarm r
  unsensed mon _ h := BuiltinMonitor.armed_of_unevaluated mon.property h
  fired mon _ h := BuiltinMonitor.unarmed_of_faulty mon.property h

end EdgeMonitor

end PlatformHealth
