import PlatformHealth.StateMachine
import Mathlib.Tactic.Linarith

namespace PlatformHealth

theorem StringMap.insert_insert {β : Type} (t : StringMap β) (k : String) (v w : β) :
    (t.insert k v).insert k w = t.insert k w := by
  apply Std.ExtTreeMap.ext_getElem?
  intro a
  simp only [Std.ExtTreeMap.getElem?_insert]
  split <;> rfl

def enter (state target : SeState) : SeState :=
  if isTransitionAllowed state target then target else state

def verdict (debounce count : UInt32) (target state : SeState) : SeState × UInt32 :=
  if target = .running then (enter state .running, 0)
  else if seStateToIndex state < seStateToIndex target then
    if debounce ≤ count + 1 then (enter state target, 0)
    else (if state = .running then .suspect else state, count + 1)
  else (state, count)

namespace SupervisedEntity

variable {μ ε : Type} [IMonitor μ ε]

def silent : StateChangeCallback Id := fun _ _ _ => pure ()

def handle (event : PhmEvent) (se : SupervisedEntity μ) : SupervisedEntity μ :=
  Id.run (processMonitorResult silent event se)

def count (se : SupervisedEntity μ) (source : String) : UInt32 :=
  (se.debounceMap.getD source {}).consecutiveCount

theorem transitionTo_silent (target : SeState) (se : SupervisedEntity μ) :
    transitionTo silent target se =
      pure ({ se with currentState := enter se.currentState target },
        isTransitionAllowed se.currentState target) := by
  unfold transitionTo enter
  cases h : isTransitionAllowed se.currentState target <;> simp [silent]

theorem handle_none {event : PhmEvent} {se : SupervisedEntity μ}
    (h : findConfig se.config event.sourceMonitor = none) : handle event se = se := by
  simp [handle, processMonitorResult, h]

theorem handle_some {event : PhmEvent} {se : SupervisedEntity μ} {mc : MonitorConfig}
    (h : findConfig se.config event.sourceMonitor = some mc) :
    handle event se =
      { se with
        currentState := (verdict (debounceOf mc) (se.count event.sourceMonitor)
          (seStateFromSeverity event.severity) se.currentState).1
        debounceMap := se.debounceMap.insert event.sourceMonitor
          { consecutiveCount := (verdict (debounceOf mc) (se.count event.sourceMonitor)
              (seStateFromSeverity event.severity) se.currentState).2
            targetState := if seStateFromSeverity event.severity = .running then .running
              else (se.debounceMap.getD event.sourceMonitor {}).targetState } } := by
  have hself : enter .running .running = .running := rfl
  have hsuspect : enter .running .suspect = .suspect := rfl
  simp only [handle, processMonitorResult, h, transitionTo_silent, verdict, count, setEntry]
  by_cases ht : seStateFromSeverity event.severity = .running
  · by_cases hc : se.currentState = .running <;> simp [ht, hc, hself]
  · by_cases hlt : seStateToIndex se.currentState < seStateToIndex (seStateFromSeverity event.severity)
    · simp only [ht, hlt, if_true, if_false]
      by_cases hd : debounceOf mc ≤ (se.debounceMap.getD event.sourceMonitor {}).consecutiveCount + 1
      · simp [hd, StringMap.insert_insert]
      · by_cases hc : se.currentState = .running <;> simp [hd, hc, hsuspect]
    · simp [ht, hlt]

theorem monitors_handle (event : PhmEvent) (se : SupervisedEntity μ) :
    (handle event se).monitors = se.monitors := by
  cases h : findConfig se.config event.sourceMonitor with
  | none => rw [handle_none h]
  | some mc => rw [handle_some h]

theorem pendingEvents_handle (event : PhmEvent) (se : SupervisedEntity μ) :
    (handle event se).pendingEvents = se.pendingEvents := by
  cases h : findConfig se.config event.sourceMonitor with
  | none => rw [handle_none h]
  | some mc => rw [handle_some h]

end SupervisedEntity

end PlatformHealth
