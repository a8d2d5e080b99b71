import PlatformHealth.Entity.Handle
import PlatformHealth.Library.Runs

namespace PlatformHealth

inductive EntityOp (μ ε : Type) where
  | registerMonitor (monitor : Option μ)
  | start (readings : Nat → ε)
  | stop
  | checkAll (readings : Nat → ε)
  | onMonitorEvent (event : PhmEvent)
  | drainEvents
  | reset

inductive Action where
  | started
  | event (event : PhmEvent)
  | reset

namespace SupervisedEntity

variable {μ ε : Type} [IMonitor μ ε]

def apply (se : SupervisedEntity μ) : EntityOp μ ε → SupervisedEntity μ
  | .registerMonitor monitor => (se.registerMonitor monitor).1
  | .start readings => (Id.run (se.start silent readings)).1
  | .stop => se.stop
  | .checkAll readings => (Id.run (se.checkAll silent readings)).1
  | .onMonitorEvent event => Id.run (se.onMonitorEvent silent event)
  | .drainEvents => se.drainEvents.1
  | .reset => se.reset

theorem apply_start (se : SupervisedEntity μ) (readings : Nat → ε) :
    (se.apply (.start readings)).pendingEvents = se.pendingEvents ∧
      (se.apply (.start readings)).monitors = (startMonitors readings 0 se.monitors).1 := by
  simp only [apply, start, transitionTo_silent]
  split <;> exact ⟨rfl, rfl⟩

def submit (se : SupervisedEntity μ) (events : List PhmEvent) : SupervisedEntity μ :=
  Runs.run (fun se event => Id.run (onMonitorEvent silent event se)) se events

def core (se : SupervisedEntity μ) : SupervisedEntity Empty where
  config := se.config
  healthChannel := se.healthChannel
  stateCb := se.stateCb
  currentState := se.currentState
  debounceMap := se.debounceMap

@[simp] theorem core_config (se : SupervisedEntity μ) : se.core.config = se.config := rfl

@[simp] theorem core_currentState (se : SupervisedEntity μ) :
    se.core.currentState = se.currentState := rfl

def act (se : SupervisedEntity μ) : Action → SupervisedEntity μ
  | .started =>
    { se with currentState := if se.currentState = .init then .running else se.currentState }
  | .event event => handle event se
  | .reset => { se with currentState := .init, debounceMap := ∅ }

def processed (readings : Nat → ε) : Nat → List μ → List PhmEvent
  | _, [] => []
  | i, mon :: rest =>
    (IMonitor.check mon (readings i)).raised ++
      match (IMonitor.check mon (readings i)).outcome with
      | .error _ => []
      | .ok evt =>
        if evt.id = "" then processed readings (i + 1) rest
        else evt :: processed readings (i + 1) rest

def checked (readings : Nat → ε) : Nat → List μ → List μ
  | _, [] => []
  | i, mon :: rest =>
    (IMonitor.check mon (readings i)).monitor ::
      match (IMonitor.check mon (readings i)).outcome with
      | .error _ => rest
      | .ok _ => checked readings (i + 1) rest

def actions (se : SupervisedEntity μ) : EntityOp μ ε → List Action
  | .registerMonitor _ => []
  | .start readings => if (startMonitors readings 0 se.monitors).2 then [.started] else []
  | .stop => []
  | .checkAll readings => (processed readings 0 se.monitors).map .event
  | .onMonitorEvent event => [.event event]
  | .drainEvents => []
  | .reset => [.reset]

def trace : SupervisedEntity μ → List (EntityOp μ ε) → List Action
  | _, [] => []
  | se, op :: ops => se.actions op ++ trace (se.apply op) ops

theorem core_handle (event : PhmEvent) (se : SupervisedEntity μ) :
    core (handle event se) = handle event (core se) := by
  cases h : findConfig se.config event.sourceMonitor with
  | none =>
    have hc : findConfig (core se).config event.sourceMonitor = none := h
    rw [handle_none h, handle_none hc]
  | some mc =>
    have hc : findConfig (core se).config event.sourceMonitor = some mc := h
    rw [handle_some h, handle_some hc]
    rfl

theorem core_onMonitorEvent (event : PhmEvent) (se : SupervisedEntity μ) :
    core (Id.run (onMonitorEvent silent event se)) = handle event (core se) :=
  core_handle event { se with pendingEvents := se.pendingEvents ++ [event] }

theorem core_submit (se : SupervisedEntity μ) (events : List PhmEvent) :
    core (submit se events) = Runs.run act se.core (events.map .event) := by
  induction events generalizing se with
  | nil => rfl
  | cons event rest ih =>
    have h := ih (Id.run (onMonitorEvent silent event se))
    rw [core_onMonitorEvent] at h
    exact h

theorem onMonitorEvents_silent (events : List PhmEvent) (se : SupervisedEntity μ) :
    Id.run (onMonitorEvents silent events se) = submit se events := by
  induction events generalizing se with
  | nil => rfl
  | cons event rest ih => exact ih (Id.run (onMonitorEvent silent event se))

theorem core_onMonitorEvents (events : List PhmEvent) (se : SupervisedEntity μ) :
    core (Id.run (onMonitorEvents silent events se)) =
      Runs.run act (core se) (events.map .event) := by
  rw [onMonitorEvents_silent, core_submit]

theorem core_checkMonitors (readings : Nat → ε) (i : Nat) (mons : List μ)
    (se : SupervisedEntity μ) (events : List PhmEvent) :
    core (Id.run (checkMonitors silent readings i mons se events)).2.1 =
      Runs.run act (core se) ((processed readings i mons).map .event) := by
  induction mons generalizing i se events with
  | nil => rfl
  | cons mon rest ih =>
    have hraised := core_onMonitorEvents (IMonitor.check mon (readings i)).raised se
    simp only [checkMonitors, processed, List.map_append, Runs.run_append, ← hraised]
    cases hout : (IMonitor.check mon (readings i)).outcome with
    | error fault => rfl
    | ok evt =>
      by_cases hid : evt.id = ""
      · simpa [hid] using ih (i + 1) _ events
      · have hevt := ih (i + 1)
          (handle evt (Id.run (onMonitorEvents silent (IMonitor.check mon (readings i)).raised se)))
          (events ++ [evt])
        rw [core_handle] at hevt
        simp only [hid, if_false, List.map_cons, Runs.run_cons]
        exact hevt

theorem monitors_checkMonitors (readings : Nat → ε) (i : Nat) (mons : List μ)
    (se : SupervisedEntity μ) (events : List PhmEvent) :
    (Id.run (checkMonitors silent readings i mons se events)).1 = checked readings i mons := by
  induction mons generalizing i se events with
  | nil => rfl
  | cons mon rest ih =>
    simp only [checkMonitors, checked]
    cases hout : (IMonitor.check mon (readings i)).outcome with
    | error fault => rfl
    | ok evt =>
      by_cases hid : evt.id = ""
      · simpa [hid] using ih (i + 1) _ _
      · simpa [hid] using ih (i + 1) _ _

theorem monitors_checkAll (se : SupervisedEntity μ) (readings : Nat → ε) :
    (se.apply (.checkAll readings)).monitors = checked readings 0 se.monitors :=
  monitors_checkMonitors readings 0 se.monitors se []

theorem core_apply (se : SupervisedEntity μ) (op : EntityOp μ ε) :
    core (se.apply op) = Runs.run act (core se) (se.actions op) := by
  cases op with
  | registerMonitor monitor =>
    cases monitor with
    | none => rfl
    | some mon =>
      simp only [apply, registerMonitor, actions]
      split <;> rfl
  | start readings =>
    have henter : enter .init .running = .running := rfl
    simp only [apply, start, actions, transitionTo_silent]
    by_cases hok : (startMonitors readings 0 se.monitors).2 = true
    · by_cases hinit : se.currentState = .init <;> simp [hok, hinit, core, act, henter]
    · simp [hok, core]
  | stop => rfl
  | checkAll readings => exact core_checkMonitors readings 0 se.monitors se []
  | onMonitorEvent event => exact core_onMonitorEvent event se
  | drainEvents => rfl
  | reset => rfl

theorem core_run (se : SupervisedEntity μ) (ops : List (EntityOp μ ε)) :
    core (Runs.run apply se ops) = Runs.run act (core se) (trace se ops) := by
  induction ops generalizing se with
  | nil => rfl
  | cons op ops ih =>
    simp only [Runs.run_cons, trace, Runs.run_append, ← core_apply]
    exact ih (se.apply op)

end SupervisedEntity

end PlatformHealth
