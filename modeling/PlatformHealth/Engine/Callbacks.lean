import PlatformHealth.Entity.Run
import PlatformHealth.Library.LockDiscipline

namespace PlatformHealth

open LockDiscipline

namespace SupervisedEntity

variable {m : Type → Type} [Monad m] {μ ε : Type} [IMonitor μ ε]

def perform (cb : StateChangeCallback m) (se : SupervisedEntity μ) :
    EntityOp μ ε → m (SupervisedEntity μ)
  | .registerMonitor monitor => return (se.registerMonitor monitor).1
  | .start readings => do
    let (se, _) ← se.start cb readings
    return se
  | .stop => return se.stop
  | .checkAll readings => do
    let (se, _) ← se.checkAll cb readings
    return se
  | .onMonitorEvent event => se.onMonitorEvent cb event
  | .drainEvents => return se.drainEvents.1
  | .reset => return se.reset

theorem perform_silent (se : SupervisedEntity μ) (op : EntityOp μ ε) :
    Id.run (se.perform silent op) = se.apply op := by
  cases op <;> rfl

theorem stateCb_act (se : SupervisedEntity μ) (a : Action) : (se.act a).stateCb = se.stateCb := by
  cases a with
  | started => rfl
  | event event =>
    cases h : findConfig se.config event.sourceMonitor with
    | none => rw [act, handle_none h]
    | some mc => rw [act, handle_some h]
  | reset => rfl

theorem stateCb_apply (se : SupervisedEntity μ) (op : EntityOp μ ε) :
    (se.apply op).stateCb = se.stateCb := by
  have h := Runs.run_eq_of_each (fun t : SupervisedEntity Empty => t.stateCb) (se.actions op)
    (fun t a _ => stateCb_act t a) se.core
  rw [← core_apply] at h
  exact h

section
variable {σ φ : Type} {I : σ → Prop} {cb : StateChangeCallback (Locked σ φ)}
  (hcb : ∀ name oldState newState, Simulates I (cb name oldState newState) (pure ()))
include hcb

theorem simulates_transitionTo (target : SeState) (se : SupervisedEntity μ) :
    Simulates I (transitionTo cb target se) (transitionTo silent target se) := by
  unfold transitionTo
  split
  · exact .pure _
  · dsimp only
    split
    · exact (hcb _ _ _).bind fun _ => .pure _
    · exact .pure _

theorem simulates_processMonitorResult (event : PhmEvent) (se : SupervisedEntity μ) :
    Simulates I (processMonitorResult cb event se) (processMonitorResult silent event se) := by
  unfold processMonitorResult
  cases findConfig se.config event.sourceMonitor with
  | none => exact .pure _
  | some mc =>
    dsimp only
    split
    · split
      · exact (simulates_transitionTo hcb _ _).bind fun _ => .pure _
      · exact .pure _
    · split
      · split
        · exact (simulates_transitionTo hcb _ _).bind fun _ => .pure _
        · split
          · exact (simulates_transitionTo hcb _ _).bind fun _ => .pure _
          · exact .pure _
      · exact .pure _

theorem simulates_onMonitorEvents (events : List PhmEvent) (se : SupervisedEntity μ) :
    Simulates I (onMonitorEvents cb events se) (onMonitorEvents silent events se) := by
  induction events generalizing se with
  | nil => exact .pure _
  | cons event rest ih => exact (simulates_processMonitorResult hcb _ _).bind ih

theorem simulates_checkMonitors (readings : Nat → ε) (i : Nat) (mons : List μ)
    (se : SupervisedEntity μ) (events : List PhmEvent) :
    Simulates I (checkMonitors cb readings i mons se events)
      (checkMonitors silent readings i mons se events) := by
  induction mons generalizing i se events with
  | nil => exact .pure _
  | cons mon rest ih =>
    refine (simulates_onMonitorEvents hcb _ se).bind fun se => ?_
    dsimp only
    cases (IMonitor.check mon (readings i)).outcome with
    | error fault => exact .pure _
    | ok evt =>
      dsimp only
      split
      · exact (ih (i + 1) se events).bind fun _ => .pure _
      · refine (simulates_processMonitorResult hcb evt se).bind fun se => ?_
        exact (ih (i + 1) se (events ++ [evt])).bind fun _ => .pure _

theorem simulates_checkAll (readings : Nat → ε) (se : SupervisedEntity μ) :
    Simulates I (se.checkAll cb readings) (se.checkAll silent readings) :=
  (simulates_checkMonitors hcb readings 0 se.monitors se []).bind fun _ => .pure _

theorem simulates_start (readings : Nat → ε) (se : SupervisedEntity μ) :
    Simulates I (se.start cb readings) (se.start silent readings) := by
  unfold start
  dsimp only
  split
  · exact (simulates_transitionTo hcb _ _).bind fun _ => .pure _
  · exact .pure _

theorem simulates_perform (op : EntityOp μ ε) (se : SupervisedEntity μ) :
    Simulates I (se.perform cb op) (se.perform silent op) := by
  cases op with
  | registerMonitor monitor => exact .pure _
  | start readings => exact (simulates_start hcb readings se).bind fun _ => .pure _
  | stop => exact .pure _
  | checkAll readings => exact (simulates_checkAll hcb readings se).bind fun _ => .pure _
  | onMonitorEvent event => exact simulates_processMonitorResult hcb event _
  | drainEvents => exact .pure _
  | reset => exact .pure _

end

end SupervisedEntity

end PlatformHealth
