import PlatformHealth.Entity.Notifications
import PlatformHealth.Library.Lockstep

namespace PlatformHealth

open Lockstep

inductive LaterCall (ε : Type) where
  | onMonitorEvent (event : PhmEvent)
  | start (readings freshReadings : Nat → ε)
  | drainEvents

structure EntityAnswer where
  state : SeState
  drained : List PhmEvent

namespace SupervisedEntity

variable {μ ε : Type} [IMonitor μ ε]

def onReset : LaterCall ε → EntityOp μ ε
  | .onMonitorEvent event => .onMonitorEvent event
  | .start readings _ => .start readings
  | .drainEvents => .drainEvents

def onFresh : LaterCall ε → EntityOp μ ε
  | .onMonitorEvent event => .onMonitorEvent event
  | .start _ freshReadings => .start freshReadings
  | .drainEvents => .drainEvents

def drained (se : SupervisedEntity μ) : EntityOp μ ε → List PhmEvent
  | .drainEvents => se.drainEvents.2
  | _ => []

section
variable {m : Type → Type} [Monad m]

def serve (cb : StateChangeCallback m) (se : SupervisedEntity μ) (op : EntityOp μ ε) :
    m (EntityAnswer × SupervisedEntity μ) := do
  let next ← se.perform cb op
  return (⟨next.currentState, se.drained op⟩, next)

end

def StartsAlike : List μ → List μ → List (LaterCall ε) → Prop
  | _, _, [] => True
  | mons, fresh, .start readings freshReadings :: later =>
    (startMonitors readings 0 mons).2 = (startMonitors freshReadings 0 fresh).2 ∧
      StartsAlike (startMonitors readings 0 mons).1 (startMonitors freshReadings 0 fresh).1 later
  | mons, fresh, _ :: later => StartsAlike mons fresh later

instance StartsAlike.decidable : ∀ (mons fresh : List μ) (later : List (LaterCall ε)),
    Decidable (StartsAlike mons fresh later)
  | _, _, [] => .isTrue trivial
  | mons, fresh, .start readings freshReadings :: later =>
    have := StartsAlike.decidable (startMonitors readings 0 mons).1
      (startMonitors freshReadings 0 fresh).1 later
    inferInstanceAs (Decidable (_ ∧ _))
  | mons, fresh, .onMonitorEvent _ :: later => StartsAlike.decidable mons fresh later
  | mons, fresh, .drainEvents :: later => StartsAlike.decidable mons fresh later

-- what processMonitorResult reads; an entry that is missing reads as a new one
structure SameView (se fresh : SupervisedEntity μ) : Prop where
  config : se.config = fresh.config
  stateCb : se.stateCb = fresh.stateCb
  currentState : se.currentState = fresh.currentState
  table : ∀ key, se.debounceMap.getD key {} = fresh.debounceMap.getD key {}

section
omit [IMonitor μ ε]
variable {se fresh : SupervisedEntity μ}

theorem SameView.count (h : SameView se fresh) (source : String) :
    se.count source = fresh.count source := congrArg DebounceEntry.consecutiveCount (h.table source)

theorem SameView.handle (h : SameView se fresh) (event : PhmEvent) :
    SameView (handle event se) (handle event fresh) := by
  have hcfg : findConfig se.config event.sourceMonitor = findConfig fresh.config event.sourceMonitor := by
    rw [h.config]
  cases hmc : findConfig fresh.config event.sourceMonitor with
  | none => rwa [handle_none hmc, handle_none (hcfg.trans hmc)]
  | some mc =>
    rw [handle_some hmc, handle_some (hcfg.trans hmc)]
    refine ⟨h.config, h.stateCb, ?_, ?_⟩
    · simp only [h.count, h.currentState]
    · intro key
      simp only [Std.ExtTreeMap.getD_insert, h.count, h.currentState, h.table]

theorem SameView.act (h : SameView se fresh) (a : Action) : SameView (se.act a) (fresh.act a) := by
  cases a with
  | started => exact ⟨h.config, h.stateCb, by simp only [SupervisedEntity.act, h.currentState], h.table⟩
  | event event => exact h.handle event
  | reset => exact ⟨h.config, h.stateCb, rfl, fun _ => rfl⟩

theorem SameView.run (h : SameView se fresh) (as : List Action) :
    SameView (Runs.run SupervisedEntity.act se as) (Runs.run SupervisedEntity.act fresh as) := by
  induction as generalizing se fresh with
  | nil => exact h
  | cons a as ih => exact ih (h.act a)

theorem SameView.changes (h : SameView se fresh) (as : List Action) : changes se as = changes fresh as := by
  induction as generalizing se fresh with
  | nil => rfl
  | cons a as ih =>
    have hnext := h.act a
    simp only [SupervisedEntity.changes, hnext.currentState, h.currentState, ih hnext]

theorem SameView.core (h : SameView se fresh) : SameView se.core fresh.core :=
  ⟨h.config, h.stateCb, h.currentState, h.table⟩

theorem SameView.of_core (h : SameView se.core fresh.core) : SameView se fresh :=
  ⟨h.config, h.stateCb, h.currentState, h.table⟩

end

structure Alike (later : List (LaterCall ε)) (se fresh : SupervisedEntity μ) : Prop where
  view : SameView se fresh
  pendingEvents : se.pendingEvents = fresh.pendingEvents
  starts : StartsAlike se.monitors fresh.monitors later

section
variable {se fresh : SupervisedEntity μ} {call : LaterCall ε} {later : List (LaterCall ε)}

theorem Alike.actions (h : Alike (call :: later) se fresh) :
    se.actions (onReset call) = fresh.actions (onFresh call) := by
  cases call with
  | start readings freshReadings =>
    obtain ⟨hok, -⟩ := h.starts
    simp only [onReset, onFresh, SupervisedEntity.actions, hok]
  | _ => rfl

theorem Alike.drained (h : Alike (call :: later) se fresh) :
    se.drained (onReset call) = fresh.drained (onFresh call) := by
  cases call with
  | drainEvents => exact h.pendingEvents
  | _ => rfl

theorem apply_onMonitorEvent (se : SupervisedEntity μ) (event : PhmEvent) :
    (se.apply (.onMonitorEvent event : EntityOp μ ε)).pendingEvents = se.pendingEvents ++ [event] ∧
      (se.apply (.onMonitorEvent event : EntityOp μ ε)).monitors = se.monitors :=
  ⟨pendingEvents_handle event _, monitors_handle event _⟩

theorem Alike.apply (h : Alike (call :: later) se fresh) :
    Alike later (se.apply (onReset call)) (fresh.apply (onFresh call)) := by
  have hview : SameView (se.apply (onReset call)) (fresh.apply (onFresh call)) := by
    refine .of_core ?_
    rw [core_apply, core_apply, h.actions]
    exact h.view.core.run _
  obtain ⟨-, hpending, hstarts⟩ := h
  cases call with
  | onMonitorEvent event =>
    obtain ⟨hqueue, hmons⟩ := apply_onMonitorEvent (ε := ε) se event
    obtain ⟨hqueue', hmons'⟩ := apply_onMonitorEvent (ε := ε) fresh event
    refine ⟨hview, ?_, ?_⟩
    · rw [onReset, onFresh, hqueue, hqueue', hpending]
    · rwa [onReset, onFresh, hmons, hmons']
  | start readings freshReadings =>
    obtain ⟨hqueue, hmons⟩ := apply_start se readings
    obtain ⟨hqueue', hmons'⟩ := apply_start fresh freshReadings
    refine ⟨hview, ?_, ?_⟩
    · rw [onReset, onFresh, hqueue, hqueue', hpending]
    · rw [onReset, onFresh, hmons, hmons']
      exact hstarts.2
  | drainEvents => exact ⟨hview, rfl, hstarts⟩

section
variable {m : Type → Type} [Monad m] [LawfulMonad m] (cb : StateChangeCallback m)

theorem Alike.inStep (h : Alike (call :: later) se fresh) :
    InStep (Alike later) (serve cb se (onReset call)) (serve cb fresh (onFresh call)) := by
  have htell (cs : List StateChange) : tell cb se cs = tell cb fresh cs := by
    rw [tell, tell, h.view.stateCb, h.view.config]
  refine ⟨Unit, tell cb fresh (changes fresh.core (fresh.actions (onFresh call))),
    fun _ => ⟨(fresh.apply (onFresh call)).currentState, fresh.drained (onFresh call)⟩,
    fun _ => se.apply (onReset call), fun _ => fresh.apply (onFresh call), ?_, ?_, fun _ => h.apply⟩
  · rw [serve, perform_eq, htell, h.view.core.changes, h.actions, h.drained, ← h.apply.view.currentState]
    simp only [bind_assoc, pure_bind]
  · rw [serve, perform_eq]
    simp only [bind_assoc, pure_bind]

end

end

def built (cfg : SEConfig) (callback : Bool) (mons : List μ) : SupervisedEntity μ :=
  { (new cfg : SupervisedEntity μ) with stateCb := callback, monitors := mons }

theorem SameView.reset {se : SupervisedEntity μ} {cfg : SEConfig} {callback : Bool}
    (hcfg : se.config = cfg) (hcb : se.stateCb = callback) (mons : List μ) :
    SameView se.reset (built cfg callback mons) := by
  refine ⟨hcfg, hcb, rfl, fun key => ?_⟩
  have hnew : (built cfg callback mons).debounceMap.getD key {} = {} := getD_debounceMap_new (μ := μ) cfg key
  rw [hnew]
  exact Std.ExtTreeMap.getD_empty

theorem stateCb_run (se : SupervisedEntity μ) (ops : List (EntityOp μ ε)) :
    (Runs.run apply se ops).stateCb = se.stateCb :=
  Runs.run_eq_of_each (fun t : SupervisedEntity μ => t.stateCb) ops (fun t op _ => stateCb_apply t op) se

theorem reset_is_fresh {m : Type → Type} [Monad m] [LawfulMonad m] (cb : StateChangeCallback m)
    (cfg : SEConfig) (callback : Bool) (mons freshMons : List μ) (history : List (EntityOp μ ε))
    (later : List (LaterCall ε))
    (hstarts : StartsAlike (Runs.run apply (built cfg callback mons) history).reset.monitors freshMons later) :
    drive (fun se call => serve cb se (onReset call))
        (Runs.run apply (built cfg callback mons) history).reset later =
      drive (fun se call => serve cb se (onFresh call)) (built cfg callback freshMons) later := by
  have hview := SameView.reset (config_run (built cfg callback mons) history)
    (stateCb_run (built cfg callback mons) history) freshMons
  refine drive_eq (R := fun later se fresh => Alike later se fresh) ?_ ⟨hview, rfl, hstarts⟩
  intro se fresh call later h
  exact h.inStep cb

theorem reset_is_fresh_after_warning :
    let cfg : SEConfig := { monitors := [{ type := .alive, debounceCount := 1 }] }
    let mons : List ReportingMonitor := [{ type := .alive }]
    let warning : PhmEvent := { sourceMonitor := "alive", severity := .warning }
    let history : List (EntityOp ReportingMonitor Report) := [.start fun _ => {}, .onMonitorEvent warning]
    let later : List (LaterCall Report) :=
      [.start (fun _ => {}) (fun _ => {}), .onMonitorEvent warning, .drainEvents]
    drive (fun se call => serve recorder se (onReset call))
        (Runs.run apply (built cfg true mons) history).reset later =
      drive (fun se call => serve recorder se (onFresh call)) (built cfg true mons) later := by
  intro cfg mons warning history later
  have hstarts : StartsAlike (Runs.run apply (built cfg true mons) history).reset.monitors mons later := by
    decide +kernel
  exact reset_is_fresh recorder cfg true mons mons history later hstarts

end SupervisedEntity

end PlatformHealth
