import PlatformHealth.Engine.PhmEngine
import PlatformHealth.Entity.Isolation
import PlatformHealth.Monitors.Builtin
import PlatformHealth.Monitors.ProcessLoss

namespace PlatformHealth

open SupervisedEntity

inductive MetricStep where
  | op (op : EntityOp BuiltinMonitor Reading)
  | collectAndReport (nowMs : Int)

-- view is what was last seen of the process: present, or found gone after it had been seen
structure Metered where
  entity : SupervisedEntity BuiltinMonitor
  view : Option Bool := none

namespace Metered

def startFinds : BuiltinMonitor → Reading → Bool
  | .processLifecycle m, r =>
    r.created && m.processName ≠ "" && 0 < r.getProcessId m.processName
  | _, _ => false

-- an exception of an earlier monitor ends checkAll before this one is checked
def reaches (mons : List BuiltinMonitor) (readings : Nat → Reading) (i : Nat) : Bool :=
  ((answers readings 0 mons).take i).all (fun p => ¬ Throws p)

def afterStart (view : Option Bool) (found : Bool) : Option Bool :=
  if view = none && found then some true else view

def afterCheck (view : Option Bool) : Option Bool → Option Bool
  | some true => some true
  | some false => if view = some true then some false else view
  | none => view

variable (i : Nat)

def viewAfter (o : Metered) (mon : BuiltinMonitor) :
    EntityOp BuiltinMonitor Reading → Option Bool
  | .start readings => afterStart o.view (startFinds mon (readings i))
  | .checkAll readings =>
    if reaches o.entity.monitors readings i then afterCheck o.view (mon.evaluate (readings i))
    else o.view
  | _ => o.view

def step (o : Metered) : MetricStep → Metered
  | .op op =>
    { entity := o.entity.apply op
      view := (o.entity.monitors[i]?.map fun mon => viewAfter i o mon op).getD o.view }
  | .collectAndReport _ => o

def running (o : Metered) (nowMs : Int) : Option ℚ :=
  o.entity.monitors[i]?.bind fun mon => (PhmEngine.record o.entity nowMs mon).metrics["running"]?

def Truthful (o : Metered) (s : MetricStep) : Prop :=
  ∀ nowMs, s = .collectAndReport nowMs →
    (o.view = some false → o.running i nowMs = some 0) ∧
      (o.view = some true → o.running i nowMs = some 1)

def NotGone (o : Metered) (s : MetricStep) : Prop :=
  ∀ nowMs, s = .collectAndReport nowMs → o.view ≠ some false

def Lifecycle (o : Metered) : Prop :=
  ∃ m, o.entity.monitors[i]? = some (.processLifecycle m) ∧ m.state ∈ [.init, .running, .error]

section
variable {i} {o : Metered}

theorem running_of_lifecycle (h : o.Lifecycle i) (nowMs : Int) : o.running i nowMs = some 1 := by
  obtain ⟨m, hm, hstate⟩ := h
  have hfatal : m.state ≠ .fatal := by
    intro heq
    simp [heq] at hstate
  simp [running, hm, PhmEngine.record, IMonitor.getType, IMonitor.getState, hfatal, StringMap.empty]

theorem getElem?_startMonitors (readings : Nat → Reading) (k j : Nat) (mons : List BuiltinMonitor) :
    (startMonitors readings k mons).1[j]? =
      mons[j]?.map fun mon => (IMonitor.start mon (readings (k + j))).2 := by
  induction mons generalizing k j with
  | nil => simp [startMonitors]
  | cons mon rest ih =>
    cases j with
    | zero => simp [startMonitors]
    | succ j =>
      have hrest := ih (k + 1) j
      rw [show k + 1 + j = k + (j + 1) by omega] at hrest
      simpa [startMonitors] using hrest

theorem getElem?_checked (readings : Nat → Reading) (k j : Nat) (mons : List BuiltinMonitor) :
    (checked readings k mons)[j]? = mons[j]? ∨
      (checked readings k mons)[j]? =
        mons[j]?.map fun mon => (IMonitor.check mon (readings (k + j))).monitor := by
  induction mons generalizing k j with
  | nil => simp [checked]
  | cons mon rest ih =>
    cases j with
    | zero => simp [checked]
    | succ j =>
      simp only [checked, List.getElem?_cons_succ]
      split
      · exact .inl rfl
      · have hrest := ih (k + 1) j
        rwa [show k + 1 + j = k + (j + 1) by omega] at hrest

theorem Lifecycle.of_call {o' : Metered} {m : ProcessLifecycleMonitor} {c : MonitorCall}
    (hstate : m.state ∈ [SeState.init, .running, .error])
    (h : o'.entity.monitors[i]? = some (.processLifecycle (m.call c))) : o'.Lifecycle i :=
  ⟨m.call c, h, ProcessLifecycleMonitor.state_call hstate c⟩

theorem Lifecycle.step (h : o.Lifecycle i) (s : MetricStep) : (o.step i s).Lifecycle i := by
  cases s with
  | collectAndReport nowMs => exact h
  | op op =>
    obtain ⟨m, hm, hstate⟩ := h
    cases op with
    | registerMonitor monitor =>
      refine ⟨m, ?_, hstate⟩
      have hlt : i < o.entity.monitors.length := (List.getElem?_eq_some_iff.mp hm).1
      cases monitor with
      | none => exact hm
      | some mon =>
        simp only [Metered.step, apply, registerMonitor]
        split
        · exact hm
        · rwa [List.getElem?_append_left hlt]
    | start readings =>
      refine .of_call (c := .start (readings i)) hstate ?_
      simp only [Metered.step, (apply_start _ _).2]
      rw [getElem?_startMonitors, hm, Nat.zero_add]
      rfl
    | stop =>
      refine .of_call (c := .stop) hstate ?_
      simp only [Metered.step, apply, stop, List.getElem?_map, hm]
      rfl
    | checkAll readings =>
      have hchecked := getElem?_checked readings 0 i o.entity.monitors
      rw [← monitors_checkAll, hm, Nat.zero_add] at hchecked
      rcases hchecked with hsame | hnext
      · exact ⟨m, hsame, hstate⟩
      · exact .of_call (c := .check (readings i)) hstate hnext
    | onMonitorEvent event =>
      refine ⟨m, ?_, hstate⟩
      simp only [Metered.step]
      rw [show (o.entity.apply (.onMonitorEvent event)).monitors = o.entity.monitors from
        monitors_handle event _]
      exact hm
    | drainEvents => exact ⟨m, hm, hstate⟩
    | reset =>
      refine .of_call (m := m.call .stop) (c := .reset)
        (ProcessLifecycleMonitor.state_call hstate .stop) ?_
      simp only [Metered.step, apply, reset, stop, List.getElem?_map, hm]
      rfl

theorem truthful_iff_notGone (h : o.Lifecycle i) (s : MetricStep) :
    o.Truthful i s ↔ o.NotGone s := by
  refine forall_congr' fun nowMs => forall_congr' fun _ => ?_
  rw [running_of_lifecycle h]
  constructor
  · rintro ⟨hgone, -⟩ hview
    have hzero := hgone hview
    simp at hzero
  · intro hnot
    exact ⟨fun hview => absurd hview hnot, fun _ => rfl⟩

end

theorem each_truthful_iff (name : String) (cfg : MonitorConfig)
    (se : SupervisedEntity BuiltinMonitor) (i : Nat)
    (hmonitor : se.monitors[i]? = some (.processLifecycle (.new name cfg))) (steps : List MetricStep) :
    Runs.Each (step i) (Truthful i) { entity := se } steps ↔
      Runs.Each (step i) NotGone { entity := se } steps := by
  have hstart : Lifecycle i { entity := se } := ⟨_, hmonitor, by simp [ProcessLifecycleMonitor.new]⟩
  constructor
  · exact Runs.each_of_invariant
      (fun o s h htruth => ⟨(truthful_iff_notGone h s).mp htruth, h.step s⟩) hstart
  · exact Runs.each_of_invariant
      (fun o s h hnot => ⟨(truthful_iff_notGone h s).mpr hnot, h.step s⟩) hstart

def supervised : SupervisedEntity BuiltinMonitor :=
  (SupervisedEntity.new {}).apply (.registerMonitor (some (.processLifecycle
    (.new "process_lifecycle" { params := StringMap.empty.insert "process_name" "worker" }))))

def foundAtStart : MetricStep := .op (.start fun _ => .ofCurrent (some ⟨1, Int.zero_lt_one⟩) {})

def foundByCheck : MetricStep := .op (.checkAll fun _ => .ofCurrent (some ⟨1, Int.zero_lt_one⟩) {})

def goneByCheck : MetricStep := .op (.checkAll fun _ => .ofCurrent none {})

theorem gone_process_reported_running :
    ¬ Runs.Each (step 0) (Truthful 0) { entity := supervised }
      [foundAtStart, goneByCheck, .collectAndReport 0] := by
  rintro ⟨-, -, h, -⟩
  have hzero := (h 0 rfl).1 (by decide +kernel)
  have hone : some (1 : ℚ) = some 0 := hzero
  simp at hone

theorem each_truthful_while_present :
    supervised.monitors[0]? = some (.processLifecycle
        (.new "process_lifecycle" { params := StringMap.empty.insert "process_name" "worker" })) ∧
      Runs.Each (step 0) (Truthful 0) { entity := supervised }
        [foundAtStart, foundByCheck, .collectAndReport 0] := by
  refine ⟨rfl, (each_truthful_iff "process_lifecycle" _ supervised 0 rfl _).mpr ?_⟩
  refine ⟨fun _ h => ?_, fun _ h => ?_, fun _ _ => by decide +kernel, trivial⟩
  · cases h
  · cases h

end Metered

end PlatformHealth
