import PlatformHealth.Library.Runs
import PlatformHealth.Monitors.ProcessLifecycle

namespace PlatformHealth

inductive MonitorCall where
  | start (r : Reading)
  | stop
  | check (r : Reading)
  | reset
  | configure (cfg : MonitorConfig)

namespace ProcessLifecycleMonitor

def call (m : ProcessLifecycleMonitor) : MonitorCall → ProcessLifecycleMonitor
  | .start r => (m.start r).2
  | .stop => m.stop
  | .check r => (m.check r).monitor
  | .reset => m.reset
  | .configure cfg => m.configure cfg

def observed (m : ProcessLifecycleMonitor) (r : Reading) : Option Int :=
  if m.platform && (m.probe r).2 then some (m.probe r).1 else none

def ReportsLoss (m : ProcessLifecycleMonitor) (r : Reading) : Prop :=
  (m.check r).raised = [] ∧
    ∃ evt, (m.check r).outcome = .ok evt ∧ evt.id ≠ "" ∧ evt.severity = .error

def after (m : ProcessLifecycleMonitor) (readings : Nat → Reading) : Nat → ProcessLifecycleMonitor
  | 0 => m
  | k + 1 => ((m.after readings k).check (readings k)).monitor

theorem state_call {m : ProcessLifecycleMonitor} (h : m.state ∈ [.init, .running, .error])
    (c : MonitorCall) : (m.call c).state ∈ [.init, .running, .error] := by
  cases c with
  | start r => simp only [call, start]; grind
  | stop => simp [call, stop]
  | check r => simp only [call, check]; grind
  | reset => simp [call, reset]
  | configure cfg => exact h

theorem state_run (name : String) (cfg : MonitorConfig) (calls : List MonitorCall) :
    (Runs.run call (new name cfg) calls).state ∈ [.init, .running, .error] := by
  refine Runs.run_invariant (P := fun m : ProcessLifecycleMonitor =>
    m.state ∈ [SeState.init, .running, .error]) ?_ (by simp [new]) calls
  intro m c hm
  exact state_call hm c

structure Tracking (m : ProcessLifecycleMonitor) : Prop where
  platform : m.platform = true
  processName : m.processName ≠ ""
  state : m.state = .running ∨ m.state = .error ∧ m.pid ≤ 0

section
variable {m : ProcessLifecycleMonitor} {o : Option Pid} {r : Reading} {p : Pid}

theorem Tracking.of_observed (h : m.Tracking) {q : Int} (hq : m.observed r = some q) :
    (m.check r).monitor = { m with state := .running, pid := q } := by
  have hplatform := h.platform
  have hstate := h.state
  simp only [observed, check] at hq ⊢
  grind

theorem Tracking.of_unobserved (h : m.Tracking) (hq : m.observed (.ofCurrent o r) = none) :
    (m.check (.ofCurrent o r)).monitor = { m with state := .error, pid := -1 } := by
  have hplatform := h.platform
  have hname := h.processName
  have hstate := h.state
  cases o with
  | none =>
    simp only [observed, probe, check, Reading.ofCurrent] at hq ⊢
    grind
  | some q =>
    have hpos := q.property
    simp only [observed, probe, check, Reading.ofCurrent] at hq ⊢
    grind

theorem Tracking.check (h : m.Tracking) (o : Option Pid) (r : Reading) :
    (m.check (.ofCurrent o r)).monitor.Tracking := by
  cases hq : m.observed (.ofCurrent o r) with
  | none =>
    rw [h.of_unobserved hq]
    exact ⟨h.platform, h.processName, .inr ⟨rfl, by simp⟩⟩
  | some q =>
    rw [h.of_observed hq]
    exact ⟨h.platform, h.processName, .inl rfl⟩

theorem Tracking.reports (h : m.Tracking) (hstate : m.state = .running) (hpid : m.pid = p.val)
    (hgone : o ≠ some p) : m.ReportsLoss (.ofCurrent o r) := by
  have hpos := p.property
  have hexists : (Reading.ofCurrent o r).processExists p.val = false := by
    simpa using mt (processExists_ofCurrent o r p).mp hgone
  have hprobe : m.probe (.ofCurrent o r) = (p.val, false) := by
    rw [probe, hpid, if_pos hpos, hexists]
  refine ⟨(m.regular_check _).raised, m.exitEvent p.val (.ofCurrent o r), ?_, ?_, rfl⟩
  · simp [ProcessLifecycleMonitor.check, h.platform, hprobe, hstate]
  · exact generateId_ne_empty (by decide) _

theorem Tracking.observed_again (h : m.Tracking) {o' : Option Pid} {r' : Reading}
    (ho : o = some p) (ho' : o' = some p) (hq : m.observed (.ofCurrent o r) ≠ some p.val) :
    (m.check (.ofCurrent o r)).monitor.observed (.ofCurrent o' r') = some p.val := by
  subst ho ho'
  have hpos := p.property
  have hname := h.processName
  have hplatform := h.platform
  have hmiss : m.observed (.ofCurrent (some p) r) = none := by
    simp only [observed, probe, Reading.ofCurrent] at hq ⊢
    grind
  rw [h.of_unobserved hmiss]
  simp [observed, probe, hplatform, hname, hpos, getProcessId_ofCurrent]

end

structure Stuck (m : ProcessLifecycleMonitor) : Prop where
  platform : m.platform = true
  state : m.state = .init

section
variable {m : ProcessLifecycleMonitor}

theorem Stuck.check (h : m.Stuck) (r : Reading) : (m.check r).monitor.Stuck := by
  have hplatform := h.platform
  have hstate := h.state
  constructor
  · simp only [ProcessLifecycleMonitor.check]
    grind
  · simp only [ProcessLifecycleMonitor.check]
    grind

theorem Stuck.not_reports (h : m.Stuck) (r : Reading) : ¬ m.ReportsLoss r := by
  rintro ⟨-, evt, hok, hid, -⟩
  simp [ProcessLifecycleMonitor.check, h.platform, h.state] at hok
  exact hid (by rw [← hok])

end

section
variable (m : ProcessLifecycleMonitor) (o : Option Pid) (r : Reading)

theorem tracking_start (hname : m.processName ≠ "") (hstate : m.state ∈ [.init, .running, .error])
    (h : o.isSome ∨ m.state ≠ .init) : (m.start (.ofCurrent o r)).2.Tracking := by
  cases o with
  | none =>
    have hne : m.state ≠ .init := by simpa using h
    have hor : m.state = .running ∨ m.state = .error := by simpa [hne] using hstate
    constructor <;> simp [start, Reading.ofCurrent, hname, hor]
  | some p => constructor <;> simp [start, Reading.ofCurrent, hname, p.property]

theorem stuck_start (hname : m.processName ≠ "") (hstate : m.state = .init) :
    (m.start (.ofCurrent none r)).2.Stuck := by
  constructor <;> simp [start, Reading.ofCurrent, hname, hstate]

end

section
variable (name : String) (cfg : MonitorConfig) (calls : List MonitorCall) (current : Option Pid)
  (r : Reading) (os : Nat → Option Pid) (env : Nat → Reading)

def launched : ProcessLifecycleMonitor :=
  ((Runs.run call (new name cfg) calls).start (.ofCurrent current r)).2

def checks (k : Nat) : ProcessLifecycleMonitor :=
  (launched name cfg calls current r).after (fun k => .ofCurrent (os k) (env k)) k

variable {name cfg calls current r os env}

theorem tracking_checks (h : (launched name cfg calls current r).Tracking) (k : Nat) :
    (checks name cfg calls current r os env k).Tracking := by
  induction k with
  | zero => exact h
  | succ k ih => exact ih.check (os k) (env k)

theorem stuck_checks (h : (launched name cfg calls current r).Stuck) (k : Nat) :
    (checks name cfg calls current r os env k).Stuck := by
  induction k with
  | zero => exact h
  | succ k ih => exact ih.check _

theorem loss_detected_iff {k : Nat} {p : Pid}
    (hname : (Runs.run call (new name cfg) calls).processName ≠ "")
    (hseen : (checks name cfg calls current r os env k).observed (.ofCurrent (os k) (env k)) =
      some p.val)
    (hgone : os (k + 1) ≠ some p) :
    ((checks name cfg calls current r os env (k + 1)).ReportsLoss
          (.ofCurrent (os (k + 1)) (env (k + 1))) ∧
        ∀ j q, k < j → os j = some q → os (j + 1) = some q →
          (checks name cfg calls current r os env j).observed (.ofCurrent (os j) (env j)) =
              some q.val ∨
            (checks name cfg calls current r os env (j + 1)).observed
              (.ofCurrent (os (j + 1)) (env (j + 1))) = some q.val) ↔
      current.isSome ∨ (Runs.run call (new name cfg) calls).state ≠ .init := by
  have hstate := state_run name cfg calls
  by_cases hcond : current.isSome ∨ (Runs.run call (new name cfg) calls).state ≠ .init
  · have htracking (i : Nat) : (checks name cfg calls current r os env i).Tracking :=
      tracking_checks (tracking_start _ current r hname hstate hcond) i
    refine iff_of_true ⟨?_, ?_⟩ hcond
    · have hmonitor := (htracking k).of_observed hseen
      have hrunning : (checks name cfg calls current r os env (k + 1)).state = .running :=
        congrArg ProcessLifecycleMonitor.state hmonitor
      have hpid : (checks name cfg calls current r os env (k + 1)).pid = p.val :=
        congrArg ProcessLifecycleMonitor.pid hmonitor
      exact (htracking (k + 1)).reports hrunning hpid hgone
    · intro j q hj hup hstill
      by_cases hq : (checks name cfg calls current r os env j).observed
          (.ofCurrent (os j) (env j)) = some q.val
      · exact .inl hq
      · exact .inr ((htracking j).observed_again hup hstill hq)
  · refine iff_of_false (fun h => ?_) hcond
    obtain ⟨hnone, hinit⟩ : current = none ∧
        (Runs.run call (new name cfg) calls).state = .init := by simpa using hcond
    subst hnone
    exact (stuck_checks (stuck_start _ r hname hinit) (k + 1)).not_reports _ h.1

theorem loss_after_start_reported :
    let cfg : MonitorConfig := { params := StringMap.empty.insert "process_name" "worker" }
    let os : Nat → Option Pid := fun k => if k = 0 then some ⟨7, by decide⟩ else none
    (checks "process_lifecycle" cfg [] (some ⟨7, by decide⟩) {} os (fun _ => {}) 1).ReportsLoss
      (.ofCurrent (os 1) {}) := by
  intro cfg os
  have hiff := @loss_detected_iff "process_lifecycle" cfg [] (some ⟨7, by decide⟩) {} os (fun _ => {})
    0 ⟨7, by decide⟩ (by decide) (by decide +kernel) (by decide)
  exact (hiff.mpr (.inl rfl)).1

theorem loss_after_late_start_unreported :
    let cfg : MonitorConfig := { params := StringMap.empty.insert "process_name" "worker" }
    let os : Nat → Option Pid := fun k => if k = 0 then some ⟨7, by decide⟩ else none
    let m := checks "process_lifecycle" cfg [] none {} os fun _ => {}
    (new "process_lifecycle" cfg).processName ≠ "" ∧
      (m 0).observed (.ofCurrent (os 0) {}) = some 7 ∧ os 1 ≠ some ⟨7, by decide⟩ ∧
      ¬ (m 1).ReportsLoss (.ofCurrent (os 1) {}) := by
  refine ⟨by decide, by decide +kernel, by decide, ?_⟩
  rintro ⟨-, evt, hok, hid, -⟩
  obtain rfl : evt = {} := (Except.ok.inj hok).symm
  exact hid rfl

end

end ProcessLifecycleMonitor

end PlatformHealth
