import PlatformHealth.Entity.Run
import PlatformHealth.Monitors.Builtin

namespace PlatformHealth

open SupervisedEntity

def AllRunning (mons : List BuiltinMonitor) : Prop :=
  ∀ mon ∈ mons, IMonitor.getState mon = .running

theorem processed_of_running {readings : Nat → Reading} {i : Nat} {mons : List BuiltinMonitor}
    (h : AllRunning (checked readings i mons)) : processed readings i mons = [] := by
  induction mons generalizing i with
  | nil => rfl
  | cons mon rest ih =>
    have hregular := BuiltinMonitor.regular_check mon (readings i)
    rw [processed, hregular.raised, List.nil_append]
    cases hout : (IMonitor.check mon (readings i)).outcome with
    | error fault => rfl
    | ok evt =>
      simp only [checked, hout] at h
      have hid := hregular.idOfRunning evt hout (h _ (by simp))
      have hrest : processed readings (i + 1) rest = [] := ih fun m hm => h m (by simp [hm])
      simp [hid, hrest]

theorem currentState_of_running {se : SupervisedEntity BuiltinMonitor} {readings : Nat → Reading}
    (h : AllRunning (se.apply (.checkAll readings)).monitors) :
    (se.apply (.checkAll readings)).currentState = se.currentState := by
  rw [monitors_checkAll] at h
  have hcore := core_apply se (.checkAll readings)
  rw [actions, processed_of_running h] at hcore
  exact congrArg (fun t : SupervisedEntity Empty => t.currentState) hcore

theorem currentState_of_each_running {se : SupervisedEntity BuiltinMonitor}
    {ticks : List (Nat → Reading)}
    (h : Runs.Each apply (fun se op => AllRunning (se.apply op).monitors) se
      (ticks.map .checkAll)) :
    (Runs.run apply se (ticks.map .checkAll)).currentState = se.currentState := by
  induction ticks generalizing se with
  | nil => rfl
  | cons readings rest ih => exact (ih h.2).trans (currentState_of_running h.1)

section
variable (cfg : SEConfig) (ops : List (EntityOp BuiltinMonitor Reading))
  (healthy : List (Nat → Reading))

theorem never_recovers
    (hleft : (Runs.run apply (new cfg) ops).currentState ∈ [.suspect, .warn, .error])
    (hhealthy : Runs.Each apply (fun se op => AllRunning (se.apply op).monitors)
      (Runs.run apply (new cfg) ops) (healthy.map .checkAll)) :
    (Runs.run apply (Runs.run apply (new cfg) ops) (healthy.map .checkAll)).currentState ≠
      .running := by
  rw [currentState_of_each_running hhealthy]
  intro heq
  simp [heq] at hleft

theorem never_recovers_after_exit :
    let cfg : SEConfig := { monitors := [{ type := .processLifecycle, debounceCount := 1 }] }
    let params := StringMap.empty.insert "process_name" "worker"
    let mon : BuiltinMonitor := .processLifecycle (.new "process_lifecycle" { params })
    let up : Nat → Reading := fun _ => .ofCurrent (some ⟨7, by decide⟩) {}
    let down : Nat → Reading := fun _ => .ofCurrent none {}
    let se := Runs.run apply (new cfg) [.registerMonitor (some mon), .start up, .checkAll down]
    (Runs.run apply se ([up, up].map .checkAll)).currentState ≠ .running := by
  intro cfg params mon up down se
  refine never_recovers cfg [.registerMonitor (some mon), .start up, .checkAll down] [up, up]
    (by decide +kernel) ⟨?_, ?_, trivial⟩
  · intro m hm
    obtain rfl : m = _ := List.mem_singleton.mp hm
    decide +kernel
  · intro m hm
    obtain rfl : m = _ := List.mem_singleton.mp hm
    decide +kernel

theorem present_again_stays_error :
    let cfg : SEConfig := { monitors := [{ type := .processLifecycle, debounceCount := 1 }] }
    let params := StringMap.empty.insert "process_name" "worker"
    let mon : BuiltinMonitor := .processLifecycle (.new "process_lifecycle" { params })
    let up : Nat → Reading := fun _ => .ofCurrent (some ⟨7, by decide⟩) {}
    let down : Nat → Reading := fun _ => .ofCurrent none {}
    let se := Runs.run apply (new cfg)
      [EntityOp.registerMonitor (some mon), .start up, .checkAll down]
    se.currentState = .error ∧ se.monitors.map (·.evaluate (up 0)) = [some true] ∧
      AllRunning (se.apply (.checkAll up)).monitors ∧
      (se.apply (.checkAll up)).currentState ≠ .running := by
  refine ⟨by decide +kernel, by decide +kernel, ?_, by decide +kernel⟩
  intro m hm
  obtain rfl : m = _ := List.mem_singleton.mp hm
  decide +kernel

end

end PlatformHealth
