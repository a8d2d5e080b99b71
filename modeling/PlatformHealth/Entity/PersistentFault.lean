import PlatformHealth.Entity.Counters
import PlatformHealth.Monitors.EdgeTriggered

namespace PlatformHealth

open SupervisedEntity EdgeDetector EdgeMonitor

theorem processed_edge (mon : EdgeMonitor) (readings : Nat → Reading) :
    processed readings 0 [mon.val] = (detector.emit mon (readings 0)).toList := by
  have hout := BuiltinMonitor.outcome_check (r := readings 0) mon.property
  rw [processed, (BuiltinMonitor.regular_check _ _).raised, List.nil_append, hout]
  by_cases h : mon.val.evaluate (readings 0) = some false ∧ mon.val.armed = true
  · have hid := (BuiltinMonitor.alarm_spec (r := readings 0) mon.property).1
    simp [Detector.emit, detector, h, hid, processed]
  · simp [Detector.emit, detector, h, processed]

theorem trace_edge {se : SupervisedEntity BuiltinMonitor} {mon : EdgeMonitor}
    (hmon : se.monitors = [mon.val]) (ticks : List (Nat → Reading)) :
    se.trace (ticks.map .checkAll) =
      (detector.outputs mon (ticks.map fun readings => readings 0)).map .event := by
  induction ticks generalizing se mon with
  | nil => rfl
  | cons readings rest ih =>
    have hnext : (se.apply (.checkAll readings)).monitors =
        [(detector.next mon (readings 0)).val] := by
      rw [monitors_checkAll, hmon, checked, BuiltinMonitor.outcome_check mon.property]
      rfl
    rw [List.map_cons, trace, ih hnext, actions, hmon, processed_edge, List.map_cons,
      Detector.outputs, List.map_append]

section
variable {se : SupervisedEntity Empty} {e : PhmEvent} {mc : MonitorConfig}

theorem single_error (hbelow : CountersBelow se) (hrunning : se.currentState = .running)
    (hmc : findConfig se.config e.sourceMonitor = some mc) (hsev : e.severity = .error) :
    (handle e se).currentState ∈ [.error, .fatal] ↔
      threshold mc ≤ (se.count e.sourceMonitor).toNat + 1 := by
  have hfault : e.severity ≠ .info := by simp [hsev]
  have hlt : seStateToIndex se.currentState < seStateToIndex (seStateFromSeverity e.severity) := by
    rw [hrunning, hsev]
    decide
  rcases Nat.lt_or_ge ((se.count e.sourceMonitor).toNat + 1) (threshold mc) with hd | hd
  · have hsuspect := (handle_counts hbelow hmc hfault hlt hd).1
    rw [hrunning, if_pos rfl] at hsuspect
    exact iff_of_false (by simp [hsuspect]) (by omega)
  · have herror := (handle_confirms hbelow hmc hfault hlt hd).1
    rw [hrunning, hsev] at herror
    exact iff_of_true (by rw [herror]; decide) hd

end

section
variable {cfg : SEConfig} {ops : List (EntityOp BuiltinMonitor Reading)} {mon : EdgeMonitor}
  {mc : MonitorConfig} {ticks : List (Nat → Reading)}

theorem persistent_fault_confirmed_iff
    (hmon : (Runs.run apply (new cfg) ops).monitors = [mon.val])
    (hrunning : (Runs.run apply (new cfg) ops).currentState = .running)
    (hmc : findConfig cfg (IMonitor.name mon.val) = some mc)
    (hfaulty : detector.answers mon (ticks.map fun readings => readings 0) =
      List.replicate (threshold mc) false) :
    (Runs.run apply (Runs.run apply (new cfg) ops) (ticks.map .checkAll)).currentState ∈
        [.error, .fatal] ↔
      threshold mc ≤ ((Runs.run apply (new cfg) ops).count (IMonitor.name mon.val)).toNat + 1 ∧
        mon.val.armed := by
  have hcfg : (Runs.run apply (new cfg) ops).core.config = cfg :=
    (config_run (new cfg) ops)
  have hbelow : CountersBelow (Runs.run apply (new cfg) ops).core :=
    countersBelow_run (countersBelow_new cfg) ops
  have hcore := core_run (Runs.run apply (new cfg) ops) (ticks.map .checkAll)
  rw [trace_edge hmon] at hcore
  rw [← core_currentState, hcore]
  cases harmed : mon.val.armed with
  | false =>
    have hquiet : detector.outputs mon (ticks.map fun readings => readings 0) = [] := by
      refine Detector.outputs_of_unarmed harmed ?_
      rw [hfaulty]
      exact fun b => List.eq_of_mem_replicate
    simp [hquiet, hrunning]
  | true =>
    have hname (t : EdgeMonitor) (r : Reading)
        (ht : IMonitor.name t.val = IMonitor.name mon.val) :
        IMonitor.name (detector.next t r).val = IMonitor.name mon.val :=
      (BuiltinMonitor.regular_check t.val r).name.trans ht
    obtain ⟨n, hn⟩ : ∃ n, threshold mc = n + 1 := ⟨_, (Nat.succ_pred (threshold_pos mc).ne').symm⟩
    obtain ⟨t, r, ht, hout⟩ := Detector.outputs_of_armed hname harmed rfl (hn ▸ hfaulty)
    obtain ⟨-, hsource, hsev⟩ := BuiltinMonitor.alarm_spec (r := r) t.property
    rw [hout, List.map_singleton, Runs.run_cons, Runs.run_nil, SupervisedEntity.act]
    have hsourceConfig : findConfig (Runs.run apply (new cfg) ops).core.config
        (t.val.alarm r).sourceMonitor = some mc := by
      rw [hcfg, hsource, ht]
      exact hmc
    have hconfirm := single_error hbelow hrunning hsourceConfig hsev
    rw [hsource, ht] at hconfirm
    exact hconfirm.trans (by simp [count, core])

theorem hang_confirmed_at_once :
    let cfg : SEConfig := { monitors := [{ type := .deadlock, debounceCount := 1 }] }
    let params := StringMap.empty.insert "thread_name" "worker"
    let mon : BuiltinMonitor := .deadlock (.new "deadlock" { type := .deadlock, params, interval := 0 })
    let well : Nat → Reading := fun _ => {}
    let hung : Nat → Reading := fun _ => { checkThreadByName := fun _ => false }
    let se := Runs.run apply (new cfg) [.registerMonitor (some mon), .start well, .checkAll well]
    (Runs.run apply se ([hung].map .checkAll)).currentState ∈ [.error, .fatal] := by
  intro cfg params mon well hung se
  have hiff := @persistent_fault_confirmed_iff cfg
    [.registerMonitor (some mon), .start well, .checkAll well] ⟨_, .inl rfl⟩
    { type := .deadlock, debounceCount := 1 } [hung] rfl (by decide +kernel) rfl (by decide +kernel)
  exact hiff.mpr (by decide +kernel)

theorem hang_stays_suspect :
    let cfg : SEConfig := { monitors := [{ type := .deadlock, debounceCount := 2 }] }
    let params := StringMap.empty.insert "thread_name" "worker"
    let mon : BuiltinMonitor := .deadlock (.new "deadlock" { type := .deadlock, params, interval := 0 })
    let well : Nat → Reading := fun _ => {}
    let hung : Nat → Reading := fun _ => { checkThreadByName := fun _ => false }
    let se := Runs.run apply (new cfg)
      [EntityOp.registerMonitor (some mon), .start well, .checkAll well]
    se.currentState = .running ∧
      (∃ m : EdgeMonitor, se.monitors = [m.val] ∧ m.val.evaluate (well 0) = some true ∧
        detector.answers m [hung 0, hung 0] = [false, false]) ∧
      (Runs.run apply se [.checkAll hung, .checkAll hung]).currentState = .suspect := by
  refine ⟨by decide +kernel, ⟨⟨_, ?_⟩, rfl, ?_, ?_⟩, by decide +kernel⟩
  · exact .inl rfl
  · decide +kernel
  · decide +kernel

end

end PlatformHealth
