import PlatformHealth.Entity.Counters
import PlatformHealth.Monitors.Builtin

namespace PlatformHealth

namespace SupervisedEntity

variable {μ ε : Type} [IMonitor μ ε]

def JudgedBy (own : MonitorConfig) (event : PhmEvent) (se : SupervisedEntity μ) : Prop :=
  if own.enabled then
    ((handle event se).currentState, (handle event se).count event.sourceMonitor) =
      verdict (debounceOf own) (se.count event.sourceMonitor) (seStateFromSeverity event.severity)
        se.currentState
  else
    (handle event se).currentState = se.currentState ∧
      ∀ source, (handle event se).count source = se.count source

def Holds (se : SupervisedEntity μ) (mon : μ) : Prop :=
  ∃ m ∈ se.monitors, IMonitor.name m = IMonitor.name mon ∧
    IMonitor.getConfig m = IMonitor.getConfig mon

section
variable {event : PhmEvent} {se : SupervisedEntity μ} {own found : MonitorConfig}

theorem judgedBy_of_found (henabled : own.enabled = true)
    (hfound : findConfig se.config event.sourceMonitor = some found)
    (hsame : threshold found = threshold own) : JudgedBy own event se := by
  have hdebounce : debounceOf found = debounceOf own := by
    apply UInt32.toNat_inj.mp
    rw [debounceOf_toNat, debounceOf_toNat, hsame]
  rw [JudgedBy, if_pos henabled, currentState_handle hfound, count_handle_self hfound, hdebounce]

theorem judgedBy_of_none (hdisabled : own.enabled = false)
    (hnone : findConfig se.config event.sourceMonitor = none) : JudgedBy own event se := by
  rw [JudgedBy, if_neg (by simp [hdisabled]), handle_none hnone]
  exact ⟨rfl, fun _ => rfl⟩

end

def faultFrom (source : String) : PhmEvent := { id := "1", sourceMonitor := source, severity := .error }

def allClear (source : String) : PhmEvent := { id := "1", sourceMonitor := source, severity := .info }

def faulted (cfg : SEConfig) (mon : μ) (j : Nat) : SupervisedEntity μ :=
  Runs.run apply (new cfg) (.registerMonitor (some mon) ::
    List.replicate j (.onMonitorEvent (faultFrom (IMonitor.name mon))))

section
variable {cfg : SEConfig} {mon : μ} {found own : MonitorConfig}

theorem faulted_succ (cfg : SEConfig) (mon : μ) (j : Nat) :
    faulted cfg mon (j + 1) =
      (faulted cfg mon j).apply (.onMonitorEvent (faultFrom (IMonitor.name mon))) := by
  rw [faulted, List.replicate_succ', ← List.cons_append, Runs.run_append]
  rfl

theorem config_faulted (j : Nat) : (faulted cfg mon j).config = cfg :=
  config_run (new cfg) _

theorem holds_faulted (j : Nat) : Holds (faulted cfg mon j) mon := by
  have hmonitors : (faulted cfg mon j).monitors = [mon] := by
    induction j with
    | zero => rfl
    | succ j ih =>
      rw [faulted_succ, ← ih]
      exact monitors_handle _ _
  exact ⟨mon, by simp [hmonitors], rfl, rfl⟩

theorem countersBelow_faulted (j : Nat) : CountersBelow (faulted cfg mon j) :=
  countersBelow_run (countersBelow_new cfg) _

theorem counts_faulted (hfound : findConfig cfg (IMonitor.name mon) = some found) {j : Nat}
    (hj : j < threshold found) :
    (faulted cfg mon j).currentState = .init ∧
      ((faulted cfg mon j).count (IMonitor.name mon)).toNat = j := by
  induction j with
  | zero =>
    refine ⟨rfl, ?_⟩
    have hcount : (faulted cfg mon 0).count (IMonitor.name mon) =
        (new cfg : SupervisedEntity μ).count (IMonitor.name mon) := rfl
    rw [hcount, count_new]
    rfl
  | succ j ih =>
    obtain ⟨hstate, hcount⟩ := ih (by omega)
    have hconfig : findConfig (faulted cfg mon j).config
        (faultFrom (IMonitor.name mon)).sourceMonitor = some found := by
      rw [config_faulted]
      exact hfound
    have hlt : seStateToIndex (faulted cfg mon j).currentState <
        seStateToIndex (seStateFromSeverity (faultFrom (IMonitor.name mon)).severity) := by
      simp [hstate, faultFrom, seStateFromSeverity, seStateToIndex]
    have hstep := handle_counts (countersBelow_faulted j) hconfig (by simp [faultFrom]) hlt
      (by simp only [faultFrom]; omega)
    have hcore : core (faulted cfg mon (j + 1)) =
        core (handle (faultFrom (IMonitor.name mon)) (faulted cfg mon j)) := by
      rw [faulted_succ, core_handle]
      exact core_onMonitorEvent _ _
    constructor
    · refine (congrArg (fun t : SupervisedEntity Empty => t.currentState) hcore).trans ?_
      refine hstep.1.trans ?_
      simp [hstate]
    · refine (congrArg (fun t => (count t (IMonitor.name mon)).toNat) hcore).trans ?_
      exact hstep.2.trans (congrArg (· + 1) hcount)

theorem threshold_eq_of_judgedBy (henabled : own.enabled = true)
    (hfound : findConfig cfg (IMonitor.name mon) = some found)
    (h : ∀ j, JudgedBy own (faultFrom (IMonitor.name mon)) (faulted cfg mon j)) :
    threshold found = threshold own := by
  have hown := threshold_pos own
  have hpos := threshold_pos found
  have hjudged (j : Nat) (hj : j < threshold found) :
      ((handle (faultFrom (IMonitor.name mon)) (faulted cfg mon j)).count (IMonitor.name mon)).toNat =
        (verdict (debounceOf own) ((faulted cfg mon j).count (IMonitor.name mon)) .error .init).2.toNat := by
    have hj' := h j
    rw [JudgedBy, if_pos henabled, (counts_faulted hfound hj).1] at hj'
    exact congrArg (fun p => p.2.toNat) hj'
  have hconfig (j : Nat) : findConfig (faulted cfg mon j).config
      (faultFrom (IMonitor.name mon)).sourceMonitor = some found := by
    rw [config_faulted]
    exact hfound
  have hlt (j : Nat) (hj : j < threshold found) : seStateToIndex (faulted cfg mon j).currentState <
      seStateToIndex (seStateFromSeverity (faultFrom (IMonitor.name mon)).severity) := by
    rw [(counts_faulted hfound hj).1]
    simp [faultFrom, seStateFromSeverity, seStateToIndex]
  rcases Nat.lt_trichotomy (threshold found) (threshold own) with hless | heq | hmore
  · have hj : threshold found - 1 < threshold found := by omega
    have hcount := (counts_faulted hfound hj).2
    have hconfirms := (handle_confirms (countersBelow_faulted _) (hconfig _) (by simp [faultFrom])
      (hlt _ hj) (by simp only [faultFrom]; omega)).2
    have hverdict := hjudged _ hj
    rw [verdict_counts (by rw [debounceOf_toNat]; omega) (by decide) (by decide)
      (by rw [debounceOf_toNat]; omega), succ_toNat (d := debounceOf own)
      (by rw [debounceOf_toNat]; omega)] at hverdict
    simp only [faultFrom] at hconfirms hverdict
    omega
  · exact heq
  · have hj : threshold own - 1 < threshold found := by omega
    have hcount := (counts_faulted hfound hj).2
    have hcounts := (handle_counts (countersBelow_faulted _) (hconfig _) (by simp [faultFrom])
      (hlt _ hj) (by simp only [faultFrom]; omega)).2
    have hverdict := hjudged _ hj
    rw [verdict_confirms (by rw [debounceOf_toNat]; omega) (by decide) (by decide)
      (by rw [debounceOf_toNat]; omega)] at hverdict
    simp only [faultFrom, UInt32.toNat_zero] at hcounts hverdict
    omega

end

theorem judged_by_own_iff (cfg : SEConfig) (mon : μ) :
    (∀ (ops : List (EntityOp μ ε)) (event : PhmEvent),
      Holds (Runs.run apply (new cfg) ops) mon → event.sourceMonitor = IMonitor.name mon →
        JudgedBy (IMonitor.getConfig mon) event (Runs.run apply (new cfg) ops)) ↔
      if (IMonitor.getConfig mon).enabled then
        ∃ found, findConfig cfg (IMonitor.name mon) = some found ∧
          threshold found = threshold (IMonitor.getConfig mon)
      else findConfig cfg (IMonitor.name mon) = none := by
  constructor
  · intro h
    have hholds : Holds (faulted cfg mon 0) mon := holds_faulted 0
    have hclear := h [.registerMonitor (some mon)] (allClear (IMonitor.name mon)) hholds rfl
    have hconfig : (faulted cfg mon 0).config = cfg := config_faulted 0
    have hinfo {found : MonitorConfig} (hfound : findConfig cfg (IMonitor.name mon) = some found) :
        (handle (allClear (IMonitor.name mon)) (faulted cfg mon 0)).currentState = .running := by
      have hkept : findConfig (faulted cfg mon 0).config (allClear (IMonitor.name mon)).sourceMonitor =
          some found := by
        rw [hconfig]
        exact hfound
      rw [currentState_handle hkept]
      rfl
    split
    · next henabled =>
      cases hfound : findConfig cfg (IMonitor.name mon) with
      | none =>
        rw [JudgedBy, if_pos henabled, handle_none] at hclear
        · have hstate : SeState.init = .running := congrArg Prod.fst hclear
          cases hstate
        · exact hfound
      | some found =>
        refine ⟨found, rfl, threshold_eq_of_judgedBy henabled hfound fun j => ?_⟩
        exact h _ _ (holds_faulted j) rfl
    · next hdisabled =>
      cases hfound : findConfig cfg (IMonitor.name mon) with
      | none => rfl
      | some found =>
        rw [JudgedBy, if_neg hdisabled] at hclear
        cases (hinfo hfound).symm.trans hclear.1
  · intro h ops event _ hsource
    have hconfig : findConfig (Runs.run apply (new cfg : SupervisedEntity μ) ops).config
        event.sourceMonitor = findConfig cfg (IMonitor.name mon) := by
      rw [config_run, hsource]
      rfl
    split at h
    · next henabled =>
      obtain ⟨found, hfound, hsame⟩ := h
      exact judgedBy_of_found henabled (hconfig.trans hfound) hsame
    · next hdisabled =>
      exact judgedBy_of_none (by simpa using hdisabled) (hconfig.trans h)

def renamed : BuiltinMonitor :=
  .processLifecycle (.new "worker process" { type := .processLifecycle, debounceCount := 1 })

theorem renamed_monitor_not_judged :
    ¬ ∀ (ops : List (EntityOp BuiltinMonitor Reading)) (event : PhmEvent),
      Holds (Runs.run apply (new { monitors := [IMonitor.getConfig renamed] }) ops) renamed →
        event.sourceMonitor = IMonitor.name renamed →
          JudgedBy (IMonitor.getConfig renamed) event
            (Runs.run apply (new { monitors := [IMonitor.getConfig renamed] }) ops) := by
  intro h
  have hjudged := h [.registerMonitor (some renamed), .start (fun _ => {})]
    (faultFrom "worker process") ⟨_, List.mem_singleton.mpr rfl, rfl, rfl⟩ rfl
  have hstate : SeState.running = .error := congrArg Prod.fst hjudged
  cases hstate

end SupervisedEntity

end PlatformHealth
