import PlatformHealth.Monitors.NamedProcess
import PlatformHealth.Monitors.Sampling

namespace PlatformHealth

open Lockstep

inductive ProcessWatcher where
  | processLifecycle
  | resource
deriving DecidableEq, Repr

def ProcessWatcher.type : ProcessWatcher → BuiltinType
  | .processLifecycle => .processLifecycle
  | .resource => .resource

def MonitorConfig.NoThreshold (cfg : MonitorConfig) : Prop :=
  cfg.errorThreshold ≤ 0 ∧ cfg.warnThreshold ≤ 0

namespace BuiltinMonitor

def reconfigure (mon : BuiltinMonitor) (cfg : MonitorConfig) : BuiltinMonitor :=
  IMonitor.reset (IMonitor.stop (IMonitor.configure mon cfg))

def report (mon : BuiltinMonitor) (r : Reading) :
    (Except CheckFault PhmEvent × SeState) × BuiltinMonitor :=
  (((mon.watch r).1.outcome, (mon.watch r).1.state), (mon.watch r).2)

-- started in the same environment: the states and, check by check, the events
structure SameReports (used fresh : BuiltinMonitor) (first : Moment) (later : List Moment) : Prop where
  state : IMonitor.getState (IMonitor.start used first.reading).2 =
    IMonitor.getState (IMonitor.start fresh first.again).2
  reports :
    answers (fun mon (o : Moment) => mon.report o.reading) (IMonitor.start used first.reading).2 later =
      answers (fun mon (o : Moment) => mon.report o.again) (IMonitor.start fresh first.again).2 later

theorem report_again (mon : BuiltinMonitor) (o : Moment) : mon.report o.again = mon.report o.reading := by
  rw [report, watch_again]
  rfl

section
variable {R : BuiltinMonitor → BuiltinMonitor → Prop}

theorem sameReports_of_simulation {used fresh : BuiltinMonitor} {first : Moment}
    (hstep : ∀ u f r, R u f → (u.report r).1 = (f.report r).1 ∧ R (u.report r).2 (f.report r).2)
    (hstate : ∀ u f, R u f → IMonitor.getState u = IMonitor.getState f)
    (h : R (IMonitor.start used first.reading).2 (IMonitor.start fresh first.reading).2)
    (later : List Moment) : SameReports used fresh first later := by
  rw [← start_again fresh first] at h
  refine ⟨hstate _ _ h, answers_eq (R := R) ?_ h later⟩
  intro u f o hR
  rw [report_again]
  exact hstep u f o.reading hR

end

-- process_path_ is kept but never looked at
inductive OtherPath : BuiltinMonitor → BuiltinMonitor → Prop
  | intro (n : ProcessLifecycleMonitor) (path : String) :
      OtherPath (processLifecycle { n with processPath := path }) (processLifecycle n)

theorem OtherPath.report {u f : BuiltinMonitor} (h : OtherPath u f) (r : Reading) :
    (u.report r).1 = (f.report r).1 ∧ OtherPath (u.report r).2 (f.report r).2 := by
  obtain ⟨n, path⟩ := h
  have hcheck : ProcessLifecycleMonitor.check { n with processPath := path } r =
      { monitor := { (n.check r).monitor with processPath := path }
        outcome := (n.check r).outcome } := by
    unfold ProcessLifecycleMonitor.check
    dsimp only [ProcessLifecycleMonitor.probe, ProcessLifecycleMonitor.exitEvent]
    split_ifs <;> rfl
  simp only [BuiltinMonitor.report, watch, IMonitor.check, hcheck]
  exact ⟨rfl, .intro _ path⟩

theorem OtherPath.start {u f : BuiltinMonitor} (h : OtherPath u f) (r : Reading) :
    OtherPath (IMonitor.start u r).2 (IMonitor.start f r).2 := by
  obtain ⟨n, path⟩ := h
  have hstart : (ProcessLifecycleMonitor.start { n with processPath := path } r).2 =
      { (n.start r).2 with processPath := path } := by
    unfold ProcessLifecycleMonitor.start
    split_ifs <;> rfl
  simp only [IMonitor.start, hstart]
  exact .intro _ path

theorem OtherPath.state {u f : BuiltinMonitor} (h : OtherPath u f) :
    IMonitor.getState u = IMonitor.getState f := by
  cases h
  rfl

theorem processLifecycle_start_present (m : ProcessLifecycleMonitor) :
    IMonitor.getState (IMonitor.start (processLifecycle m) present).2 =
      if m.processName = "" then m.state else .running := by
  change (m.start present).2.state = _
  unfold ProcessLifecycleMonitor.start
  simp only [present, Bool.not_true, Bool.false_eq_true, if_false]
  split_ifs <;> rfl

theorem named_agrees {cfg : MonitorConfig} {old : String} (h : cfg.named ≠ none ∨ old = "") :
    cfg.named.getD old = cfg.named.getD "" := by
  cases hnamed : cfg.named with
  | some name => rfl
  | none => simpa [hnamed] using h

theorem reconfigure_processLifecycle (m : ProcessLifecycleMonitor) (cfg : MonitorConfig) :
    reconfigure (processLifecycle m) cfg =
      processLifecycle { ProcessLifecycleMonitor.new m.name cfg with
        processName := cfg.named.getD m.processName
        processPath := cfg.params.getD "process_path" m.processPath } := by
  rw [← getD_named]
  rfl

theorem processLifecycle_iff (m : ProcessLifecycleMonitor) (cfg : MonitorConfig) :
    (∀ first later, SameReports (reconfigure (processLifecycle m) cfg)
        (processLifecycle (.new m.name cfg)) first later) ↔
      cfg.named ≠ none ∨ m.processName = "" := by
  rw [reconfigure_processLifecycle]
  constructor
  · intro h
    by_contra hneg
    obtain ⟨hnone, hname⟩ := not_or.mp hneg
    have hnone : cfg.named = none := not_not.mp hnone
    have hused := processLifecycle_start_present { ProcessLifecycleMonitor.new m.name cfg with
      processName := cfg.named.getD m.processName
      processPath := cfg.params.getD "process_path" m.processPath }
    rw [if_neg (by rwa [hnone]), (h ⟨present, 0, 0⟩ []).state] at hused
    have hnew : (ProcessLifecycleMonitor.new m.name cfg).processName = "" := by
      rw [ProcessLifecycleMonitor.new, getD_named, hnone]
      rfl
    have hfresh := processLifecycle_start_present (.new m.name cfg)
    rw [if_pos hnew] at hfresh
    cases hused.symm.trans hfresh
  · intro h first later
    refine sameReports_of_simulation (fun u f r hR => OtherPath.report hR r) (fun u f hR => hR.state) ?_ later
    refine OtherPath.start ?_ first.reading
    rw [named_agrees h, ← getD_named]
    exact .intro (.new m.name cfg) _

section
variable {cfg : MonitorConfig} {a b c : ℚ} {n : ResourceMonitor} {r : Reading}

def word (q : ℚ) : UInt64 := UInt64.ofNat q.floor.toNat

-- values that no report tells apart
structure Unnoticed (cfg : MonitorConfig) (cpu cpu' memory memory' : ℚ) : Prop where
  cpu : cpu = cpu' ∨ cfg.Below cpu ∧ cfg.Below cpu'
  memory : word memory = word memory' ∨ cfg.NoThreshold

def withLast (n : ResourceMonitor) (cpu memory fd : ℚ) : ResourceMonitor :=
  { n with lastCpu := cpu, lastMemory := memory, lastFd := fd }

inductive OtherSamples : BuiltinMonitor → BuiltinMonitor → Prop
  | idle (n : ResourceMonitor) (a b c : ℚ) : n.processName = "" → n.pid ≤ 0 →
      OtherSamples (resource (withLast n a b c)) (resource n)
  | sampled (n : ResourceMonitor) (a b c : ℚ) : Unnoticed n.config a n.lastCpu b n.lastMemory →
      OtherSamples (resource (withLast n a b c)) (resource n)

theorem exists_fallback (n : ResourceMonitor) (r : Reading) (key : String) (osFn : ℚ) :
    ∃ o : Option ℚ, ∀ last, (n.getMetricWithFallback r key osFn last).2 = o.getD last := by
  cases hmetric : n.healthChannel.bind (fun c => (r.channel c).metrics[key]?) with
  | some v => exact ⟨some v, fun last => by simp [ResourceMonitor.getMetricWithFallback, hmetric]⟩
  | none =>
    by_cases hos : 0 < osFn ∨ key = "fd_count"
    · exact ⟨some osFn, fun last => by simp [ResourceMonitor.getMetricWithFallback, hmetric, hos]⟩
    · exact ⟨none, fun last => by simp [ResourceMonitor.getMetricWithFallback, hmetric, hos]⟩

theorem Unnoticed.sample (h : Unnoticed n.config a n.lastCpu b n.lastMemory) (r : Reading) :
    Unnoticed n.config ((withLast n a b c).sample r).lastCpu (n.sample r).lastCpu
      ((withLast n a b c).sample r).lastMemory (n.sample r).lastMemory := by
  obtain ⟨cpu, hcpu⟩ := exists_fallback n r "cpu" (r.getCpuUsage n.pid)
  obtain ⟨memory, hmemory⟩ :=
    exists_fallback n r "memory_bytes" (r.getMemoryUsageBytes n.pid).toNat
  change Unnoticed n.config (n.getMetricWithFallback r "cpu" (r.getCpuUsage n.pid) a).2
    (n.getMetricWithFallback r "cpu" (r.getCpuUsage n.pid) n.lastCpu).2
    (n.getMetricWithFallback r "memory_bytes" (r.getMemoryUsageBytes n.pid).toNat b).2
    (n.getMetricWithFallback r "memory_bytes" (r.getMemoryUsageBytes n.pid).toNat n.lastMemory).2
  rw [hcpu, hcpu, hmemory, hmemory]
  refine ⟨?_, ?_⟩
  · cases cpu with
    | some v => exact .inl rfl
    | none => exact h.cpu
  · cases memory with
    | some v => exact .inl rfl
    | none => exact h.memory

theorem classify_of_below (h : n.config.Below n.lastCpu) (r : Reading) :
    n.classify r = { monitor := { n with state := .running }, outcome := .ok {} } := by
  unfold ResourceMonitor.classify
  dsimp only
  rw [if_neg fun he => Rat.not_le.mpr (h.error he.1) he.2,
    if_neg fun hw => Rat.not_le.mpr (h.warning hw.1) hw.2]

theorem Unnoticed.classify (h : Unnoticed n.config a n.lastCpu b n.lastMemory) (r : Reading) :
    (withLast n a b c).classify r =
      { monitor := withLast (n.classify r).monitor a b c, outcome := (n.classify r).outcome } := by
  rcases h.cpu with rfl | ⟨hused, hfresh⟩
  · have hmemory : word b = word n.lastMemory ∨ n.config.Below n.lastCpu := by
      refine h.memory.imp_right fun hnone => ⟨fun he => ?_, fun hw => ?_⟩
      · exact absurd he (Rat.not_lt.mpr hnone.1)
      · exact absurd hw (Rat.not_lt.mpr hnone.2)
    rcases hmemory with hword | hbelow
    · have hword : UInt64.ofNat b.floor.toNat = UInt64.ofNat n.lastMemory.floor.toNat := hword
      unfold ResourceMonitor.classify withLast
      dsimp only
      rw [hword]
      split_ifs <;> rfl
    · have hused : (withLast n n.lastCpu b c).config.Below (withLast n n.lastCpu b c).lastCpu := hbelow
      rw [classify_of_below hused, classify_of_below hbelow]
      rfl
  · have hused : (withLast n a b c).config.Below (withLast n a b c).lastCpu := hused
    rw [classify_of_below hused, classify_of_below hfresh]
    rfl

theorem kept_classify (n : ResourceMonitor) (r : Reading) :
    (n.classify r).monitor.config = n.config ∧ (n.classify r).monitor.lastCpu = n.lastCpu ∧
      (n.classify r).monitor.lastMemory = n.lastMemory := by
  unfold ResourceMonitor.classify
  dsimp only
  split_ifs <;> exact ⟨rfl, rfl, rfl⟩

theorem check_waiting (h : (!n.platform || decide (n.pid ≤ 0)) = true) (r : Reading) :
    n.check r =
      if n.processName = "" then { monitor := n, outcome := .ok {} }
      else if !n.platform then { monitor := n, outcome := .error .nullPlatform }
      else { monitor := { n with pid := r.getProcessId n.processName }, outcome := .ok {} } := by
  rw [ResourceMonitor.check, if_pos h]

theorem check_lost (h : ¬ (!n.platform || decide (n.pid ≤ 0)) = true)
    (hlost : (!r.processExists n.pid) = true) :
    n.check r = { monitor := { n with pid := -1, state := .error }, outcome := .ok (n.lostEvent r) } := by
  rw [ResourceMonitor.check, if_neg h, if_pos hlost]

theorem check_sampled (h : ¬ (!n.platform || decide (n.pid ≤ 0)) = true)
    (hlost : ¬ (!r.processExists n.pid) = true) : n.check r = (n.sample r).classify r := by
  rw [ResourceMonitor.check, if_neg h, if_neg hlost]

theorem Unnoticed.check (h : Unnoticed n.config a n.lastCpu b n.lastMemory) (c : ℚ) (r : Reading) :
    ∃ a' b' c', (withLast n a b c).check r =
        { monitor := withLast (n.check r).monitor a' b' c', outcome := (n.check r).outcome } ∧
      Unnoticed (n.check r).monitor.config a' (n.check r).monitor.lastCpu b'
        (n.check r).monitor.lastMemory := by
  by_cases hwaiting : (!n.platform || decide (n.pid ≤ 0)) = true
  · have hused : (!(withLast n a b c).platform || decide ((withLast n a b c).pid ≤ 0)) = true := hwaiting
    refine ⟨a, b, c, ?_, ?_⟩
    · rw [check_waiting hused, check_waiting hwaiting]
      by_cases hname : n.processName = ""
      · simp [withLast, hname]
      · cases hplatform : n.platform <;> simp [withLast, hname, hplatform]
    · rw [check_waiting hwaiting]
      split_ifs <;> exact h
  · have hused : ¬ (!(withLast n a b c).platform || decide ((withLast n a b c).pid ≤ 0)) = true := hwaiting
    by_cases hlost : (!r.processExists n.pid) = true
    · refine ⟨a, b, c, ?_, ?_⟩
      · rw [check_lost hused hlost, check_lost hwaiting hlost]
        rfl
      · rw [check_lost hwaiting hlost]
        exact h
    · have hsample := h.sample (c := c) r
      obtain ⟨hconfig, hcpu, hmemory⟩ := kept_classify (n.sample r) r
      have hclassify := Unnoticed.classify (n := n.sample r) (c := ((withLast n a b c).sample r).lastFd)
        hsample r
      refine ⟨((withLast n a b c).sample r).lastCpu, ((withLast n a b c).sample r).lastMemory,
        ((withLast n a b c).sample r).lastFd, ?_, ?_⟩
      · rw [check_sampled hused hlost, check_sampled hwaiting hlost]
        exact hclassify
      · rw [check_sampled hwaiting hlost, hconfig, hcpu, hmemory]
        exact hsample

theorem OtherSamples.report {u f : BuiltinMonitor} (h : OtherSamples u f) (r : Reading) :
    (u.report r).1 = (f.report r).1 ∧ OtherSamples (u.report r).2 (f.report r).2 := by
  cases h with
  | idle n a b c hname hpid =>
    have hcheck (m : ResourceMonitor) (hname : m.processName = "") (hpid : m.pid ≤ 0) :
        m.check r = { monitor := m, outcome := .ok {} } := by
      simp [ResourceMonitor.check, hname, hpid]
    simp only [BuiltinMonitor.report, watch, IMonitor.check, hcheck n hname hpid,
      hcheck (withLast n a b c) hname hpid]
    exact ⟨rfl, .idle n a b c hname hpid⟩
  | sampled n a b c h =>
    obtain ⟨a', b', c', hcheck, hnext⟩ := h.check c r
    simp only [BuiltinMonitor.report, watch, IMonitor.check, hcheck]
    exact ⟨rfl, .sampled _ a' b' c' hnext⟩

theorem OtherSamples.state {u f : BuiltinMonitor} (h : OtherSamples u f) :
    IMonitor.getState u = IMonitor.getState f := by
  cases h <;> rfl

theorem start_withLast (n : ResourceMonitor) (a b c : ℚ) (r : Reading) :
    ((withLast n a b c).start r).2 = withLast (n.start r).2 a b c := by
  unfold ResourceMonitor.start
  cases r.created with
  | false => rfl
  | true =>
    by_cases hname : n.processName = "" <;> simp [withLast, hname]

theorem kept_start (n : ResourceMonitor) (r : Reading) :
    (n.start r).2.config = n.config ∧ (n.start r).2.processName = n.processName ∧
      (n.start r).2.lastCpu = n.lastCpu ∧ (n.start r).2.lastMemory = n.lastMemory ∧
      (n.processName = "" → (n.start r).2.pid = n.pid) := by
  unfold ResourceMonitor.start
  split_ifs with hcreated hname
  · exact ⟨rfl, rfl, rfl, rfl, fun _ => rfl⟩
  · exact ⟨rfl, rfl, rfl, rfl, fun _ => by simp⟩
  · exact ⟨rfl, rfl, rfl, rfl, fun h => absurd h hname⟩

theorem OtherSamples.start {u f : BuiltinMonitor} (h : OtherSamples u f) (r : Reading) :
    OtherSamples (IMonitor.start u r).2 (IMonitor.start f r).2 := by
  cases h with
  | idle n a b c hname hpid =>
    obtain ⟨-, hname', -, -, hpid'⟩ := kept_start n r
    change OtherSamples (resource ((withLast n a b c).start r).2) (resource (n.start r).2)
    rw [start_withLast]
    exact .idle _ a b c (hname'.trans hname) ((hpid' hname).trans_le hpid)
  | sampled n a b c h =>
    obtain ⟨hconfig, -, hcpu, hmemory, -⟩ := kept_start n r
    change OtherSamples (resource ((withLast n a b c).start r).2) (resource (n.start r).2)
    rw [start_withLast]
    refine .sampled _ a b c ?_
    rwa [hconfig, hcpu, hmemory]

end

def fresh (m : ResourceMonitor) (cfg : MonitorConfig) : ResourceMonitor :=
  { ResourceMonitor.new m.name cfg with healthChannel := m.healthChannel }

theorem reconfigure_resource (m : ResourceMonitor) (cfg : MonitorConfig) :
    reconfigure (resource m) cfg =
      resource (withLast { fresh m cfg with processName := cfg.named.getD m.processName }
        m.lastCpu m.lastMemory m.lastFd) := by
  rw [← getD_named]
  rfl

structure ResourceReplaceable (m : ResourceMonitor) (cfg : MonitorConfig) : Prop where
  named : cfg.named ≠ none ∨ m.processName = ""
  samples : cfg.named.getD "" = "" ∨
    cfg.Below m.lastCpu ∧ (word m.lastMemory = 0 ∨ cfg.NoThreshold)

def probeAt (cpu : ℚ) : Reading := { present with getCpuUsage := fun _ => cpu }

section
variable {n : ResourceMonitor}

theorem start_present (h : n.processName ≠ "") :
    (n.start present).2 = { n with platform := true, pid := 1, state := .running } := by
  unfold ResourceMonitor.start
  simp [present, h]

theorem check_probeAt (hplatform : n.platform = true) (hpid : n.pid = 1) (cpu : ℚ) :
    n.check (probeAt cpu) =
      (withLast n (if 0 < cpu then cpu else n.lastCpu) n.lastMemory 0).classify (probeAt cpu) := by
  have hnone (key : String) :
      n.healthChannel.bind (fun c => ((probeAt cpu).channel c).metrics[key]?) = none := by
    cases n.healthChannel with
    | none => rfl
    | some c => exact Std.ExtTreeMap.getElem?_empty
  have hsample : n.sample (probeAt cpu) =
      withLast n (if 0 < cpu then cpu else n.lastCpu) n.lastMemory 0 := by
    simp only [ResourceMonitor.sample, ResourceMonitor.getMetricWithFallback, hnone, withLast]
    by_cases hcpu : 0 < cpu <;> simp [probeAt, present, hcpu]
  rw [check_sampled (by simp [hplatform, hpid]) (by simp [probeAt, present]), hsample]

theorem memory_classify (h : ¬ n.config.Below n.lastCpu) (r : Reading) :
    ∃ evt, (n.classify r).outcome = .ok evt ∧
      evt.metadata.getD "memory_bytes" "" = toString (word n.lastMemory) := by
  have hmemory (severity : Severity) (state : SeState) (label : String) (threshold : ℚ) :
      (n.thresholdEvent severity state label threshold n.lastCpu (word n.lastMemory) r).metadata.getD
        "memory_bytes" "" = toString (word n.lastMemory) := by
    rw [ResourceMonitor.thresholdEvent, Std.ExtTreeMap.getD_insert_self]
  unfold ResourceMonitor.classify
  dsimp only
  split_ifs with herror hwarning
  · exact ⟨_, rfl, hmemory ..⟩
  · exact ⟨_, rfl, hmemory ..⟩
  · exact absurd ⟨fun hpos => Rat.not_le.mp fun hle => herror ⟨hpos, hle⟩,
      fun hpos => Rat.not_le.mp fun hle => hwarning ⟨hpos, hle⟩⟩ h

theorem state_classify (h : (n.classify r).monitor.state = .running) : n.config.Below n.lastCpu := by
  unfold ResourceMonitor.classify at h
  dsimp only at h
  split_ifs at h with herror hwarning
  exact ⟨fun hpos => Rat.not_le.mp fun hle => herror ⟨hpos, hle⟩,
    fun hpos => Rat.not_le.mp fun hle => hwarning ⟨hpos, hle⟩⟩

theorem state_start_present (hpid : n.pid ≤ 0) :
    IMonitor.getState (IMonitor.start (resource n) present).2 =
      if n.processName = "" then n.state else .running := by
  change (n.start present).2.state = _
  unfold ResourceMonitor.start
  have hpid : ¬ 0 < n.pid := Int.not_lt.mpr hpid
  by_cases hname : n.processName = "" <;> simp [present, hname, hpid]

end

theorem toString_word_inj {a b : UInt64} (h : toString a = toString b) : a = b := by
  have h : toString a.toNat = toString b.toNat := h
  have hdigits : Nat.toDigits 10 a.toNat = Nat.toDigits 10 b.toNat := by
    simpa [Nat.toString_eq_ofList_toDigits] using congrArg String.toList h
  have hnat := congrArg (Nat.ofDigitChars 10 · 0) hdigits
  simp only [Nat.ofDigitChars_ten_toDigits] at hnat
  exact UInt64.toNat_inj.mp hnat

theorem exists_noticed {cfg : MonitorConfig} (h : ¬ cfg.NoThreshold) : ∃ cpu, 0 < cpu ∧ ¬ cfg.Below cpu := by
  by_cases herror : cfg.errorThreshold ≤ 0
  · have hwarning : 0 < cfg.warnThreshold := Rat.not_le.mp fun hle => h ⟨herror, hle⟩
    exact ⟨cfg.warnThreshold, hwarning, fun hbelow => absurd (hbelow.warning hwarning) (Rat.lt_irrefl)⟩
  · have herror : 0 < cfg.errorThreshold := Rat.not_le.mp herror
    exact ⟨cfg.errorThreshold, herror, fun hbelow => absurd (hbelow.error herror) (Rat.lt_irrefl)⟩

theorem first_report {used fresh : BuiltinMonitor}
    (h : ∀ first later, SameReports used fresh first later) (r s : Reading) :
    ((IMonitor.start used r).2.report s).1 = ((IMonitor.start fresh r).2.report s).1 := by
  have hreports := (h ⟨r, 0, 0⟩ [⟨s, 0, 0⟩]).reports
  rw [start_again] at hreports
  simp only [answers, report_again] at hreports
  exact (List.cons.inj hreports).1

section
variable {n : ResourceMonitor} {a b c : ℚ}

def probed (n : ResourceMonitor) (a b cpu : ℚ) : ResourceMonitor :=
  withLast { n with platform := true, pid := 1, state := .running } (if 0 < cpu then cpu else a) b 0

theorem report_probeAt (hname : n.processName ≠ "") (a b c cpu : ℚ) :
    ((IMonitor.start (resource (withLast n a b c)) present).2.report (probeAt cpu)).1 =
      (((probed n a b cpu).classify (probeAt cpu)).outcome.map PhmEvent.anonymous,
        ((probed n a b cpu).classify (probeAt cpu)).monitor.state) := by
  have hstart : (IMonitor.start (resource (withLast n a b c)) present).2 =
      resource (withLast { n with platform := true, pid := 1, state := .running } a b c) := by
    change resource ((withLast n a b c).start present).2 = _
    rw [start_present (n := withLast n a b c) hname]
    rfl
  have hcheck := check_probeAt
    (n := withLast { n with platform := true, pid := 1, state := .running } a b c) rfl rfl cpu
  rw [hstart, report, watch]
  simp only [IMonitor.check, hcheck]
  rfl

theorem samples_of_sameReports (hname : n.processName ≠ "")
    (h : ∀ first later,
      SameReports (resource (withLast n a b c)) (resource (withLast n 0 0 0)) first later) :
    n.config.Below a ∧ (word b = 0 ∨ n.config.NoThreshold) := by
  have hreport (cpu : ℚ) := first_report h present (probeAt cpu)
  simp only [report_probeAt hname, Prod.mk.injEq] at hreport
  refine ⟨?_, or_iff_not_imp_right.mpr fun hthreshold => ?_⟩
  · have hidle : (probed n 0 0 0).config.Below (probed n 0 0 0).lastCpu :=
      (verdict_eq_quiet_iff n.config 0).mp (verdict_zero n.config)
    obtain ⟨-, hstate⟩ := hreport 0
    rw [classify_of_below hidle] at hstate
    exact state_classify hstate
  · obtain ⟨cpu, hpos, hnoticed⟩ := exists_noticed hthreshold
    obtain ⟨houtcome, -⟩ := hreport cpu
    have hlast (a b : ℚ) : ¬ (probed n a b cpu).config.Below (probed n a b cpu).lastCpu := by
      have hcpu : (probed n a b cpu).lastCpu = cpu := if_pos hpos
      rwa [hcpu]
    obtain ⟨used, hused, husedBytes⟩ := memory_classify (hlast a b) (probeAt cpu)
    obtain ⟨new, hnew, hnewBytes⟩ := memory_classify (hlast 0 0) (probeAt cpu)
    rw [hused, hnew] at houtcome
    have hanonymous : used.anonymous = new.anonymous := Except.ok.inj houtcome
    have hmetadata := congrArg PhmEvent.metadata hanonymous
    change used.metadata = new.metadata at hmetadata
    rw [hmetadata, hnewBytes] at husedBytes
    exact (toString_word_inj husedBytes).symm

end

theorem named_of_sameReports {m : ResourceMonitor} {cfg : MonitorConfig}
    (h : ∀ first later, SameReports (reconfigure (resource m) cfg) (resource (fresh m cfg)) first later) :
    cfg.named ≠ none ∨ m.processName = "" := by
  by_contra hneg
  obtain ⟨hnone, hname⟩ := not_or.mp hneg
  have hnone : cfg.named = none := not_not.mp hnone
  have hstates := (h ⟨present, 0, 0⟩ []).state
  have hwaits : (-1 : Int) ≤ 0 := by decide
  have hused : IMonitor.getState (IMonitor.start (reconfigure (resource m) cfg) present).2 = .running := by
    have hold : cfg.named.getD m.processName ≠ "" := by rwa [hnone]
    rw [reconfigure_resource, state_start_present hwaits]
    exact if_neg hold
  have hunnamed : (fresh m cfg).processName = "" := by
    rw [fresh, ResourceMonitor.new, getD_named, hnone]
    rfl
  rw [start_again, hused, state_start_present hwaits, if_pos hunnamed] at hstates
  cases hstates

theorem resource_iff (m : ResourceMonitor) (cfg : MonitorConfig) :
    (∀ first later, SameReports (reconfigure (resource m) cfg) (resource (fresh m cfg)) first later) ↔
      ResourceReplaceable m cfg := by
  have hsame (hnamed : cfg.named ≠ none ∨ m.processName = "") : reconfigure (resource m) cfg =
      resource (withLast (fresh m cfg) m.lastCpu m.lastMemory m.lastFd) := by
    rw [reconfigure_resource, named_agrees hnamed, ← getD_named]
    rfl
  constructor
  · intro h
    have hnamed := named_of_sameReports h
    rw [hsame hnamed] at h
    refine ⟨hnamed, or_iff_not_imp_left.mpr fun hname => ?_⟩
    refine samples_of_sameReports (n := fresh m cfg) ?_ h
    rwa [fresh, ResourceMonitor.new, getD_named]
  · intro ⟨hnamed, hsamples⟩ first later
    refine sameReports_of_simulation (fun u f r hR => OtherSamples.report hR r) (fun u f hR => hR.state) ?_ later
    refine OtherSamples.start ?_ first.reading
    rw [hsame hnamed]
    rcases hsamples with hempty | ⟨hbelow, hmemory⟩
    · exact .idle _ _ _ _ ((getD_named cfg "").trans hempty) (show (-1 : Int) ≤ 0 by decide)
    · exact .sampled _ _ _ _ ⟨.inr ⟨hbelow, (verdict_eq_quiet_iff cfg 0).mp (verdict_zero cfg)⟩, hmemory⟩

def Replaceable (cfg : MonitorConfig) : BuiltinMonitor → Prop
  | processLifecycle m => cfg.named ≠ none ∨ m.processName = ""
  | resource m => ResourceReplaceable m cfg
  | _ => False

theorem sameReports_iff {watcher : ProcessWatcher} {name : String} {c1 : MonitorConfig}
    {channel : Option String} {mon : BuiltinMonitor}
    (hslate : slate mon = construct watcher.type name c1 channel) (c2 : MonitorConfig) :
    (∀ first later,
        SameReports (reconfigure mon c2) (construct watcher.type name c2 channel) first later) ↔
      Replaceable c2 mon := by
  cases watcher with
  | processLifecycle =>
    cases mon with
    | processLifecycle m =>
      obtain rfl : m.name = name := congrArg IMonitor.name hslate
      exact processLifecycle_iff m c2
    | _ => cases hslate
  | resource =>
    cases mon with
    | resource m =>
      have hnew := resource.inj hslate
      obtain rfl : m.name = name := congrArg ResourceMonitor.name hnew
      obtain rfl : m.healthChannel = channel := congrArg ResourceMonitor.healthChannel hnew
      exact resource_iff m c2
    | _ => cases hslate

theorem mon_run (t : Traced) (history : List PriorCall) :
    (Runs.run Traced.call t history).mon = Runs.run call t.mon history := by
  induction history generalizing t with
  | nil => rfl
  | cons c history ih => exact ih (t.call c)

theorem follows_construct (watcher : ProcessWatcher) (name : String) (c1 : MonitorConfig)
    (channel : Option String) :
    Follows (c1.named.getD "") { mon := construct watcher.type name c1 channel } := by
  have hwaits : ¬ (0 : Int) < -1 := by decide
  cases watcher with
  | processLifecycle => exact ⟨getD_named c1 "", fun hpid => absurd hpid hwaits⟩
  | resource => exact ⟨getD_named c1 "", fun hpid => absurd hpid hwaits⟩

theorem settled_construct (watcher : ProcessWatcher) (name : String) (c1 : MonitorConfig)
    (channel : Option String) : Settled (construct watcher.type name c1 channel) := by
  cases watcher with
  | processLifecycle => exact .inl rfl
  | resource => exact fun _ => show (-1 : Int) ≤ 0 by decide

theorem reconfigured_as_constructed_iff (watcher : ProcessWatcher) (name : String) (c1 c2 : MonitorConfig)
    (channel : Option String) (history : List PriorCall) :
    let t := Runs.run Traced.call { mon := construct watcher.type name c1 channel } history
    (∀ first later, SameReports (reconfigure t.mon c2) (construct watcher.type name c2 channel) first later) ∧
        OnlyNamed t c2 ↔
      Replaceable c2 t.mon ∧ FollowsNamed c2 t.mon := by
  intro t
  have hslate : slate t.mon = construct watcher.type name c1 channel := by
    rw [mon_run, slate_run, slate_construct]
  have hfollows : Follows (c1.named.getD "") t :=
    Runs.run_invariant (fun t c ht => ht.call c) (follows_construct watcher name c1 channel) history
  have hsettled : Settled t.mon :=
    Runs.run_invariant (P := fun t => Settled (Traced.mon t)) (fun t c ht => ht.call c)
      (settled_construct watcher name c1 channel) history
  exact and_congr (sameReports_iff hslate c2)
    ⟨followsNamed_of_onlyNamed hfollows hsettled, onlyNamed_of_followsNamed hfollows hsettled⟩

theorem configure_keeps_process :
    let c1 : MonitorConfig := { params := StringMap.empty.insert "process_name" "worker" }
    let renamed : MonitorConfig := { params := StringMap.empty.insert "process_name" "other" }
    let there : Reading := { getProcessId := fun _ => 7, processExists := fun _ => true }
    let t := Runs.run Traced.call { mon := construct .processLifecycle "lifecycle" c1 none } [.start there]
    (returned (IMonitor.check (t.configure renamed).mon deserted)).map PhmEvent.message =
        some "Process 'other' (pid=7) has exited" ∧
      (t.configure renamed).subject = "worker" ∧ ¬ OnlyNamed t renamed ∧
      ¬ SameReports (reconfigure t.mon {}) (construct .processLifecycle "lifecycle" {} none) ⟨there, 0, 0⟩ [] := by
  intro c1 renamed there t
  have hsubject : (t.configure renamed).subject = "worker" := by decide +kernel
  have hreport : returned (IMonitor.check (t.configure renamed).mon deserted) ≠ none := by decide +kernel
  refine ⟨by decide +kernel, hsubject, fun h => ?_, fun h => ?_⟩
  · have hnamed : renamed.named = some (t.configure renamed).subject := named_of_report h [] deserted hreport
    rw [hsubject] at hnamed
    exact absurd hnamed (by decide +kernel)
  · have hstate := h.state
    rw [start_again] at hstate
    exact absurd hstate (by decide +kernel)

end BuiltinMonitor

end PlatformHealth
