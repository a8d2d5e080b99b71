import PlatformHealth.Library.SampleHold
import PlatformHealth.Monitors.Resource

namespace PlatformHealth

inductive Verdict where
  | error
  | warning
  | quiet
deriving DecidableEq, Repr

def MonitorConfig.verdict (cfg : MonitorConfig) (cpu : ℚ) : Verdict :=
  if 0 < cfg.errorThreshold ∧ cfg.errorThreshold ≤ cpu then .error
  else if 0 < cfg.warnThreshold ∧ cfg.warnThreshold ≤ cpu then .warning
  else .quiet

structure MonitorConfig.Below (cfg : MonitorConfig) (cpu : ℚ) : Prop where
  error : 0 < cfg.errorThreshold → cpu < cfg.errorThreshold
  warning : 0 < cfg.warnThreshold → cpu < cfg.warnThreshold

theorem verdict_eq_quiet_iff (cfg : MonitorConfig) (cpu : ℚ) :
    cfg.verdict cpu = .quiet ↔ cfg.Below cpu := by
  unfold MonitorConfig.verdict
  constructor
  · intro h
    split_ifs at h with herror hwarning
    exact ⟨fun hpos => Rat.not_le.mp fun hle => herror ⟨hpos, hle⟩,
      fun hpos => Rat.not_le.mp fun hle => hwarning ⟨hpos, hle⟩⟩
  · intro h
    rw [if_neg fun he => Rat.not_le.mpr (h.error he.1) he.2,
      if_neg fun hw => Rat.not_le.mpr (h.warning hw.1) hw.2]

theorem verdict_zero (cfg : MonitorConfig) : cfg.verdict 0 = .quiet :=
  (verdict_eq_quiet_iff cfg 0).mpr ⟨id, id⟩

namespace ResourceMonitor

def Returned (res : CheckResult ResourceMonitor) : Verdict → Prop
  | .error => ∃ evt, res.outcome = .ok evt ∧ evt.id ≠ "" ∧ evt.severity = .error
  | .warning => ∃ evt, res.outcome = .ok evt ∧ evt.id ≠ "" ∧ evt.severity = .warning
  | .quiet => res.outcome = .ok {} ∧ res.monitor.state = .running

def afterCheck (m : ResourceMonitor) (r : Reading) : ResourceMonitor := (m.check r).monitor

structure Sampling (m : ResourceMonitor) : Prop where
  platform : m.platform = true
  pid : 0 < m.pid
  channel : m.healthChannel = none

structure Sampled (pid : Int) (r : Reading) : Prop where
  running : r.processExists pid = true
  nonneg : 0 ≤ r.getCpuUsage pid

section
variable {m : ResourceMonitor} {r : Reading} {v : Verdict}

theorem check_of_sampled (hm : m.Sampling) (hr : Sampled m.pid r) :
    m.check r = (m.sample r).classify r := by
  have hpid : ¬ m.pid ≤ 0 := Int.not_le.mpr hm.pid
  simp [check, hm.platform, hr.running, hpid]

theorem lastCpu_sample (hm : m.Sampling) :
    (m.sample r).lastCpu = SampleHold.hold (0 < ·) m.lastCpu (r.getCpuUsage m.pid) := by
  simp only [sample, getMetricWithFallback, hm.channel, Option.bind_none, SampleHold.hold]
  split <;> split <;> simp_all

theorem returned_classify (m : ResourceMonitor) (r : Reading) :
    Returned (m.classify r) (m.config.verdict m.lastCpu) := by
  have hid : generateId "phm_mon_res_" r ≠ "" := generateId_ne_empty (by decide) r
  by_cases herror : 0 < m.config.errorThreshold ∧ m.config.errorThreshold ≤ m.lastCpu
  · rw [classify, MonitorConfig.verdict, if_pos herror, if_pos herror]
    exact ⟨m.thresholdEvent .error .error "error" _ _ _ r, rfl, hid, rfl⟩
  · rw [classify, MonitorConfig.verdict, if_neg herror, if_neg herror]
    by_cases hwarning : 0 < m.config.warnThreshold ∧ m.config.warnThreshold ≤ m.lastCpu
    · rw [if_pos hwarning, if_pos hwarning]
      exact ⟨m.thresholdEvent .warning .warn "warn" _ _ _ r, rfl, hid, rfl⟩
    · rw [if_neg hwarning, if_neg hwarning]
      exact ⟨rfl, rfl⟩

theorem Returned.unique {res : CheckResult ResourceMonitor} {w : Verdict} (hv : Returned res v)
    (hw : Returned res w) : v = w := by
  cases v <;> cases w <;> first | rfl | (simp only [Returned] at hv hw; grind)

theorem returned_check_iff (hm : m.Sampling) (hr : Sampled m.pid r) :
    Returned (m.check r) v ↔
      m.config.verdict (SampleHold.hold (0 < ·) m.lastCpu (r.getCpuUsage m.pid)) = v := by
  have h := returned_classify (m.sample r) r
  rw [lastCpu_sample hm, ← check_of_sampled hm hr] at h
  constructor
  · intro hv
    exact h.unique hv
  · rintro rfl
    exact h

theorem monitor_classify (m : ResourceMonitor) (r : Reading) :
    ∃ state, (m.classify r).monitor = { m with state } := by
  rw [classify]
  split
  · exact ⟨.error, rfl⟩
  · split
    · exact ⟨.warn, rfl⟩
    · exact ⟨.running, rfl⟩

structure Kept (m n : ResourceMonitor) : Prop where
  sampling : n.Sampling
  pid : n.pid = m.pid
  config : n.config = m.config

theorem Kept.afterCheck {n : ResourceMonitor} (hn : Kept m n) (hr : Sampled m.pid r) :
    Kept m (n.afterCheck r) ∧
      (n.afterCheck r).lastCpu = SampleHold.hold (0 < ·) n.lastCpu (r.getCpuUsage m.pid) := by
  obtain ⟨state, hstate⟩ := monitor_classify (n.sample r) r
  have hlast := lastCpu_sample (r := r) hn.sampling
  rw [hn.pid] at hlast
  rw [ResourceMonitor.afterCheck, check_of_sampled hn.sampling (hn.pid ▸ hr), hstate]
  exact ⟨⟨⟨hn.sampling.platform, hn.sampling.pid, hn.sampling.channel⟩, hn.pid, hn.config⟩, hlast⟩

end

theorem classified_by_sample_iff (m : ResourceMonitor) (hm : m.Sampling) (rs : List Reading)
    (hrs : ∀ r ∈ rs, Sampled m.pid r) :
    Runs.Each afterCheck
        (fun n r => Returned (n.check r) (m.config.verdict (r.getCpuUsage m.pid))) m rs ↔
      ∀ pre c post, rs.map (·.getCpuUsage m.pid) = pre ++ c :: post → c = 0 →
        m.config.Below (SampleHold.held (0 < ·) m.lastCpu pre) := by
  have hview := Runs.each_iff_of_view (I := Kept m) (R := Sampled m.pid)
    (Q := fun n r => Returned (n.check r) (m.config.verdict (r.getCpuUsage m.pid)))
    (P := fun last c => m.config.verdict (SampleHold.hold (0 < ·) last c) = m.config.verdict c)
    lastCpu (·.getCpuUsage m.pid) (fun n r hn hr => (hn.afterCheck hr).1)
    (fun n r hn hr => (hn.afterCheck hr).2)
    (fun n r hn hr => by rw [returned_check_iff hn.sampling (hn.pid ▸ hr), hn.pid, hn.config])
    ⟨hm, rfl, rfl⟩ hrs
  rw [hview, SampleHold.each_hold_iff]
  refine forall₄_congr fun pre c post heq => ?_
  have hmem : c ∈ rs.map (·.getCpuUsage m.pid) := by rw [heq]; simp
  obtain ⟨r, hr, hc⟩ := List.mem_map.mp hmem
  have hnonneg : 0 ≤ c := hc ▸ (hrs r hr).nonneg
  have hzero : ¬ 0 < c ↔ c = 0 := by
    rw [Rat.not_lt]
    exact ⟨fun h => Rat.le_antisymm h hnonneg, fun h => h ▸ Rat.le_refl⟩
  rw [hzero]
  refine forall_congr' fun h => ?_
  rw [h, verdict_zero, verdict_eq_quiet_iff]

def usage (cpu : ℚ) : Reading where
  getProcessId _ := 7
  processExists _ := true
  getCpuUsage _ := cpu

def watched : ResourceMonitor where
  name := "cpu"
  config := { warnThreshold := 50, errorThreshold := 90 }
  processName := "worker"

theorem rising_usage_classified :
    Runs.Each afterCheck
        (fun n r => Returned (n.check r) (watched.config.verdict (r.getCpuUsage 7)))
        (watched.start (usage 0)).2 [usage 0, usage 60, usage 95] := by
  refine (classified_by_sample_iff (watched.start (usage 0)).2 ⟨rfl, by decide, rfl⟩ _ ?_).mpr ?_
  · simp only [List.forall_mem_cons, List.not_mem_nil, false_imp_iff, implies_true, and_true]
    exact ⟨⟨rfl, by decide⟩, ⟨rfl, by decide⟩, ⟨rfl, by decide⟩⟩
  · intro pre c post heq hzero
    have hsplit : [0, 60, 95] = pre ++ c :: post := heq
    obtain rfl : pre = [] := by
      match pre with
      | [] => rfl
      | [x] => grind
      | [x, y] => grind
      | x :: y :: z :: pre => simp at hsplit
    exact (verdict_eq_quiet_iff _ _).mp (verdict_zero _)

theorem idle_sample_reported_as_error :
    ¬ Runs.Each afterCheck
      (fun n r => Returned (n.check r) (watched.config.verdict (r.getCpuUsage 7)))
      (watched.start (usage 0)).2 [usage 95, usage 0] := by
  rintro ⟨-, hidle, -⟩
  have hquiet : watched.config.verdict ((usage 0).getCpuUsage 7) = .quiet := verdict_zero _
  have herror : Returned (((watched.start (usage 0)).2.afterCheck (usage 95)).check (usage 0)) .error :=
    ⟨_, rfl, generateId_ne_empty (by decide) (usage 0), rfl⟩
  rw [hquiet] at hidle
  cases hidle.unique herror

end ResourceMonitor

end PlatformHealth
