import PlatformHealth.Channel.Reports
import PlatformHealth.Library.Binary64Chain
import PlatformHealth.Library.RateMeter
import PlatformHealth.Platform.OpenFiles

namespace PlatformHealth

open ByteString RateMeter
open Binary64 (toDouble rounded_percent)

structure Timeval where
  tvSec : Int64
  tvUsec : Int64

structure Rusage where
  ruUtime : Timeval
  ruStime : Timeval
  ruMaxrss : Int64

structure ProcessResourceReporter where
  lastCpuTimeUs : UInt64 := 0
  lastSysTimeUs : UInt64 := 0
  firstCpuSample : Bool := true

-- one round of collectAndReport(): the two calls of getrusage(), none where they fail, the clock in
-- microseconds, and the file system
structure SelfReading where
  cpuUsage : Option Rusage
  now : Int64
  memoryUsage : Option Rusage
  files : ProcFs

def Rusage.cpuTimeUs (usage : Rusage) : UInt64 :=
  usage.ruUtime.tvSec.toUInt64 * 1000000 + usage.ruUtime.tvUsec.toUInt64 +
    usage.ruStime.tvSec.toUInt64 * 1000000 + usage.ruStime.tvUsec.toUInt64

namespace ProcessResourceReporter

def readSelfCpuUsage (p : ProcessResourceReporter) (r : SelfReading) : ℚ × ProcessResourceReporter :=
  match r.cpuUsage with
  | none => (0, p)
  | some usage =>
    let cpuTimeUs := usage.cpuTimeUs
    let now := r.now.toUInt64
    let next := { p with lastCpuTimeUs := cpuTimeUs, lastSysTimeUs := now, firstCpuSample := false }
    if p.firstCpuSample then (0, next)
    else
      let cpuDelta := cpuTimeUs - p.lastCpuTimeUs
      let timeDelta := now - p.lastSysTimeUs
      if timeDelta = 0 then (0, next)
      else (toDouble (toDouble (toDouble cpuDelta.toNat / toDouble timeDelta.toNat) * 100), next)

def readSelfMemoryBytes (r : SelfReading) : UInt64 :=
  match r.memoryUsage with
  | none => 0
  | some usage => usage.ruMaxrss.toUInt64 * 1024

def metricsOf (cpu : ℚ) (mem : UInt64) (fd : UInt32) : Metrics :=
  (((∅ : Metrics).insert (utf8 "cpu") cpu).insert (utf8 "memory_bytes") (toDouble mem.toNat)).insert
    (utf8 "fd_count") (fd.toNat : ℚ)

def collectAndReport (p : ProcessResourceReporter) (r : SelfReading) (d : HealthChannelData) :
    ProcessResourceReporter × HealthChannelData :=
  let (cpu, p) := p.readSelfCpuUsage r
  let mem := readSelfMemoryBytes r
  let fd := readSelfOpenFdCount r.files
  (p, HealthChannel.reportMetrics d (metricsOf cpu mem fd))

section
variable {p : ProcessResourceReporter} {r : SelfReading} {cpu : ℚ} {mem : UInt64} {fd : UInt32}

theorem mem_metricsOf {key : Bytes} (h : key ∈ metricsOf cpu mem fd) :
    key ∈ [utf8 "cpu", utf8 "memory_bytes", utf8 "fd_count"] := by
  simp only [metricsOf, Std.ExtTreeMap.mem_insert, Std.LawfulEqCmp.compare_eq_iff_eq] at h
  rcases h with rfl | rfl | rfl | h
  · simp
  · simp
  · simp
  · simp at h

theorem representable_metricsOf (cpu : ℚ) (mem : UInt64) (fd : UInt32) :
    HealthChannel.Representable (metricsOf cpu mem fd) := by
  have hspellable : ∀ key ∈ [utf8 "cpu", utf8 "memory_bytes", utf8 "fd_count"],
      key ≠ [] ∧ 0 ∉ key ∧ key.length ≤ 23 := by decide
  constructor
  · have hcpu := Std.ExtTreeMap.size_insert_le (t := (∅ : Metrics)) (k := utf8 "cpu") (v := cpu)
    have hmem := Std.ExtTreeMap.size_insert_le (t := (∅ : Metrics).insert (utf8 "cpu") cpu)
      (k := utf8 "memory_bytes") (v := toDouble mem.toNat)
    have hfd := Std.ExtTreeMap.size_insert_le
      (t := ((∅ : Metrics).insert (utf8 "cpu") cpu).insert (utf8 "memory_bytes") (toDouble mem.toNat))
      (k := utf8 "fd_count") (v := (fd.toNat : ℚ))
    rw [Std.ExtTreeMap.size_empty] at hcpu
    unfold metricsOf
    omega
  · intro key hkey
    obtain ⟨hne, hzero, hlength⟩ := hspellable key (mem_metricsOf hkey)
    exact ⟨hne, hzero, hlength⟩

theorem getD_cpu : (metricsOf cpu mem fd).getD (utf8 "cpu") 0 = cpu := by
  have hfd : compare (utf8 "fd_count") (utf8 "cpu") ≠ .eq := by decide
  have hmem : compare (utf8 "memory_bytes") (utf8 "cpu") ≠ .eq := by decide
  simp [metricsOf, Std.ExtTreeMap.getD_insert, hfd, hmem]

end

end ProcessResourceReporter

inductive SupplierStep where
  | report (counter now : UInt64)
  | collectAndReport (r : SelfReading)

structure Supplier where
  reporter : ProcessResourceReporter := {}
  data : HealthChannelData := {}

structure SelfSample where
  cpuTimeUs : UInt64
  sysTimeUs : UInt64

namespace SupplierStep

def sample? : SupplierStep → Option SelfSample
  | report _ _ => none
  | collectAndReport r => r.cpuUsage.map fun usage => ⟨usage.cpuTimeUs, r.now.toUInt64⟩

end SupplierStep

namespace Supplier

open ProcessResourceReporter

def step (s : Supplier) : SupplierStep → Supplier
  | .report counter now => { s with data := HealthChannel.report s.data counter now }
  | .collectAndReport r =>
    let (reporter, data) := s.reporter.collectAndReport r s.data
    { reporter, data }

def shownCpu (s : Supplier) : ℚ := (HealthChannel.getMetrics s.data).getD (utf8 "cpu") 0

def baseline? (s : Supplier) : Option Sample :=
  if s.reporter.firstCpuSample then none
  else some (.ofCounters s.reporter.lastCpuTimeUs s.reporter.lastSysTimeUs)

def meter : Meter Supplier SupplierStep where
  step := step
  value s a := (s.step a).shownCpu
  baseline := baseline?

def sampleOf (p : SelfSample) : Sample := .ofCounters p.cpuTimeUs p.sysTimeUs

-- neither time falls, and no CPU time passes while the clock stands
structure Later (q p : SelfSample) : Prop where
  cpuTimeUs : q.cpuTimeUs ≤ p.cpuTimeUs
  sysTimeUs : q.sysTimeUs ≤ p.sysTimeUs
  standing : p.sysTimeUs = q.sysTimeUs → p.cpuTimeUs = q.cpuTimeUs

instance (q p : SelfSample) : Decidable (Later q p) :=
  decidable_of_iff (q.cpuTimeUs ≤ p.cpuTimeUs ∧ q.sysTimeUs ≤ p.sysTimeUs ∧
      (p.sysTimeUs = q.sysTimeUs → p.cpuTimeUs = q.cpuTimeUs))
    ⟨fun h => ⟨h.1, h.2.1, h.2.2⟩, fun h => ⟨h.cpuTimeUs, h.sysTimeUs, h.standing⟩⟩

def Based (s : Supplier) (earlier : List SelfSample) : Prop :=
  s.reporter.firstCpuSample = true ∧ earlier = [] ∨
    ∃ q ∈ earlier, s.reporter.firstCpuSample = false ∧ s.reporter.lastCpuTimeUs = q.cpuTimeUs ∧
      s.reporter.lastSysTimeUs = q.sysTimeUs

section
variable {s : Supplier} {r : SelfReading} {a : SupplierStep} {usage : Rusage} {p q : SelfSample}
  {earlier : List SelfSample} {p' : ProcessResourceReporter}

def percent (cpuDelta timeDelta : UInt64) : ℚ :=
  toDouble (toDouble (toDouble cpuDelta.toNat / toDouble timeDelta.toNat) * 100)

theorem percent_near (cpuDelta : UInt64) {timeDelta : UInt64} (hne : timeDelta ≠ 0) :
    |percent cpuDelta timeDelta - cpuDelta.toNat / timeDelta.toNat * 100| ≤
      1 / 2 ^ 49 * (cpuDelta.toNat / timeDelta.toNat * 100) := by
  have hclock : timeDelta.toNat ≠ 0 := fun h => hne (UInt64.toNat_inj.mp h)
  rw [one_div_mul_eq_div]
  exact (rounded_percent cpuDelta.toNat_lt.le timeDelta.toNat_lt.le hclock (by decide)).abs_sub_le (by decide)

theorem shownCpu_collect (s : Supplier) (r : SelfReading) :
    (s.step (.collectAndReport r)).shownCpu = (s.reporter.readSelfCpuUsage r).1 := by
  rw [shownCpu]
  simp only [step, collectAndReport]
  rw [(HealthChannel.getMetrics_reportMetrics_iff _ _).mpr (representable_metricsOf _ _ _), getD_cpu]

theorem reporter_collect (s : Supplier) (r : SelfReading) :
    (s.step (.collectAndReport r)).reporter = (s.reporter.readSelfCpuUsage r).2 := rfl

theorem readSelfCpuUsage_of_usage (hr : r.cpuUsage = some usage) :
    p'.readSelfCpuUsage r =
      (if p'.firstCpuSample = true ∨ r.now.toUInt64 = p'.lastSysTimeUs then 0
        else percent (usage.cpuTimeUs - p'.lastCpuTimeUs) (r.now.toUInt64 - p'.lastSysTimeUs),
        ⟨usage.cpuTimeUs, r.now.toUInt64, false⟩) := by
  have hzero : r.now.toUInt64 - p'.lastSysTimeUs = 0 ↔ r.now.toUInt64 = p'.lastSysTimeUs := by grind
  simp only [readSelfCpuUsage, hr, hzero]
  split_ifs <;> simp_all [percent]

theorem readSelfCpuUsage_of_none (hr : r.cpuUsage = none) : p'.readSelfCpuUsage r = (0, p') := by
  rw [readSelfCpuUsage, hr]

theorem baseline_of_reporter {t : Supplier} (h : t.reporter = s.reporter) : t.baseline? = s.baseline? := by
  rw [baseline?, baseline?, h]

theorem Based.of_reporter {t : Supplier} (hbased : Based s earlier) (h : t.reporter = s.reporter) :
    Based t earlier := by
  unfold Based at hbased ⊢
  rwa [h]

theorem readsOf_step (h : Based s earlier) (hlater : ∀ p ∈ a.sample?, True ∧ ∀ q ∈ earlier, Later q p) :
    meter.ReadsOf 100 (1 / 2 ^ 49) s a ∧ Based (meter.step s a) (earlier ++ a.sample?.toList) := by
  unfold Meter.ReadsOf
  simp only [meter]
  cases a with
  | report counter now =>
    have hreporter : (s.step (.report counter now)).reporter = s.reporter := rfl
    rw [baseline_of_reporter hreporter, SupplierStep.sample?, Option.toList_none, List.append_nil]
    exact ⟨.kept _ _, h.of_reporter hreporter⟩
  | collectAndReport r =>
    have hreporter := reporter_collect s r
    rw [shownCpu_collect]
    cases hr : r.cpuUsage with
    | none =>
      rw [readSelfCpuUsage_of_none hr] at hreporter ⊢
      rw [baseline_of_reporter hreporter, SupplierStep.sample?, hr, Option.map_none, Option.toList_none,
        List.append_nil]
      exact ⟨.kept _ _, h.of_reporter hreporter⟩
    | some usage =>
      rw [readSelfCpuUsage_of_usage hr] at hreporter ⊢
      have hnext : (s.step (.collectAndReport r)).baseline? =
          some (sampleOf ⟨usage.cpuTimeUs, r.now.toUInt64⟩) := by
        rw [baseline?, hreporter]
        rfl
      have hsample : (SupplierStep.collectAndReport r).sample? = some ⟨usage.cpuTimeUs, r.now.toUInt64⟩ := by
        rw [SupplierStep.sample?, hr, Option.map_some]
      rw [hsample] at hlater ⊢
      refine ⟨?_, .inr ⟨⟨usage.cpuTimeUs, r.now.toUInt64⟩, by simp, by rw [hreporter], by rw [hreporter],
        by rw [hreporter]⟩⟩
      rw [hnext]
      rcases h with ⟨hfirst, rfl⟩ | ⟨q, hq, hfirst, hcpu, hsys⟩
      · rw [baseline?, if_pos hfirst]
        exact .first _ _
      · have hbase : s.baseline? = some (sampleOf q) := by rw [baseline?, hfirst, hcpu, hsys]; rfl
        obtain ⟨-, hlater⟩ := hlater _ rfl
        rw [hbase, hfirst, hcpu, hsys]
        by_cases hsame : r.now.toUInt64 = q.sysTimeUs
        · rw [if_pos (.inr hsame)]
          exact reads_of_standstill hsame ((hlater q hq).standing hsame) 100 _
        · rw [if_neg (by simp [hsame])]
          have hdelta : r.now.toUInt64 - q.sysTimeUs ≠ 0 := by grind
          exact reads_of_advance (hlater q hq).cpuTimeUs (hlater q hq).sysTimeUs hsame (percent_near _ hdelta)

def sampling : Sampling meter 100 (1 / 2 ^ 49) SelfSample where
  sample? := SupplierStep.sample?
  sampleOf := sampleOf
  Valid _ := True
  Later := Later
  Based := Based
  readsOf := readsOf_step
  baseline_of_empty h := by
    obtain ⟨hfirst, -⟩ | ⟨q, hq, -⟩ := h
    · exact if_pos hfirst
    · cases hq
  baseline_of_first {s p} h := by
    obtain ⟨-, hnil⟩ | ⟨q, hq, hfirst, hcpu, hsys⟩ := h
    · cases hnil
    · obtain rfl := List.mem_singleton.mp hq
      change s.baseline? = _
      rw [baseline?, hfirst, hcpu, hsys]
      rfl

theorem shown_adds_up (d : HealthChannelData) (steps : List SupplierStep)
    (hlater : (steps.filterMap SupplierStep.sample?).Pairwise Later) {first : SelfSample}
    (hfirst : (steps.filterMap SupplierStep.sample?).head? = some first) :
    let last := (Runs.run step { data := d } steps).reporter
    let due : ℚ := 100 * (last.lastCpuTimeUs.toNat - first.cpuTimeUs.toNat)
    |meter.weighted { data := d } steps - due| ≤ due / 2 ^ 49 := by
  intro final due
  obtain ⟨last, hlast, hnear⟩ := sampling.weighted_near (s := { data := d }) (.inl ⟨rfl, rfl⟩) hlater
    (fun _ _ => trivial) hfirst
  have hbase : (Runs.run step { data := d } steps).baseline? = some last := hlast
  unfold baseline? at hbase
  split_ifs at hbase
  rw [← Option.some.inj hbase, one_div_mul_eq_div] at hnear
  exact hnear

end

def busyFor (cpuUs now : Int64) : SupplierStep :=
  .collectAndReport
    { cpuUsage := some ⟨⟨0, cpuUs⟩, ⟨0, 0⟩, 2048⟩
      now
      memoryUsage := some ⟨⟨0, cpuUs⟩, ⟨0, 0⟩, 2048⟩
      files := ⟨fun _ => none, fun _ => none⟩ }

def rounds : List SupplierStep :=
  [.report 1 10, busyFor 5000 1000000, .report 2 1010, busyFor 255000 2000000, busyFor 955000 3000000, .report 3 3010]

theorem rounds_add_up :
    let last := (Runs.run step {} rounds).reporter
    let first : SelfSample := ⟨5000, 1000000⟩
    let due : ℚ := 100 * (last.lastCpuTimeUs.toNat - first.cpuTimeUs.toNat)
    |meter.weighted {} rounds - due| ≤ due / 2 ^ 49 ∧ last.lastCpuTimeUs = 955000 := by
  have hlater : (rounds.filterMap SupplierStep.sample?).Pairwise Later := by decide
  have hfirst : (rounds.filterMap SupplierStep.sample?).head? = some ⟨5000, 1000000⟩ := rfl
  exact ⟨shown_adds_up {} rounds hlater hfirst, rfl⟩

end Supplier

end PlatformHealth
