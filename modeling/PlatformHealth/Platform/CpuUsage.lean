import PlatformHealth.Library.Runs
import PlatformHealth.Platform
import Mathlib.Tactic.Linarith
import Mathlib.Tactic.Positivity
import Mathlib.Tactic.Ring

namespace PlatformHealth

structure ProcStat where
  utime : UInt64
  stime : UInt64

structure SystemStat where
  user : UInt64
  nice : UInt64
  system : UInt64
  idle : UInt64
  iowait : UInt64
  irq : UInt64
  softirq : UInt64
  steal : UInt64

def SystemStat.totalJiffies (s : SystemStat) : UInt64 :=
  s.user + s.nice + s.system + s.idle + s.iowait + s.irq + s.softirq + s.steal

-- what one call reads: the clock on entry, the two stat files and the clock again
structure CpuRead where
  pid : Int
  entered : Int
  procStat : Option ProcStat
  systemStat : Option SystemStat
  now : Int

-- the function-local statics, lastRead none until the first call initialises it
structure CpuStatics where
  lastRead : Option Int := none
  lastTotalJiffies : UInt64 := 0
  lastProcJiffies : UInt64 := 0

structure CpuSample where
  pid : Int
  jiffies : UInt64
  total : UInt64
  now : Int

def CpuRead.sample? (r : CpuRead) : Option CpuSample :=
  match r.procStat, r.systemStat with
  | some p, some s => some ⟨r.pid, p.utime + p.stime, s.totalJiffies, r.now⟩
  | _, _ => none

def CpuStatics.baseline (p : CpuSample) : CpuStatics where
  lastRead := some p.now
  lastTotalJiffies := p.total
  lastProcJiffies := p.jiffies

-- double is what an operation makes of its exact value
def getCpuUsage (double : ℚ → ℚ) (ncpu : Nat) (statics : CpuStatics) (r : CpuRead) : ℚ × CpuStatics :=
  let lastRead := statics.lastRead.getD r.entered
  let statics := { statics with lastRead := some lastRead }
  match r.sample? with
  | none => (0, statics)
  | some p =>
    if statics.lastTotalJiffies = 0 then (0, .baseline p)
    else if (p.now - lastRead).tdiv nsPerMs ≤ 0 then (0, statics)
    else
      let procDelta := p.jiffies - statics.lastProcJiffies
      let sysDelta := p.total - statics.lastTotalJiffies
      if sysDelta = 0 then (0, .baseline p)
      else
        let cpuPercent := double (double (double procDelta.toNat / double sysDelta.toNat) * 100)
        (double (cpuPercent * double ncpu), .baseline p)

-- the percentages as exact numbers, without the rounding of doubles; samples are the completed readings,
-- the newest first
structure CpuMeter where
  statics : CpuStatics := {}
  samples : List CpuSample := []

namespace CpuMeter

variable (ncpu : Nat)

def step (s : CpuMeter) (r : CpuRead) : CpuMeter where
  statics := (getCpuUsage id ncpu s.statics r).2
  samples := r.sample?.toList ++ s.samples

def rate (p q : CpuSample) : ℚ :=
  100 * ncpu * (p.jiffies.toNat - q.jiffies.toNat) / (p.total.toNat - q.total.toNat)

def usage (samples : List CpuSample) (p : CpuSample) : ℚ :=
  match samples.find? (·.pid = p.pid) with
  | none => 0
  | some q => rate ncpu p q

structure PerProcess (s : CpuMeter) (r : CpuRead) : Prop where
  value : ∀ p ∈ r.sample?, (getCpuUsage id ncpu s.statics r).1 = usage ncpu s.samples p
  bounded : 0 ≤ (getCpuUsage id ncpu s.statics r).1 ∧ (getCpuUsage id ncpu s.statics r).1 ≤ 100 * ncpu

-- what the kernel's counters and the clock do between samples
def Regular (s : CpuMeter) (r : CpuRead) : Prop :=
  ∀ p ∈ r.sample?, ∀ q ∈ s.samples, q.now < p.now ∧ q.total < p.total ∧
    (q.pid = p.pid → q.jiffies ≤ p.jiffies ∧ p.jiffies - q.jiffies ≤ p.total - q.total)

instance (s : CpuMeter) (r : CpuRead) : Decidable (s.Regular r) :=
  inferInstanceAs (Decidable (∀ p ∈ r.sample?, ∀ q ∈ s.samples, _ ∧ _ ∧ (_ → _ ∧ _)))

-- the latest sample of any process is the process's own, at least a millisecond old
def Alone (s : CpuMeter) (r : CpuRead) : Prop :=
  ∀ p ∈ r.sample?, ∀ q ∈ s.samples.head?, q.pid = p.pid ∧ q.total ≠ 0 ∧ q.now + nsPerMs ≤ p.now

instance (s : CpuMeter) (r : CpuRead) : Decidable (s.Alone r) :=
  inferInstanceAs (Decidable (∀ p ∈ r.sample?, ∀ q ∈ s.samples.head?, _ ∧ _ ∧ _))

def Latest (s : CpuMeter) : Prop :=
  match s.samples with
  | [] => s.statics.lastTotalJiffies = 0
  | q :: _ => s.statics = .baseline q

section
variable {ncpu} {s : CpuMeter} {r : CpuRead} {p q : CpuSample}

theorem getCpuUsage_of_first (ncpu : Nat) (hp : r.sample? = some p) (hfirst : s.statics.lastTotalJiffies = 0) :
    getCpuUsage id ncpu s.statics r = (0, .baseline p) := by
  simp [getCpuUsage, hp, hfirst]

theorem tdiv_pos_of_old (hold : q.now + nsPerMs ≤ p.now) : ¬ (p.now - q.now).tdiv nsPerMs ≤ 0 := by
  unfold nsPerMs at *
  rw [Int.tdiv_eq_ediv_of_nonneg (by omega)]
  omega

theorem getCpuUsage_of_baseline (ncpu : Nat) (hp : r.sample? = some p) (hstatics : s.statics = .baseline q)
    (htotal : q.total ≠ 0) (hlt : q.total < p.total) (hle : q.jiffies ≤ p.jiffies)
    (hold : q.now + nsPerMs ≤ p.now) :
    getCpuUsage id ncpu s.statics r = (rate ncpu p q, .baseline p) := by
  have helapsed := tdiv_pos_of_old hold
  have hsys : (p.total - q.total).toNat = p.total.toNat - q.total.toNat :=
    UInt64.toNat_sub_of_le _ _ (UInt64.le_of_lt hlt)
  have hproc : (p.jiffies - q.jiffies).toNat = p.jiffies.toNat - q.jiffies.toNat :=
    UInt64.toNat_sub_of_le _ _ hle
  have hnat := UInt64.lt_iff_toNat_lt.mp hlt
  have hdelta : p.total - q.total ≠ 0 := by
    intro h
    rw [h] at hsys
    exact absurd hsys (by simp; omega)
  have hvalue : ((p.jiffies - q.jiffies).toNat / (p.total - q.total).toNat : ℚ) * 100 * ncpu =
      rate ncpu p q := by
    rw [rate, hsys, hproc, Nat.cast_sub (UInt64.le_iff_toNat_le.mp hle), Nat.cast_sub (le_of_lt hnat)]
    ring
  simp [getCpuUsage, hp, hstatics, CpuStatics.baseline, htotal, helapsed, hdelta, hvalue]

theorem rate_bounds (ncpu : Nat) (hlt : q.total < p.total) (hle : q.jiffies ≤ p.jiffies)
    (hshare : p.jiffies - q.jiffies ≤ p.total - q.total) :
    0 ≤ rate ncpu p q ∧ rate ncpu p q ≤ 100 * ncpu := by
  have hshare := UInt64.le_iff_toNat_le.mp hshare
  rw [UInt64.toNat_sub_of_le _ _ hle, UInt64.toNat_sub_of_le _ _ (UInt64.le_of_lt hlt)] at hshare
  have hle := UInt64.le_iff_toNat_le.mp hle
  have hlt := UInt64.lt_iff_toNat_lt.mp hlt
  have hsys : (0 : ℚ) < p.total.toNat - q.total.toNat := sub_pos.mpr (by exact_mod_cast hlt)
  have hproc : (0 : ℚ) ≤ p.jiffies.toNat - q.jiffies.toNat := sub_nonneg.mpr (by exact_mod_cast hle)
  have hratio : (p.jiffies.toNat - q.jiffies.toNat : ℚ) ≤ p.total.toNat - q.total.toNat := by
    rw [← Nat.cast_sub hle, ← Nat.cast_sub (le_of_lt hlt)]
    exact_mod_cast hshare
  unfold rate
  refine ⟨by positivity, ?_⟩
  rw [div_le_iff₀ hsys]
  exact mul_le_mul_of_nonneg_left hratio (by positivity)

theorem perProcess_of_alone (hlatest : s.Latest) (hregular : s.Regular r) (halone : s.Alone r) :
    s.PerProcess ncpu r ∧ (s.step ncpu r).Latest := by
  cases hp : r.sample? with
  | none =>
    have hcall : getCpuUsage id ncpu s.statics r =
        (0, { s.statics with lastRead := some (s.statics.lastRead.getD r.entered) }) := by
      simp [getCpuUsage, hp]
    refine ⟨⟨by simp [hp], ?_⟩, ?_⟩
    · rw [hcall]
      exact ⟨le_refl 0, by positivity⟩
    · cases hs : s.samples with
      | nil => simpa [Latest, step, hp, hcall, hs] using hlatest
      | cons q rest =>
        have hstatics : s.statics = .baseline q := by simpa [Latest, hs] using hlatest
        simp only [Latest, step, hp, hcall, hs, Option.toList_none, List.nil_append]
        simp [hstatics, CpuStatics.baseline]
  | some p =>
    cases hs : s.samples with
    | nil =>
      have hcall := getCpuUsage_of_first ncpu hp (by simpa [Latest, hs] using hlatest)
      refine ⟨⟨?_, ?_⟩, by simp [Latest, step, hp, hcall]⟩
      · intro p' hp'
        cases hp.symm.trans hp'
        simp [hcall, usage, hs]
      · rw [hcall]
        exact ⟨le_refl 0, by positivity⟩
    | cons q rest =>
      have hstatics : s.statics = .baseline q := by simpa [Latest, hs] using hlatest
      obtain ⟨hpid, htotal, hold⟩ := halone p hp q (by rw [hs]; rfl)
      obtain ⟨-, hlt, hshared⟩ := hregular p hp q (by simp [hs])
      obtain ⟨hle, hshare⟩ := hshared hpid
      have hcall := getCpuUsage_of_baseline ncpu hp hstatics htotal hlt hle hold
      refine ⟨⟨?_, ?_⟩, by simp [Latest, step, hp, hcall]⟩
      · intro p' hp'
        cases hp.symm.trans hp'
        simp [hcall, usage, hs, hpid]
      · rw [hcall]
        exact rate_bounds ncpu hlt hle hshare

end

theorem perProcess_of_run (ncpu : Nat) (reads : List CpuRead)
    (hregular : Runs.Each (step ncpu) Regular {} reads)
    (halone : Runs.Each (step ncpu) Alone {} reads) :
    Runs.Each (step ncpu) (PerProcess ncpu) {} reads :=
  Runs.each_of_invariant (fun _ _ hlatest h => perProcess_of_alone hlatest h.1 h.2)
    (show Latest {} from rfl) (hregular.and halone)

def reading (pid now : Int) (jiffies total : UInt64) : CpuRead where
  pid
  entered := now
  procStat := some ⟨jiffies, 0⟩
  systemStat := some ⟨total, 0, 0, 0, 0, 0, 0, 0⟩
  now

def oneProcess : List CpuRead :=
  [reading 7 0 500 1000, reading 7 100000000 600 1400, reading 7 200000000 600 1800]

theorem perProcess_oneProcess : Runs.Each (step 4) (PerProcess 4) {} oneProcess :=
  perProcess_of_run 4 oneProcess (by decide) (by decide)

def twoProcesses : List CpuRead := [reading 7 0 500 1000, reading 8 100000000 10 1400]

theorem usage_wraps_between_processes :
    Runs.Each (step 4) Regular {} twoProcesses ∧
      ¬ Runs.Each (step 4) (PerProcess 4) {} twoProcesses := by
  refine ⟨by decide, ?_⟩
  rintro ⟨-, ⟨-, -, hle⟩, -⟩
  exact absurd hle (by decide +kernel)

end CpuMeter

end PlatformHealth
