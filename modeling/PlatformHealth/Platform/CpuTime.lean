import PlatformHealth.Library.Binary64Chain
import PlatformHealth.Library.RateMeter
import PlatformHealth.Platform.SystemStat

namespace PlatformHealth

open ByteString RateMeter
open Binary64 (toDouble rounded_natCast rounded_percent)

-- one call of getCpuUsage(pid) on Linux: process is the stat line of the process, if it still runs
structure CpuSnapshot (pid : Int) where
  files : ProcFs
  process : Option StatLine
  system : CpuLine
  held : SystemStat
  entered : Int
  now : Int
  processText : files.fopen (procPath pid "stat") = process.map StatLine.text
  systemText : files.fopen (utf8 "/proc/stat") = some system.text
  plainName : ∀ l ∈ process, l.comm ≠ [] ∧ 41 ∉ l.comm
  eight : 8 ≤ system.counters.length

namespace CpuSnapshot

variable {pid : Int}

def read (s : CpuSnapshot pid) : CpuRead where
  pid
  entered := s.entered
  procStat := readProcStat s.files pid
  systemStat := readSystemStat s.files s.held
  now := s.now

def sample? (s : CpuSnapshot pid) : Option CpuSample :=
  s.process.map fun l => ⟨pid, l.utime + l.stime, s.system.jiffies, s.now⟩

end CpuSnapshot

namespace CpuStatics

variable (ncpu : Nat)

def baseline? (s : CpuStatics) : Option Sample :=
  if s.lastTotalJiffies = 0 then none
  else some (.ofCounters s.lastProcJiffies s.lastTotalJiffies)

def meter : Meter CpuStatics CpuRead where
  step s r := (getCpuUsage toDouble ncpu s r).2
  value s r := (getCpuUsage toDouble ncpu s r).1
  baseline := baseline?

-- the kernel's counters do not fall, and the process has no more than its share of the machine
structure Later (q p : CpuSample) : Prop where
  total : q.total ≤ p.total
  jiffies : q.jiffies ≤ p.jiffies
  share : p.jiffies - q.jiffies ≤ p.total - q.total

instance (q p : CpuSample) : Decidable (Later q p) :=
  decidable_of_iff (q.total ≤ p.total ∧ q.jiffies ≤ p.jiffies ∧ p.jiffies - q.jiffies ≤ p.total - q.total)
    ⟨fun h => ⟨h.1, h.2.1, h.2.2⟩, fun h => ⟨h.total, h.jiffies, h.share⟩⟩

def Based (s : CpuStatics) (earlier : List CpuSample) : Prop :=
  s.lastTotalJiffies = 0 ∧ earlier = [] ∨
    ∃ q ∈ earlier, q.total ≠ 0 ∧ s.lastTotalJiffies = q.total ∧ s.lastProcJiffies = q.jiffies

def sampleOf (p : CpuSample) : Sample := .ofCounters p.jiffies p.total

def usage (procDelta sysDelta : Nat) : ℚ :=
  toDouble (toDouble (toDouble (toDouble procDelta / toDouble sysDelta) * 100) * toDouble ncpu)

section
variable {s : CpuStatics} {r : CpuRead} {p q : CpuSample} {earlier : List CpuSample}

theorem baseline_of_sample (h : p.total ≠ 0) : (baseline p).baseline? = some (sampleOf p) := if_neg h

theorem getCpuUsage_of_none (h : r.sample? = none) :
    getCpuUsage toDouble ncpu s r = (0, { s with lastRead := some (s.lastRead.getD r.entered) }) := by
  rw [getCpuUsage, h]

theorem getCpuUsage_of_empty (h : r.sample? = some p) (hs : s.lastTotalJiffies = 0) :
    getCpuUsage toDouble ncpu s r = (0, baseline p) := by
  simp [getCpuUsage, h, hs]

theorem getCpuUsage_cases (h : r.sample? = some p) (hs : s.lastTotalJiffies ≠ 0) :
    getCpuUsage toDouble ncpu s r = (0, { s with lastRead := some (s.lastRead.getD r.entered) }) ∨
      p.total = s.lastTotalJiffies ∧ getCpuUsage toDouble ncpu s r = (0, baseline p) ∨
        p.total ≠ s.lastTotalJiffies ∧ getCpuUsage toDouble ncpu s r =
          (usage ncpu (p.jiffies - s.lastProcJiffies).toNat (p.total - s.lastTotalJiffies).toNat, baseline p) := by
  have hzero : p.total - s.lastTotalJiffies = 0 ↔ p.total = s.lastTotalJiffies := by grind
  simp only [getCpuUsage, h, hs, if_false, hzero]
  split_ifs with hrecent hsame
  · exact .inl rfl
  · exact .inr (.inl ⟨hsame, rfl⟩)
  · exact .inr (.inr ⟨hsame, rfl⟩)

theorem usage_near (hncpu : ncpu < 2 ^ 63) (procDelta : UInt64) {sysDelta : UInt64} (hne : sysDelta ≠ 0) :
    |usage ncpu procDelta.toNat sysDelta.toNat - procDelta.toNat / sysDelta.toNat * (100 * ncpu)| ≤
      1 / 2 ^ 49 * (procDelta.toNat / sysDelta.toNat * (100 * ncpu)) := by
  have hclock : sysDelta.toNat ≠ 0 := fun h => hne (UInt64.toNat_inj.mp h)
  have hpercent := rounded_percent procDelta.toNat_lt.le sysDelta.toNat_lt.le hclock (by decide)
  have hcores := (rounded_natCast hncpu.le).toDouble (by decide) (by decide)
  have hnear := ((hpercent.mul hcores).toDouble (by decide) (by decide)).abs_sub_le (by decide)
  rw [mul_assoc (_ / _)] at hnear
  rw [one_div_mul_eq_div]
  exact hnear

theorem jiffies_of_total (h : Later q p) (hsame : p.total = q.total) : p.jiffies = q.jiffies := by
  have hshare := UInt64.le_iff_toNat_le.mp h.share
  rw [UInt64.toNat_sub_of_le _ _ h.jiffies, hsame, UInt64.sub_self] at hshare
  have hle := UInt64.le_iff_toNat_le.mp h.jiffies
  refine UInt64.toNat_inj.mp ?_
  simp only [UInt64.toNat_zero] at hshare
  omega

theorem Based.later (h : Based s earlier) (hs : s.lastTotalJiffies ≠ 0) (later : List CpuSample) :
    Based s (earlier ++ later) := by
  rcases h with ⟨hzero, -⟩ | ⟨q, hq, hbased⟩
  · exact absurd hzero hs
  · exact .inr ⟨q, by simp [hq], hbased⟩

theorem based_sample (hp : p.total ≠ 0) : Based (baseline p) (earlier ++ [p]) :=
  .inr ⟨p, by simp, hp, rfl, rfl⟩

variable {ncpu} in
theorem readsOf_step (hncpu : ncpu < 2 ^ 63) (h : Based s earlier)
    (hlater : ∀ p ∈ r.sample?, p.total ≠ 0 ∧ ∀ q ∈ earlier, Later q p) :
    (meter ncpu).ReadsOf (100 * ncpu) (1 / 2 ^ 49) s r ∧
      Based ((meter ncpu).step s r) (earlier ++ r.sample?.toList) := by
  unfold Meter.ReadsOf
  simp only [meter]
  cases hp : r.sample? with
  | none =>
    rw [getCpuUsage_of_none ncpu hp, Option.toList_none, List.append_nil]
    exact ⟨.kept _ _, h⟩
  | some p =>
    obtain ⟨hpos, hlater⟩ := hlater p hp
    by_cases hs : s.lastTotalJiffies = 0
    · rw [getCpuUsage_of_empty ncpu hp hs, baseline?, if_pos hs, baseline_of_sample hpos]
      exact ⟨.first _ _, based_sample hpos⟩
    · obtain ⟨hzero, -⟩ | ⟨q, hq, hqpos, htotal, hjiffies⟩ := id h
      · exact absurd hzero hs
      have hbase : s.baseline? = some (sampleOf q) := by rw [baseline?, if_neg hs, htotal, hjiffies, sampleOf]
      rcases getCpuUsage_cases ncpu hp hs with hskip | ⟨hsame, hcall⟩ | ⟨hne, hcall⟩
      · rw [hskip]
        exact ⟨.kept _ _, h.later hs _⟩
      · rw [hcall, hbase, baseline_of_sample hpos]
        rw [htotal] at hsame
        exact ⟨reads_of_standstill hsame (jiffies_of_total (hlater q hq) hsame) _ _, based_sample hpos⟩
      · rw [hcall, hbase, baseline_of_sample hpos, htotal, hjiffies]
        rw [htotal] at hne
        have hdelta : p.total - q.total ≠ 0 := by grind
        exact ⟨reads_of_advance (hlater q hq).jiffies (hlater q hq).total hne (usage_near ncpu hncpu _ hdelta),
          based_sample hpos⟩

def sampling {ncpu : Nat} (hncpu : ncpu < 2 ^ 63) : Sampling (meter ncpu) (100 * ncpu) (1 / 2 ^ 49) CpuSample where
  sample? := CpuRead.sample?
  sampleOf := sampleOf
  Valid p := p.total ≠ 0
  Later := Later
  Based := Based
  readsOf := readsOf_step hncpu
  baseline_of_empty h := by
    obtain ⟨hzero, -⟩ | ⟨q, hq, -⟩ := h
    · exact if_pos hzero
    · cases hq
  baseline_of_first {s p} h := by
    obtain ⟨-, hnil⟩ | ⟨q, hq, hpos, htotal, hjiffies⟩ := h
    · cases hnil
    · obtain rfl := List.mem_singleton.mp hq
      change s.baseline? = _
      rw [baseline?, htotal, hjiffies, if_neg hpos, sampleOf]

end

end CpuStatics

namespace CpuSnapshot

open CpuStatics

section
variable {pid : Int}

end

def cameraFiles (l : StatLine) (c : CpuLine) : ProcFs where
  opendir _ := none
  fopen path :=
    if path = procPath 812 "stat" then some l.text
    else if path = utf8 "/proc/stat" then some c.text else none

def cameraLine (utime : UInt64) : StatLine :=
  { StatLine.sleeping (utf8 "camera_driver") (by decide) with utime }

def machineLine (total : UInt64) : CpuLine := .ofCounters [total, 0, 0, 0, 0, 0, 0, 0]

def camera (utime total : UInt64) (now : Int) : CpuSnapshot 812 where
  files := cameraFiles (cameraLine utime) (machineLine total)
  process := some (cameraLine utime)
  system := machineLine total
  held := ⟨0, 0, 0, 0, 0, 0, 0, 0⟩
  entered := now
  now
  processText := by simp [cameraFiles]
  systemText := by
    have hne : utf8 "/proc/stat" ≠ procPath 812 "stat" := by decide
    simp [cameraFiles, hne]
  plainName := by
    intro l hl
    obtain rfl := Option.some.inj hl
    exact ⟨List.cons_ne_nil _ _, show 41 ∉ utf8 "camera_driver" by decide⟩
  eight := le_refl 8

end CpuSnapshot

end PlatformHealth
