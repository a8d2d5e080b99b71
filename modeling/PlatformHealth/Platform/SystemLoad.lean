import PlatformHealth.Library.Binary64Chain
import PlatformHealth.Platform.SystemStat
import Mathlib.Tactic.FieldSimp
import Mathlib.Tactic.NormNum
import Mathlib.Tactic.Linarith

namespace PlatformHealth

open ByteString
open Binary64 (toDouble rounded_natCast rounded_percent)

-- the function-local statics, lastTime none until the first call that reaches it
structure LoadStatics where
  lastTotal : UInt64 := 0
  lastTime : Option Int := none

-- what one call reads: the stat file, the clock where last_time is initialised, and the clock in ns
structure LoadRead where
  systemStat : Option SystemStat
  entered : Int
  now : Int

def getSystemCpuLoad (ncpu : Nat) (statics : LoadStatics) (r : LoadRead) : ℚ × LoadStatics :=
  match r.systemStat with
  | none => (0, statics)
  | some stat =>
    let totalJiffies := stat.totalJiffies
    let lastTime := statics.lastTime.getD r.entered
    let next : LoadStatics := { lastTotal := totalJiffies, lastTime := some r.now }
    if statics.lastTotal = 0 then (0, next)
    else
      let elapsedMs := (r.now - lastTime).tdiv 1000000
      if elapsedMs ≤ 0 then (0, { statics with lastTime := some lastTime })
      else
        let delta := toDouble (totalJiffies - statics.lastTotal).toNat
        let load := toDouble (toDouble (toDouble (delta / toDouble elapsedMs) * 100) / toDouble ncpu)
        (min load 100, next)

-- one call on a machine whose /proc/stat has the cpu line line
structure LoadSnapshot where
  files : ProcFs
  line : CpuLine
  held : SystemStat
  entered : Int
  now : Int
  text : files.fopen (utf8 "/proc/stat") = some line.text
  eight : 8 ≤ line.counters.length

namespace LoadSnapshot

def read (s : LoadSnapshot) : LoadRead where
  systemStat := readSystemStat s.files s.held
  entered := s.entered
  now := s.now

def after (ncpu : Nat) (snapshots : List LoadSnapshot) : LoadStatics :=
  Runs.run (fun statics s => (getSystemCpuLoad ncpu statics s.read).2) {} snapshots

-- the kernel books a jiffy, 10 ms, for each processor on one of the counters, idle or not
def Booked (ncpu : Nat) (q p : LoadSnapshot) : Prop :=
  ∃ ms : Nat, p.now = q.now + 1000000 * ms ∧ p.line.jiffies.toNat * 10 = q.line.jiffies.toNat * 10 + ncpu * ms

def taken (s : LoadSnapshot) : LoadStatics where
  lastTotal := s.line.jiffies
  lastTime := some s.now

def share (ncpu delta : Nat) (elapsedMs : Int) : ℚ :=
  toDouble (toDouble (toDouble (toDouble delta / toDouble elapsedMs) * 100) / toDouble ncpu)

section
variable {ncpu : Nat} {statics : LoadStatics} {p q : LoadSnapshot} {pre : List LoadSnapshot}

theorem load_eq (ncpu : Nat) (statics : LoadStatics) (p : LoadSnapshot) :
    getSystemCpuLoad ncpu statics p.read =
      let lastTime := statics.lastTime.getD p.entered
      let elapsedMs := (p.now - lastTime).tdiv 1000000
      if statics.lastTotal = 0 then (0, p.taken)
      else if elapsedMs ≤ 0 then (0, { statics with lastTime := some lastTime })
      else (min (share ncpu (p.line.jiffies - statics.lastTotal).toNat elapsedMs) 100, p.taken) := by
  obtain ⟨stat, hstat, htotal⟩ := Option.map_eq_some_iff.mp (CpuLine.readSystemStat_of_eight p.text p.eight)
  have hread : p.read.systemStat = some stat := hstat
  rw [getSystemCpuLoad, hread, ← htotal, taken, ← htotal]
  rfl

theorem load_of_empty (hzero : statics.lastTotal = 0) :
    getSystemCpuLoad ncpu statics p.read = (0, p.taken) := by
  rw [load_eq]
  exact if_pos hzero

theorem share_near {ncpu delta ms : Nat} (hcpu : 0 < ncpu) (hms : 0 < ms) (hdelta : delta < 2 ^ 64)
    (hbooked : delta * 10 = ncpu * ms) : |share ncpu delta ms - 10| ≤ 10 / 2 ^ 49 := by
  have hcores : ncpu ≤ 2 ^ 68 := by
    have hle : ncpu * 1 ≤ ncpu * ms := Nat.mul_le_mul_left ncpu hms
    omega
  have helapsed : ms ≤ 2 ^ 68 := by
    have hle : 1 * ms ≤ ncpu * ms := Nat.mul_le_mul_right ms hcpu
    omega
  have hms' : (ms : ℚ) ≠ 0 := by exact_mod_cast hms.ne'
  have hcpu' : (ncpu : ℚ) ≠ 0 := by exact_mod_cast hcpu.ne'
  have hten : (delta : ℚ) / ms * 100 / ncpu = 10 := by
    have hcount : (delta : ℚ) = ncpu * ms / 10 := by
      rw [eq_div_iff (by norm_num)]
      exact_mod_cast hbooked
    rw [hcount]
    field_simp
    norm_num
  have hpercent := rounded_percent hdelta.le helapsed hms.ne' (by decide)
  have hdivisor := (rounded_natCast hcores).toDouble (by decide) (by decide)
  have hnear := ((hpercent.div hdivisor hcpu').toDouble (by decide) (by decide)).abs_sub_le (by decide)
  rw [hten] at hnear
  exact hnear

theorem load_of_taken (hcpu : 0 < ncpu) (hpos : q.line.jiffies ≠ 0) (hbooked : Booked ncpu q p) :
    ∃ load, getSystemCpuLoad ncpu q.taken p.read = (load, p.taken) ∧
      if p.now = q.now then load = 0 else |load - 10| ≤ 10 / 2 ^ 49 := by
  obtain ⟨ms, hnow, hjiffies⟩ := hbooked
  have helapsed : (p.now - q.now).tdiv 1000000 = ms := by
    rw [hnow, add_sub_cancel_left, Int.mul_tdiv_cancel_left _ (by decide)]
  have hload := load_eq ncpu q.taken p
  simp only [taken, Option.getD_some, if_neg hpos, helapsed] at hload
  rw [taken]
  refine ⟨_, hload.trans (Prod.ext rfl ?_), ?_⟩
  · split_ifs with hzero
    · obtain rfl : ms = 0 := by omega
      have hstill : q.line.jiffies = p.line.jiffies := UInt64.toNat_inj.mp (by omega)
      have hsame : p.now = q.now := by simpa using hnow
      rw [taken, hstill, hsame]
    · rfl
  · rcases Nat.eq_zero_or_pos ms with rfl | hms
    · rw [if_pos (by simpa using hnow), if_pos (by decide)]
    · rw [if_neg (by omega), if_neg (by omega)]
      have hle : q.line.jiffies ≤ p.line.jiffies := UInt64.le_iff_toNat_le.mpr (by omega)
      have hdelta : (p.line.jiffies - q.line.jiffies).toNat * 10 = ncpu * ms := by
        rw [UInt64.toNat_sub_of_le _ _ hle]
        omega
      have hnear := share_near hcpu hms (UInt64.toNat_lt _) hdelta
      have hbelow := (abs_le.mp hnear).2
      rw [min_eq_left (by linarith)]
      exact hnear

theorem after_concat (hcpu : 0 < ncpu) (hbooked : (pre ++ [p]).Pairwise (Booked ncpu))
    (hpos : ∀ s ∈ pre, s.line.jiffies ≠ 0) : after ncpu (pre ++ [p]) = p.taken := by
  induction pre using List.reverseRecOn generalizing p with
  | nil => exact congrArg Prod.snd (load_of_empty rfl)
  | append_singleton pre q ih =>
    obtain ⟨hbefore, -, hlast⟩ := List.pairwise_append.mp hbooked
    have htaken : after ncpu (pre ++ [q]) = q.taken := ih hbefore fun s hs => hpos s (by simp [hs])
    obtain ⟨load, hload, -⟩ := load_of_taken hcpu (hpos q (by simp)) (hlast q (by simp) p (by simp))
    unfold after at htaken ⊢
    rw [Runs.run_append, htaken, Runs.run_cons, Runs.run_nil, hload]

end

def machineLine (user idle : UInt64) : CpuLine := .ofCounters [user, 0, 0, idle, 0, 0, 0, 0]

end LoadSnapshot

end PlatformHealth
