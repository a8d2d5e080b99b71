import PlatformHealth.Monitors.ProcessLoss
import PlatformHealth.Platform.ProcessName

namespace PlatformHealth

open ByteString Decimal

-- "/proc/%d" into char path[64]
def procDirPath (pid : Int) : Bytes := snprintf 64 (utf8 "/proc/" ++ printInt pid)

-- access is whether access(path, F_OK) returns 0
def LinuxPlatform.processExists (access : Bytes → Bool) (pid : Int) : Bool :=
  if pid ≤ 0 then false else access (procDirPath pid)

-- what runs at one time; the directory of a thread can be accessed although it is not listed
structure LinuxSnapshot where
  dir : ProcDir
  threads : List Int
  threadIds : ∀ tid ∈ threads, IsPid tid

namespace LinuxSnapshot

def ids (s : LinuxSnapshot) : List Int := s.dir.processes.map LinuxProcess.pid ++ s.threads

def access (s : LinuxSnapshot) (path : Bytes) : Bool := s.ids.any fun id => procDirPath id = path

def reading (s : LinuxSnapshot) (r : Reading) : Reading :=
  { r with
    created := true
    getProcessId := fun name => LinuxPlatform.getProcessId s.dir.files (utf8 name)
    processExists := LinuxPlatform.processExists s.access }

section
variable {s : LinuxSnapshot} {p q : Int}

theorem procDirPath_inj (hp : IsPid p) (hq : IsPid q) : procDirPath p = procDirPath q ↔ p = q := by
  have hlength {z : Int} (hz : IsPid z) : procDirPath z = utf8 "/proc/" ++ printInt z := by
    have hprint := length_printInt_le hz
    have hproc : (utf8 "/proc/").length = 6 := rfl
    refine List.take_of_length_le ?_
    simp only [List.length_append]
    omega
  rw [hlength hp, hlength hq, List.append_cancel_left_eq]
  exact ⟨fun h => printInt_injective h, fun h => by rw [h]⟩

theorem isPid_of_mem (h : p ∈ s.ids) : IsPid p := by
  rcases List.mem_append.mp h with hprocess | hthread
  · obtain ⟨process, -, rfl⟩ := List.mem_map.mp hprocess
    exact process.isPid
  · exact s.threadIds p hthread

theorem processExists_iff (hp : IsPid p) (hpos : 0 < p) (r : Reading) :
    (s.reading r).processExists p = true ↔ p ∈ s.ids := by
  change (if p ≤ 0 then false else s.access (procDirPath p)) = true ↔ _
  rw [if_neg (by omega), access, List.any_eq_true]
  constructor
  · rintro ⟨id, hid, hpath⟩
    rwa [← (procDirPath_inj (isPid_of_mem hid) hp).mp (of_decide_eq_true hpath)]
  · intro hid
    exact ⟨p, hid, decide_eq_true rfl⟩

end

end LinuxSnapshot

namespace ProcessLifecycleMonitor

section
variable {m : ProcessLifecycleMonitor} {s : LinuxSnapshot} {r : Reading} {p : Int}

structure Follows (m : ProcessLifecycleMonitor) (p : Int) : Prop where
  platform : m.platform = true
  state : m.state = .running
  pid : m.pid = p
  isPid : IsPid p
  positive : 0 < p

theorem Follows.probe (h : m.Follows p) (r : Reading) : m.probe r = (p, r.processExists p) := by
  rw [ProcessLifecycleMonitor.probe, h.pid, if_pos h.positive]

theorem Follows.check_present (h : m.Follows p) (hpresent : p ∈ s.ids) :
    m.check (s.reading r) = { monitor := m, outcome := .ok {} } := by
  have hexists := (LinuxSnapshot.processExists_iff h.isPid h.positive r).mpr hpresent
  rw [check, if_neg (by simp [h.platform]), h.probe]
  dsimp only
  rw [hexists, if_neg (by simp), if_neg (by simp [h.state]), ← h.pid]

theorem Follows.reports_iff (h : m.Follows p) : m.ReportsLoss (s.reading r) ↔ p ∉ s.ids := by
  constructor
  · rintro ⟨-, evt, hok, hid, -⟩ hpresent
    rw [h.check_present hpresent] at hok
    obtain rfl := Except.ok.inj hok
    exact hid rfl
  · intro habsent
    have hexists : (s.reading r).processExists p = false := by
      simpa using mt (LinuxSnapshot.processExists_iff h.isPid h.positive r).mp habsent
    refine ⟨(m.regular_check _).raised, m.exitEvent p (s.reading r), ?_, generateId_ne_empty (by decide) _, rfl⟩
    simp [check, h.platform, h.probe, hexists, h.state]

theorem Follows.after_eq (h : m.Follows p) {snapshots : Nat → LinuxSnapshot} {env : Nat → Reading} {k : Nat}
    (hpresent : ∀ j < k, p ∈ (snapshots j).ids) : m.after (fun j => (snapshots j).reading (env j)) k = m := by
  induction k with
  | zero => rfl
  | succ k ih =>
    rw [after, ih fun j hj => hpresent j (by omega), h.check_present (hpresent k (by omega))]

theorem Follows.reports_first_iff (h : m.Follows p) (snapshots : Nat → LinuxSnapshot) (env : Nat → Reading)
    (k : Nat) :
    ((m.after (fun j => (snapshots j).reading (env j)) k).ReportsLoss ((snapshots k).reading (env k)) ∧
        ∀ j < k, ¬ (m.after (fun j => (snapshots j).reading (env j)) j).ReportsLoss
          ((snapshots j).reading (env j))) ↔
      p ∉ (snapshots k).ids ∧ ∀ j < k, p ∈ (snapshots j).ids := by
  have hreports {j : Nat} (hpresent : ∀ i < j, p ∈ (snapshots i).ids) :
      (m.after (fun j => (snapshots j).reading (env j)) j).ReportsLoss ((snapshots j).reading (env j)) ↔
        p ∉ (snapshots j).ids := by
    rw [h.after_eq hpresent]
    exact h.reports_iff
  constructor
  · rintro ⟨hloss, hnone⟩
    have hpresent (j : Nat) (hj : j < k) : p ∈ (snapshots j).ids := by
      induction j using Nat.strong_induction_on with
      | _ j ih =>
        by_contra habsent
        exact hnone j hj ((hreports fun i hi => ih i hi (by omega)).mpr habsent)
    exact ⟨(hreports hpresent).mp hloss, hpresent⟩
  · rintro ⟨habsent, hpresent⟩
    refine ⟨(hreports hpresent).mpr habsent, fun j hj hloss => ?_⟩
    exact (hreports fun i hi => hpresent i (by omega)).mp hloss (hpresent j hj)

theorem follows_start (hname : m.processName ≠ "")
    (hpid : LinuxPlatform.getProcessId s.dir.files (utf8 m.processName) = p) (hpos : 0 < p) :
    (m.start (s.reading r)).2.Follows p := by
  have hlookup : (s.reading r).getProcessId m.processName = p := hpid
  have hstart : (m.start (s.reading r)).2 = { m with platform := true, pid := p, state := .running } := by
    have hcreated : (!(s.reading r).created) = false := rfl
    rw [start, hcreated, if_neg Bool.false_ne_true, if_neg hname, hlookup]
    dsimp only
    rw [if_pos hpos]
  rw [hstart]
  refine ⟨rfl, rfl, rfl, ?_, hpos⟩
  rw [ProcDir.getProcessId_files] at hpid
  cases hfind : s.dir.opened.find? fun q => q.shown = utf8 m.processName with
  | none =>
    rw [hfind] at hpid
    exact absurd hpid (by simp; omega)
  | some q =>
    rw [hfind] at hpid
    rw [← hpid]
    exact q.isPid

theorem first_loss_iff (hname : m.processName ≠ "")
    (hpid : LinuxPlatform.getProcessId s.dir.files (utf8 m.processName) = p) (hpos : 0 < p)
    (snapshots : Nat → LinuxSnapshot) (env : Nat → Reading) (k : Nat) :
    let checked (j : Nat) := (m.start (s.reading r)).2.after (fun j => (snapshots j).reading (env j)) j
    ((checked k).ReportsLoss ((snapshots k).reading (env k)) ∧
        ∀ j < k, ¬ (checked j).ReportsLoss ((snapshots j).reading (env j))) ↔
      p ∉ (snapshots k).ids ∧ ∀ j < k, p ∈ (snapshots j).ids :=
  (follows_start hname hpid hpos).reports_first_iff snapshots env k

end

def cameraMonitor : ProcessLifecycleMonitor :=
  new "process_lifecycle" { params := StringMap.empty.insert "process_name" "camera_driver" }

def onVehicle : LinuxSnapshot := ⟨ProcDir.vehicle, [], by simp⟩

def replaced : Nat → LinuxSnapshot
  | 0 => ⟨⟨[ProcDir.running 701 "gpsd" (by decide)], by decide⟩, [], by simp⟩
  | _ => ⟨⟨[], by decide⟩, [], by simp⟩

theorem reuse_hides_loss :
    let checked (j : Nat) := (cameraMonitor.start (onVehicle.reading {})).2.after (fun j => (replaced j).reading {}) j
    (∀ q ∈ (replaced 0).dir.processes, q.name ≠ utf8 "camera_driver") ∧
      (checked 1).ReportsLoss ((replaced 1).reading {}) ∧
      ∀ j < 1, ¬ (checked j).ReportsLoss ((replaced j).reading {}) := by
  have hname : cameraMonitor.processName = "camera_driver" := by decide +kernel
  have hpid : LinuxPlatform.getProcessId onVehicle.dir.files (utf8 cameraMonitor.processName) = 701 := by
    rw [hname]
    decide +kernel
  refine ⟨by decide, (first_loss_iff ?_ hpid (by decide) replaced (fun _ => {}) 1).mpr ⟨by decide, ?_⟩⟩
  · rw [hname]
    decide
  · intro j hj
    obtain rfl : j = 0 := by omega
    decide

end ProcessLifecycleMonitor

end PlatformHealth
