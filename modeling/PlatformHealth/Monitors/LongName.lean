import PlatformHealth.Monitors.NamedProcess
import PlatformHealth.Platform.ProcessName

namespace PlatformHealth

open ByteString

-- the kernel keeps 15 bytes of a process's name and 63 of its own threads' names
inductive CommFile (name : Bytes) : Bytes → Prop
  | ended : CommFile name []
  | process (comm : Bytes) : comm.length ≤ 15 → CommFile name (comm ++ [10])
  | kernelThread (comm : Bytes) :
    comm.length ≤ 63 → 0 ∉ comm → 10 ∉ comm → comm ≠ name → CommFile name (comm ++ [10])

namespace CommFile

variable {name : Bytes}

theorem length_strip_le (pre : Bytes) : (stripNewline (cString (pre ++ [10]))).length ≤ pre.length := by
  by_cases h : 0 ∈ pre
  · rw [cString_append_of_mem h]
    have hcut : (cString pre).length ≤ pre.length := (List.takeWhile_sublist _).length_le
    unfold stripNewline
    split
    · rw [List.length_dropLast]
      omega
    · exact hcut
  · have hnul : 0 ∉ pre ++ [10] := by simpa using h
    rw [cString_of_notMem hnul]
    simp [stripNewline]

theorem line_ne {content line : Bytes} (h : CommFile name content) (hlong : 15 < name.length)
    (hline : fgets 256 content = some line) : name ≠ stripNewline (cString line) := by
  cases h with
  | ended => cases hline
  | process comm hle =>
    rw [LinuxProcess.fgets_line (by omega)] at hline
    obtain rfl := Option.some.inj hline
    intro heq
    have hstrip := length_strip_le (comm.takeWhile (· ≠ 10))
    have hcut : (comm.takeWhile (· ≠ 10)).length ≤ comm.length := (List.takeWhile_sublist _).length_le
    rw [← heq] at hstrip
    omega
  | kernelThread comm hle hnul hnl hne =>
    rw [LinuxProcess.fgets_line hle] at hline
    obtain rfl := Option.some.inj hline
    have hwhole : comm.takeWhile (· ≠ 10) = comm := by
      rw [List.takeWhile_eq_self_iff]
      exact fun b hb => by simpa using ne_of_mem_of_not_mem hb hnl
    have hnul' : 0 ∉ comm ++ [10] := by simpa using hnul
    rw [hwhole, cString_of_notMem hnul']
    simpa [stripNewline] using hne.symm

theorem searchComm_eq {files : ProcFs}
    (h : ∀ pid content, files.fopen (procPath pid "comm") = some content → CommFile name content)
    (hlong : 15 < name.length) (entries : List Dirent) : searchComm files name entries = -1 := by
  induction entries with
  | nil => rfl
  | cons entry entries ih =>
    rw [searchComm]
    cases hread : readComm files entry with
    | none => exact ih
    | some found =>
      obtain ⟨pid, comm⟩ := found
      simp only [readComm] at hread
      split at hread
      · cases hread
      · split at hread
        · cases hread
        · next content hopen =>
          obtain ⟨line, hline, heq⟩ := Option.map_eq_some_iff.mp hread
          obtain ⟨-, rfl⟩ := Prod.mk.inj heq
          exact (if_neg ((h _ content hopen).line_ne hlong hline)).trans ih

end CommFile

-- the platform is Linux, with whatever runs at the time but a kernel thread of that very name
def Reading.OnLinux (name : String) (r : Reading) : Prop :=
  ∃ files : ProcFs,
    (∀ pid content, files.fopen (procPath pid "comm") = some content → CommFile (utf8 name) content) ∧
      r.getProcessId = fun processName => LinuxPlatform.getProcessId files (utf8 processName)

def PriorCall.OnLinux (name : String) : PriorCall → Prop
  | .start r => r.OnLinux name
  | .stop => True
  | .check r => r.OnLinux name

theorem Reading.OnLinux.getProcessId_of_long {r : Reading} {name : String} (h : r.OnLinux name)
    (hlong : 15 < (utf8 name).length) : r.getProcessId name = -1 := by
  obtain ⟨files, hcomm, hfiles⟩ := h
  rw [hfiles]
  unfold LinuxPlatform.getProcessId
  split
  · rfl
  · next entries _ => exact CommFile.searchComm_eq hcomm hlong entries

namespace BuiltinMonitor

def Blind (name : String) : BuiltinMonitor → Prop
  | processLifecycle m => m.processName = name ∧ m.pid ≤ 0 ∧ m.state = .init
  | resource m => m.processName = name ∧ m.pid ≤ 0
  | _ => False

section
variable {mon : BuiltinMonitor} {name : String}

theorem Blind.call (h : Blind name mon) (hlong : 15 < (utf8 name).length) {c : PriorCall}
    (hc : c.OnLinux name) : Blind name (mon.call c) := by
  cases mon with
  | processLifecycle m =>
    cases c with
    | start r =>
      have hnone := Reading.OnLinux.getProcessId_of_long hc hlong
      change Blind name (processLifecycle (m.start r).2)
      unfold ProcessLifecycleMonitor.start
      grind [Blind]
    | stop => exact ⟨h.1, h.2.1, rfl⟩
    | check r =>
      have hnone := Reading.OnLinux.getProcessId_of_long hc hlong
      change Blind name (processLifecycle (m.check r).monitor)
      unfold ProcessLifecycleMonitor.check ProcessLifecycleMonitor.probe
      grind [Blind]
  | resource m =>
    cases c with
    | start r =>
      have hnone := Reading.OnLinux.getProcessId_of_long hc hlong
      change Blind name (resource (m.start r).2)
      unfold ResourceMonitor.start
      grind [Blind]
    | stop => exact h
    | check r =>
      have hnone := Reading.OnLinux.getProcessId_of_long hc hlong
      change Blind name (resource (m.check r).monitor)
      unfold ResourceMonitor.check
      grind [Blind]
  | deadlock m => exact h.elim
  | alive m => exact h.elim

theorem Blind.check (h : Blind name mon) (r : Reading) : returned (IMonitor.check mon r) = none := by
  cases mon with
  | processLifecycle m =>
    change returned (m.check r) = none
    unfold ProcessLifecycleMonitor.check
    grind [Blind, returned]
  | resource m =>
    change returned (m.check r) = none
    unfold ResourceMonitor.check
    grind [Blind, returned]
  | deadlock m => exact h.elim
  | alive m => exact h.elim

end

def commFiles : List (Bytes × Bytes) :=
  [(procPath 812 "comm", utf8 "planning_contro" ++ [10]),
    (procPath 57 "comm", utf8 "kworker/u16:2-events_unbound" ++ [10])]

def vehicleFiles : ProcFs where
  opendir _ := some [⟨utf8 "57", .dir, by decide⟩, ⟨utf8 "812", .dir, by decide⟩]
  fopen path := (commFiles.find? (·.1 = path)).map Prod.snd

def onVehicle : Reading where
  getProcessId name := LinuxPlatform.getProcessId vehicleFiles (utf8 name)
  processExists _ := true

end BuiltinMonitor

end PlatformHealth
