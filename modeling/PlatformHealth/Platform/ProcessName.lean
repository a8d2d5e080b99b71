import PlatformHealth.Platform.ProcFiles
import Mathlib.Data.List.Nodup

namespace PlatformHealth

open ByteString Decimal

-- none at the end of the file
def fgets (size : Nat) (content : Bytes) : Option Bytes :=
  if content = [] then none
  else
    let bytes := content.take (size - 1)
    some (bytes.takeWhile (· ≠ 10) ++ (bytes.dropWhile (· ≠ 10)).take 1)

def stripNewline (comm : Bytes) : Bytes := if comm.getLast? = some 10 then comm.dropLast else comm

-- what one entry of /proc contributes: nothing where the loop goes on to the next one
def readComm (files : ProcFs) (entry : Dirent) : Option (Int × Bytes) :=
  let (value, rest) := strtol entry.dName
  let pid := toPid value
  if rest ≠ [] then none
  else
    match files.fopen (procPath pid "comm") with
    | none => none
    | some content => (fgets 256 content).map fun comm => (pid, stripNewline (cString comm))

def searchComm (files : ProcFs) (processName : Bytes) : List Dirent → Int
  | [] => -1
  | entry :: entries =>
    match readComm files entry with
    | none => searchComm files processName entries
    | some (pid, comm) => if processName = comm then pid else searchComm files processName entries

def LinuxPlatform.getProcessId (files : ProcFs) (processName : Bytes) : Int :=
  match files.opendir (utf8 "/proc") with
  | none => -1
  | some entries => searchComm files processName entries

structure LinuxProcess where
  pid : Int
  name : Bytes
  positive : 0 < pid
  isPid : IsPid pid
  noNul : 0 ∉ name

namespace LinuxProcess

-- TASK_COMM_LEN is 16
def comm (p : LinuxProcess) : Bytes := p.name.take 15 ++ [10]

def shown (p : LinuxProcess) : Bytes := (p.name.take 15).takeWhile (· ≠ 10)

-- the name goes on behind the 15 bytes that the kernel keeps, or on another line
def Mistaken (p : LinuxProcess) (name : Bytes) : Prop :=
  p.name ≠ name ∧ (name.length = 15 ∧ name <+: p.name ∨ name.length < 15 ∧ name ++ [10] <+: p.name)

instance (p : LinuxProcess) (name : Bytes) : Decidable (p.Mistaken name) :=
  inferInstanceAs (Decidable (_ ∧ (_ ∨ _)))

section
variable {p : LinuxProcess} {name : Bytes}

theorem takeWhile_line (hnl : 10 ∉ name) (rest : Bytes) :
    (name ++ 10 :: rest).takeWhile (· ≠ 10) = name := by
  rw [List.takeWhile_append_of_pos fun b hb => by simpa using ne_of_mem_of_not_mem hb hnl]
  simp

theorem exists_line (bytes : Bytes) :
    ∃ rest, bytes = bytes.takeWhile (· ≠ 10) ++ rest ∧ ∀ b ∈ rest.head?, b = 10 := by
  refine ⟨bytes.dropWhile (· ≠ 10), List.takeWhile_append_dropWhile.symm, fun b hb => ?_⟩
  have hhead := List.head?_dropWhile_not (· ≠ 10) bytes
  rw [hb] at hhead
  simpa using hhead

theorem shown_eq_iff (hnl : 10 ∉ name) :
    p.shown = name ↔ p.name = name ∧ name.length ≤ 15 ∨ p.Mistaken name := by
  have hall : name.takeWhile (· ≠ 10) = name := by
    rw [List.takeWhile_eq_self_iff]
    exact fun b hb => by simpa using ne_of_mem_of_not_mem hb hnl
  constructor
  · intro h
    obtain ⟨rest, hkept, hrest⟩ := exists_line (p.name.take 15)
    have hline : (p.name.take 15).takeWhile (· ≠ 10) = name := h
    rw [hline] at hkept
    have hprefix : name ++ rest <+: p.name := hkept ▸ List.take_prefix 15 p.name
    have hlength := congrArg List.length hkept
    simp only [List.length_take, List.length_append] at hlength
    by_cases hname : p.name = name
    · exact .inl ⟨hname, by omega⟩
    · refine .inr ⟨hname, ?_⟩
      cases rest with
      | nil =>
        refine .inl ⟨?_, by simpa using hprefix⟩
        by_contra hne
        simp only [List.length_nil] at hlength
        rw [List.append_nil, List.take_of_length_le (by omega)] at hkept
        exact hname hkept
      | cons b rest =>
        obtain rfl : b = 10 := hrest b rfl
        simp only [List.length_cons] at hlength
        refine .inr ⟨by omega, List.IsPrefix.trans ⟨rest, by simp⟩ hprefix⟩
  · rintro (⟨hname, hle⟩ | ⟨-, ⟨hlength, rest, hrest⟩ | ⟨hlt, rest, hrest⟩⟩)
    · rw [shown, hname, List.take_of_length_le hle, hall]
    · rw [shown, ← hrest, List.take_append_of_le_length hlength.ge, ← hlength, List.take_length, hall]
    · rw [shown, ← hrest, List.append_assoc, List.take_append, List.take_of_length_le hlt.le]
      obtain ⟨k, hk⟩ := Nat.exists_eq_add_of_lt hlt
      have hcount : 15 - name.length = k + 1 := by omega
      rw [hcount, List.singleton_append, List.take_succ_cons, takeWhile_line hnl]

theorem line_of_comm (bytes : Bytes) :
    (bytes ++ [10]).takeWhile (· ≠ 10) ++ ((bytes ++ [10]).dropWhile (· ≠ 10)).take 1 =
      bytes.takeWhile (· ≠ 10) ++ [10] := by
  induction bytes with
  | nil => rfl
  | cons b bytes ih =>
    by_cases hb : b = 10
    · simp [hb]
    · simpa [hb] using ih

theorem fgets_line {comm : Bytes} (h : comm.length ≤ 63) :
    fgets 256 (comm ++ [10]) = some (comm.takeWhile (· ≠ 10) ++ [10]) := by
  have hshort : (comm ++ [10]).take 255 = comm ++ [10] := by
    refine List.take_of_length_le ?_
    rw [List.length_append, List.length_singleton]
    omega
  rw [fgets, if_neg (by simp)]
  simp only [Nat.reduceSub, hshort, line_of_comm]

theorem fgets_comm (p : LinuxProcess) :
    (fgets 256 p.comm).map (fun comm => stripNewline (cString comm)) = some p.shown := by
  have hline : fgets 256 p.comm = some (p.shown ++ [10]) :=
    fgets_line (le_trans (List.length_take_le 15 p.name) (by decide))
  have hnul : 0 ∉ p.shown ++ [10] := by
    intro hzero
    rcases List.mem_append.mp hzero with hzero | hzero
    · exact p.noNul (List.mem_of_mem_take ((List.takeWhile_sublist _).mem hzero))
    · exact absurd (List.mem_singleton.mp hzero) (by decide)
  rw [hline, Option.map_some, cString_of_notMem hnul]
  simp [stripNewline]

end

end LinuxProcess

inductive ProcEntry
  | process (p : LinuxProcess)
  | other (d : Dirent)

namespace ProcEntry

def dirent : ProcEntry → Dirent
  | process p => ⟨printInt p.pid, .dir, zero_notMem_printInt p.pid⟩
  | other d => d

def process? : ProcEntry → Option LinuxProcess
  | process p => some p
  | other _ => none

end ProcEntry

-- /proc, its entries in whatever order readdir has them
structure ProcDir where
  entries : List ProcEntry
  distinct : ((entries.filterMap ProcEntry.process?).map LinuxProcess.pid).Nodup

namespace ProcDir

def processes (dir : ProcDir) : List LinuxProcess := dir.entries.filterMap ProcEntry.process?

-- only the directory of a process has a comm file
def files (dir : ProcDir) : ProcFs where
  opendir path := if path = utf8 "/proc" then some (dir.entries.map ProcEntry.dirent) else none
  fopen path := (dir.processes.find? fun p => procPath p.pid "comm" = path).map LinuxProcess.comm

-- the process whose comm file is opened for an entry, as strtol reads the entry's name
def openedFor (dir : ProcDir) (entry : ProcEntry) : Option LinuxProcess :=
  if (strtol entry.dirent.dName).2 ≠ [] then none
  else dir.processes.find? fun p => p.pid = toPid (strtol entry.dirent.dName).1

def opened (dir : ProcDir) : List LinuxProcess := dir.entries.filterMap dir.openedFor

def Finds (dir : ProcDir) (name : Bytes) (result : Int) : Prop :=
  (∃ p ∈ dir.processes, p.name = name ∧ result = p.pid) ∨
    (∀ p ∈ dir.processes, p.name ≠ name) ∧ result = -1

-- a name that the kernel keeps whole if a process has it, and that no earlier process is mistaken for
structure Recognised (dir : ProcDir) (name : Bytes) : Prop where
  kept : ∀ p ∈ dir.processes, p.name = name → name.length ≤ 15
  alone : ∀ p ∈ dir.opened.takeWhile (·.name ≠ name), ¬ p.Mistaken name

section
variable {dir : ProcDir} {p q : LinuxProcess} {name : Bytes}

theorem pid_inj (hp : p ∈ dir.processes) (hq : q ∈ dir.processes) (h : p.pid = q.pid) : p = q :=
  List.inj_on_of_nodup_map dir.distinct hp hq h

theorem find_pid (hp : p ∈ dir.processes) : (dir.processes.find? fun q => q.pid = p.pid) = some p := by
  cases hfind : dir.processes.find? fun q => q.pid = p.pid with
  | none => exact absurd (List.find?_eq_none.mp hfind p hp) (by simp)
  | some q =>
    have hpid : q.pid = p.pid := by simpa using List.find?_some hfind
    rw [pid_inj (List.mem_of_find?_eq_some hfind) hp hpid]

theorem fopen_files {pid : Int} (h : IsPid pid) :
    dir.files.fopen (procPath pid "comm") = (dir.processes.find? fun p => p.pid = pid).map LinuxProcess.comm := by
  have hleaf : (utf8 "comm").length ≤ 45 := by decide
  simp only [files]
  congr 2
  funext p
  rw [decide_eq_decide]
  exact procPath_inj p.isPid h hleaf

theorem readComm_files (dir : ProcDir) (entry : ProcEntry) :
    readComm dir.files entry.dirent = (dir.openedFor entry).map fun p => (p.pid, p.shown) := by
  simp only [readComm, openedFor]
  split_ifs with hrest
  · rfl
  · rw [fopen_files (isPid_toPid _)]
    cases hfind : dir.processes.find? fun p => p.pid = toPid (strtol entry.dirent.dName).1 with
    | none => rfl
    | some p =>
      have hpid : p.pid = toPid (strtol entry.dirent.dName).1 := by simpa using List.find?_some hfind
      obtain ⟨line, hline, hstrip⟩ := Option.map_eq_some_iff.mp p.fgets_comm
      simp only [Option.map_some, hline, hstrip, hpid]

theorem searchComm_files (dir : ProcDir) (name : Bytes) (entries : List ProcEntry) :
    searchComm dir.files name (entries.map ProcEntry.dirent) =
      (((entries.filterMap dir.openedFor).find? fun p => p.shown = name).map LinuxProcess.pid).getD (-1) := by
  induction entries with
  | nil => rfl
  | cons entry entries ih =>
    rw [List.map_cons, searchComm, readComm_files]
    cases hopened : dir.openedFor entry with
    | none => rw [List.filterMap_cons_none hopened, Option.map_none, ih]
    | some p =>
      rw [List.filterMap_cons_some hopened, Option.map_some]
      by_cases hshown : p.shown = name
      · simp [hshown]
      · simp [hshown, Ne.symm hshown, ih]

theorem getProcessId_files (dir : ProcDir) (name : Bytes) :
    LinuxPlatform.getProcessId dir.files name =
      ((dir.opened.find? fun p => p.shown = name).map LinuxProcess.pid).getD (-1) := by
  have hproc : dir.files.opendir (utf8 "/proc") = some (dir.entries.map ProcEntry.dirent) := by
    simp [files]
  rw [LinuxPlatform.getProcessId, hproc]
  exact searchComm_files dir name dir.entries

theorem openedFor_process (h : p ∈ dir.processes) : dir.openedFor (.process p) = some p := by
  have hrange := p.isPid
  unfold IsPid at hrange
  have hread : strtol (printInt p.pid) = (p.pid, []) := strtol_printInt (by omega) (by omega)
  simp [openedFor, ProcEntry.dirent, hread, toPid_of_isPid p.isPid, find_pid h]

theorem mem_opened : p ∈ dir.opened ↔ p ∈ dir.processes := by
  constructor
  · intro h
    obtain ⟨entry, -, hopened⟩ := List.mem_filterMap.mp h
    unfold openedFor at hopened
    split_ifs at hopened
    exact List.mem_of_find?_eq_some hopened
  · intro h
    obtain ⟨entry, hentry, hprocess⟩ := List.mem_filterMap.mp h
    cases entry with
    | other d => cases hprocess
    | process q =>
      cases hprocess
      exact List.mem_filterMap.mpr ⟨.process p, hentry, openedFor_process h⟩

theorem find_eq_find_iff {α : Type} (seen wanted : α → Bool) (xs : List α) :
    xs.find? seen = xs.find? wanted ↔
      (∀ x ∈ xs.find? wanted, seen x = true) ∧ ∀ x ∈ xs.takeWhile (!wanted ·), seen x = false := by
  induction xs with
  | nil => simp
  | cons x xs ih =>
    cases hwanted : wanted x with
    | true =>
      cases hseen : seen x with
      | true => simp [hwanted, hseen]
      | false =>
        have hne : xs.find? seen ≠ some x := fun h => by simp [List.find?_some h] at hseen
        simpa [hwanted, hseen] using hne
    | false =>
      cases hseen : seen x with
      | true =>
        have hne : some x ≠ xs.find? wanted := fun h => by simp [List.find?_some h.symm] at hwanted
        simpa [hwanted, hseen] using hne
      | false => simpa [hwanted, hseen] using ih

theorem shown_of_name (hnl : 10 ∉ name) (h : p.name = name) : p.shown = name ↔ name.length ≤ 15 := by
  rw [LinuxProcess.shown_eq_iff hnl]
  simp [h, LinuxProcess.Mistaken]

theorem shown_of_other_name (hnl : 10 ∉ name) (h : p.name ≠ name) : p.shown = name ↔ p.Mistaken name := by
  rw [LinuxProcess.shown_eq_iff hnl]
  simp [h]

theorem exists_first (hp : p ∈ dir.processes) (h : p.name = name) :
    ∃ q ∈ dir.processes, q.name = name ∧ (dir.opened.find? fun p => p.name = name) = some q := by
  cases hfirst : dir.opened.find? fun p => p.name = name with
  | none => exact absurd (List.find?_eq_none.mp hfirst p (mem_opened.mpr hp)) (by simpa using h)
  | some q =>
    exact ⟨q, mem_opened.mp (List.mem_of_find?_eq_some hfirst), by simpa using List.find?_some hfirst, rfl⟩

theorem recognised_iff (hnl : 10 ∉ name) :
    dir.Recognised name ↔
      (dir.opened.find? fun p => p.shown = name) = dir.opened.find? fun p => p.name = name := by
  rw [find_eq_find_iff]
  simp only [← decide_not, decide_eq_true_eq, decide_eq_false_iff_not]
  constructor
  · intro h
    refine ⟨fun p hp => ?_, fun p hp => ?_⟩
    · have hname : p.name = name := by simpa using List.find?_some hp
      exact (shown_of_name hnl hname).mpr (h.kept p (mem_opened.mp (List.mem_of_find?_eq_some hp)) hname)
    · have hname : p.name ≠ name := by simpa using List.mem_takeWhile_imp hp
      rw [shown_of_other_name hnl hname]
      exact h.alone p hp
  · rintro ⟨hkept, halone⟩
    refine ⟨fun p hp hname => ?_, fun p hp => ?_⟩
    · obtain ⟨q, -, hq, hfirst⟩ := exists_first hp hname
      exact (shown_of_name hnl hq).mp (hkept q hfirst)
    · have hname : p.name ≠ name := by simpa using List.mem_takeWhile_imp hp
      rw [← shown_of_other_name hnl hname]
      exact halone p hp

theorem find_name_of_shown (hnl : 10 ∉ name) (hname : p.name = name)
    (h : (dir.opened.find? fun p => p.shown = name) = some p) :
    (dir.opened.find? fun p => p.name = name) = some p := by
  obtain ⟨hshown, before, after, hsplit, hbefore⟩ := List.find?_eq_some_iff_append.mp h
  have hle : name.length ≤ 15 := (shown_of_name hnl hname).mp (by simpa using hshown)
  refine List.find?_eq_some_iff_append.mpr ⟨by simpa using hname, before, after, hsplit, fun q hq => ?_⟩
  have hother : q.shown ≠ name := by simpa using hbefore q hq
  have hname : q.name ≠ name := fun heq => hother ((shown_of_name hnl heq).mpr hle)
  simpa using hname

theorem getProcessId_finds_iff (dir : ProcDir) (hnl : 10 ∉ name) :
    dir.Finds name (LinuxPlatform.getProcessId dir.files name) ↔ dir.Recognised name := by
  rw [recognised_iff hnl, getProcessId_files]
  constructor
  · intro h
    cases hfind : dir.opened.find? fun p => p.shown = name with
    | none =>
      rw [hfind] at h
      symm
      rw [List.find?_eq_none]
      rcases h with ⟨p, -, -, hpid⟩ | ⟨hnone, -⟩
      · have hpos := p.positive
        simp only [Option.map_none, Option.getD_none] at hpid
        omega
      · intro p hp
        simpa using hnone p (mem_opened.mp hp)
    | some p =>
      have hp : p ∈ dir.processes := mem_opened.mp (List.mem_of_find?_eq_some hfind)
      rw [hfind] at h
      rcases h with ⟨q, hq, hname, hpid⟩ | ⟨-, hpid⟩
      · obtain rfl := pid_inj hp hq hpid
        exact (find_name_of_shown hnl hname hfind).symm
      · have hpos := p.positive
        simp only [Option.map_some, Option.getD_some] at hpid
        omega
  · intro h
    rw [h]
    cases hfirst : dir.opened.find? fun p => p.name = name with
    | none =>
      refine .inr ⟨fun p hp => ?_, rfl⟩
      simpa using List.find?_eq_none.mp hfirst p (mem_opened.mpr hp)
    | some p =>
      exact .inl ⟨p, mem_opened.mp (List.mem_of_find?_eq_some hfirst), by simpa using List.find?_some hfirst, rfl⟩

end

def running (pid : Int) (name : String) (h : 0 < pid ∧ IsPid pid ∧ 0 ∉ utf8 name) : ProcEntry :=
  .process ⟨pid, utf8 name, h.1, h.2.1, h.2.2⟩

def vehicle : ProcDir where
  entries := [.other ⟨utf8 "self", .lnk, by decide⟩, running 640 "adas_perception_viewer" (by decide),
    .other ⟨utf8 "cpuinfo", .reg, by decide⟩, running 655 "adas_perception" (by decide),
    running 701 "camera_driver" (by decide), running 812 "planning_control" (by decide)]
  distinct := by decide

theorem camera_driver_found :
    vehicle.Finds (utf8 "camera_driver") (LinuxPlatform.getProcessId vehicle.files (utf8 "camera_driver")) :=
  (getProcessId_finds_iff vehicle (by decide)).mpr ⟨by decide, by decide⟩

theorem configured_names_missed :
    LinuxPlatform.getProcessId vehicle.files (utf8 "planning_control") = -1 ∧
      ¬ vehicle.Finds (utf8 "planning_control") (-1) ∧
      LinuxPlatform.getProcessId vehicle.files (utf8 "adas_perception") = 640 ∧
      ¬ vehicle.Finds (utf8 "adas_perception") 640 := by
  unfold Finds
  exact ⟨by decide, by decide, by decide, by decide⟩

end ProcDir

end PlatformHealth
