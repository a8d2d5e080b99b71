import PlatformHealth.Library.Descriptors
import PlatformHealth.Library.FileStream
import PlatformHealth.Logger

namespace PlatformHealth

open Descriptors FileStream

-- what the threads of the daemon do with files and with the Logger, one at a time
inductive FileOp where
  | log (l : LogLine)
  | openFile (path : String) (truncate : Bool)
  | write (fd : Nat) (bytes : Bytes)
  | close (fd : Nat)

-- openable are the paths that fopen and open do not refuse; file is the descriptor under Logger's file_,
-- owned are the numbers that the rest of the program has been given and has not closed
structure DaemonProcess where
  table : Table String
  openable : String → Bool
  files : FileStore String
  file : Option Nat := none
  owned : List Nat := []

namespace DaemonProcess

def openFile (p : DaemonProcess) (path : String) : Option Nat × DaemonProcess :=
  match p.table.lowest with
  | none => (none, p)
  | some fd =>
    if p.openable path then (some fd, { p with table := p.table.put fd (some path) }) else (none, p)

def write (p : DaemonProcess) (fd : Nat) (bytes : Bytes) : DaemonProcess :=
  match p.table.lookup fd with
  | none => p
  | some path => if path = "/dev/null" then p else { p with files := append p.files path bytes }

def setOutput (p : DaemonProcess) (path : String) : DaemonProcess :=
  let closed := match p.file with
    | none => p
    | some fd => { p with table := p.table.close fd, file := none }
  if path = "" then closed
  else
    let (file, opened) := closed.openFile path
    { opened with file }

section
variable (strftime : Int → Bytes)

-- stderr is descriptor 2
def log (p : DaemonProcess) (l : LogLine) : DaemonProcess :=
  if l.call.lv.value < LogLevel.info.value then p else p.write (p.file.getD 2) (Logger.render strftime l)

-- the program writes to and closes only what it has been given
def perform (p : DaemonProcess) : FileOp → DaemonProcess
  | .log l => p.log strftime l
  | .openFile path truncate =>
    match p.openFile path with
    | (none, p) => p
    | (some fd, p) =>
      { p with
        files := if truncate then Function.update p.files path [] else p.files
        owned := fd :: p.owned }
  | .write fd bytes => if fd ∈ p.owned then p.write fd bytes else p
  | .close fd =>
    if fd ∈ p.owned then { p with table := p.table.close fd, owned := p.owned.filter (· ≠ fd) } else p

end

-- both forks and setsid have succeeded
def daemonize (p : DaemonProcess) : DaemonProcess :=
  match { p with table := p.table.closeAll }.openFile "/dev/null" with
  | (none, p) => p
  | (some fd, p) =>
    let table := ((p.table.dup2 fd 0).dup2 fd 1).dup2 fd 2
    { p with table := if 2 < fd then table.close fd else table }

def logPath (logDir : String) : String := logDir ++ "/phmd.log"

-- Daemon::initialize() and then run(); the second setOutput is the engine's
def session (strftime : Int → Bytes) (logDir : String) (daemonize : Bool) (early middle late : List FileOp)
    (p : DaemonProcess) : DaemonProcess :=
  let setOutput p := if logDir = "" then p else setOutput p (logPath logDir)
  let p := Runs.run (perform strftime) (setOutput p) early
  let p := Runs.run (perform strftime) (setOutput p) middle
  let p := if daemonize then p.daemonize else p
  Runs.run (perform strftime) p late

def lineOf (strftime : Int → Bytes) : FileOp → Bytes
  | .log l => if l.call.lv.value < LogLevel.info.value then [] else Logger.render strftime l
  | .openFile _ _ | .write _ _ | .close _ => []

def Elsewhere (path : String) : FileOp → Prop
  | .openFile opened _ => opened ≠ path
  | _ => True

def Away (p : DaemonProcess) (path : String) : Prop := ∀ fd, p.table.lookup fd ≠ some path

structure Attached (p : DaemonProcess) (path : String) (fd : Nat) : Prop where
  file : p.file = some fd
  opened : p.table.lookup fd = some path
  only : ∀ m, m ≠ fd → p.table.lookup m ≠ some path
  notOwned : fd ∉ p.owned
  held : ∀ m ∈ p.owned, p.table.lookup m ≠ none

section
variable {p : DaemonProcess} {path opened : String} {fd : Nat} {bytes : Bytes} {op : FileOp}
  {strftime : Int → Bytes}

theorem files_write_of_ne (h : p.table.lookup fd ≠ some path) : (p.write fd bytes).files path = p.files path := by
  unfold write
  split
  · rfl
  · next other hother =>
    split
    · rfl
    · refine Function.update_of_ne ?_ _ _
      rintro rfl
      exact h hother

theorem files_write_self (h : p.table.lookup fd = some path) (hnull : path ≠ "/dev/null") :
    (p.write fd bytes).files path = p.files path ++ bytes := by
  rw [write, h]
  dsimp only
  rw [if_neg hnull]
  exact Function.update_self _ _ _

theorem write_keeps (p : DaemonProcess) (fd : Nat) (bytes : Bytes) :
    (p.write fd bytes).table = p.table ∧ (p.write fd bytes).file = p.file ∧
      (p.write fd bytes).owned = p.owned ∧ (p.write fd bytes).openable = p.openable := by
  unfold write
  split
  · exact ⟨rfl, rfl, rfl, rfl⟩
  · split <;> exact ⟨rfl, rfl, rfl, rfl⟩

theorem openFile_cases (p : DaemonProcess) (path : String) :
    p.openFile path = (none, p) ∨ ∃ fd, fd < p.table.limit ∧ p.table.lookup fd = none ∧
      p.openFile path = (some fd, { p with table := p.table.put fd (some path) }) := by
  unfold openFile
  split
  · exact .inl rfl
  · next fd hlowest =>
    split
    · exact .inr ⟨fd, (Table.lowest_spec hlowest).1, (Table.lowest_spec hlowest).2, rfl⟩
    · exact .inl rfl

theorem files_truncate (h : opened ≠ path) (truncate : Bool) :
    (if truncate then Function.update p.files opened [] else p.files) path = p.files path := by
  split
  · exact Function.update_of_ne (Ne.symm h) _ _
  · rfl

variable (strftime) in
theorem Away.perform (h : p.Away path) (hop : Elsewhere path op) :
    (p.perform strftime op).Away path ∧ (p.perform strftime op).files path = p.files path := by
  cases op with
  | log l =>
    simp only [DaemonProcess.perform, log]
    split
    · exact ⟨h, rfl⟩
    · refine ⟨?_, files_write_of_ne (h _)⟩
      rw [Away, (write_keeps _ _ _).1]
      exact h
  | openFile opened truncate =>
    rcases openFile_cases p opened with hnone | ⟨fd, -, -, hsome⟩
    · simp only [DaemonProcess.perform, hnone]
      exact ⟨h, trivial⟩
    · simp only [DaemonProcess.perform, hsome]
      refine ⟨fun m hm => ?_, files_truncate hop truncate⟩
      rcases Table.lookup_put_cases hm with heq | hold
      · exact hop (Option.some.inj heq)
      · exact h m hold
  | write fd bytes =>
    simp only [DaemonProcess.perform]
    split
    · refine ⟨?_, files_write_of_ne (h _)⟩
      rw [Away, (write_keeps _ _ _).1]
      exact h
    · exact ⟨h, rfl⟩
  | close fd =>
    simp only [DaemonProcess.perform]
    split
    · refine ⟨fun m hm => ?_, rfl⟩
      rcases Table.lookup_put_cases hm with heq | hold
      · cases heq
      · exact h m hold
    · exact ⟨h, rfl⟩

theorem Attached.write (h : p.Attached path fd) (other : Nat) (bytes : Bytes) :
    (p.write other bytes).Attached path fd := by
  obtain ⟨htable, hfile, howned, -⟩ := write_keeps p other bytes
  refine ⟨hfile ▸ h.file, htable ▸ h.opened, htable ▸ h.only, howned ▸ h.notOwned, ?_⟩
  rw [htable, howned]
  exact h.held

variable (strftime) in
theorem Attached.perform (h : p.Attached path fd) (hnull : path ≠ "/dev/null") (hop : Elsewhere path op) :
    (p.perform strftime op).Attached path fd ∧
      (p.perform strftime op).files path = p.files path ++ lineOf strftime op := by
  cases op with
  | log l =>
    simp only [DaemonProcess.perform, log, lineOf, h.file, Option.getD_some]
    split
    · exact ⟨h, (List.append_nil _).symm⟩
    · exact ⟨h.write _ _, files_write_self h.opened hnull⟩
  | openFile opened truncate =>
    rw [lineOf, List.append_nil]
    rcases openFile_cases p opened with hnone | ⟨new, hlimit, hfree, hsome⟩
    · simp only [DaemonProcess.perform, hnone]
      exact ⟨h, trivial⟩
    · have hne : fd ≠ new := by
        rintro rfl
        rw [h.opened] at hfree
        cases hfree
      simp only [DaemonProcess.perform, hsome]
      refine ⟨⟨h.file, ?_, ?_, ?_, ?_⟩, files_truncate hop truncate⟩
      · exact (Table.lookup_put_ne hne).trans h.opened
      · intro m hm hlookup
        rcases Table.lookup_put_cases hlookup with heq | hold
        · exact hop (Option.some.inj heq)
        · exact h.only m hm hold
      · exact fun hmem => (List.mem_cons.mp hmem).elim hne h.notOwned
      · intro m hm
        rw [Table.lookup_put]
        split
        · nofun
        · next hother =>
          rcases List.mem_cons.mp hm with rfl | hold
          · exact absurd ⟨rfl, hlimit⟩ hother
          · exact h.held m hold
  | write other bytes =>
    rw [lineOf, List.append_nil]
    simp only [DaemonProcess.perform]
    split
    · next howned =>
      have hne : other ≠ fd := fun heq => h.notOwned (heq ▸ howned)
      exact ⟨h.write _ _, files_write_of_ne (h.only other hne)⟩
    · exact ⟨h, rfl⟩
  | close other =>
    rw [lineOf, List.append_nil]
    simp only [DaemonProcess.perform]
    split
    · next howned =>
      have hne : fd ≠ other := fun heq => h.notOwned (heq ▸ howned)
      refine ⟨⟨h.file, ?_, ?_, ?_, ?_⟩, rfl⟩
      · exact (Table.lookup_put_ne hne).trans h.opened
      · intro m hm hlookup
        rcases Table.lookup_put_cases hlookup with heq | hold
        · cases heq
        · exact h.only m hm hold
      · exact fun hmem => h.notOwned (List.mem_of_mem_filter hmem)
      · intro m hm
        obtain ⟨hmem, hkept⟩ := List.mem_filter.mp hm
        exact (Table.lookup_put_ne (of_decide_eq_true hkept)).trans_ne (h.held m hmem)
    · exact ⟨h, rfl⟩

variable (strftime) in
theorem Away.run {ops : List FileOp} (h : p.Away path) (hops : ∀ op ∈ ops, Elsewhere path op) :
    (Runs.run (DaemonProcess.perform strftime) p ops).Away path ∧
      (Runs.run (DaemonProcess.perform strftime) p ops).files path = p.files path := by
  induction ops generalizing p with
  | nil => exact ⟨h, rfl⟩
  | cons op ops ih =>
    obtain ⟨haway, hfiles⟩ := h.perform strftime (hops op (by simp))
    obtain ⟨hlast, hrest⟩ := ih haway fun o ho => hops o (by simp [ho])
    exact ⟨hlast, hrest.trans hfiles⟩

variable (strftime) in
theorem Attached.run {ops : List FileOp} (h : p.Attached path fd) (hnull : path ≠ "/dev/null")
    (hops : ∀ op ∈ ops, Elsewhere path op) :
    (Runs.run (DaemonProcess.perform strftime) p ops).Attached path fd ∧
      (Runs.run (DaemonProcess.perform strftime) p ops).files path =
        p.files path ++ ops.flatMap (lineOf strftime) := by
  induction ops generalizing p with
  | nil => exact ⟨h, by simp⟩
  | cons op ops ih =>
    obtain ⟨hstill, hfiles⟩ := h.perform strftime hnull (hops op (by simp))
    obtain ⟨hlast, hrest⟩ := ih hstill fun o ho => hops o (by simp [ho])
    exact ⟨hlast, by rw [Runs.run_cons, hrest, hfiles, List.flatMap_cons, List.append_assoc]⟩

theorem Away.setOutput (h : p.Away path) (hnull : path ≠ "") (hfile : p.file = none)
    (hfree : p.table.lowest ≠ none) (hopenable : p.openable path) (hheld : ∀ m ∈ p.owned, p.table.lookup m ≠ none) :
    ∃ fd, (p.setOutput path).Attached path fd := by
  obtain ⟨fd, hfd⟩ := Option.ne_none_iff_exists'.mp hfree
  obtain ⟨hlimit, hnone⟩ := Table.lowest_spec hfd
  have hopen : p.setOutput path = { p with table := p.table.put fd (some path), file := some fd } := by
    simp [DaemonProcess.setOutput, hfile, hnull, DaemonProcess.openFile, hfd, hopenable]
  refine ⟨fd, ?_⟩
  rw [hopen]
  refine ⟨rfl, Table.lookup_put_self hlimit, ?_, ?_, ?_⟩
  · intro m hm hlookup
    exact h m ((Table.lookup_put_ne hm).symm.trans hlookup)
  · exact fun hmem => hheld fd hmem hnone
  · intro m hm hlookup
    rcases eq_or_ne m fd with rfl | hne
    · exact hheld m hm hnone
    · exact hheld m hm ((Table.lookup_put_ne hne).symm.trans hlookup)

theorem Attached.setOutput (h : p.Attached path fd) (hpath : path ≠ "") (hopenable : p.openable path) :
    ∃ fd, (p.setOutput path).Attached path fd := by
  let closed : DaemonProcess := { p with table := p.table.close fd, file := none }
  have hsame : p.setOutput path = closed.setOutput path := by
    simp [DaemonProcess.setOutput, h.file, closed]
  have hlimit := Table.lt_of_lookup h.opened
  rw [hsame]
  refine Away.setOutput ?_ hpath rfl (Table.lowest_ne_none hlimit (Table.lookup_put_self hlimit)) hopenable ?_
  · intro m hlookup
    rcases eq_or_ne m fd with rfl | hne
    · cases (Table.lookup_put_self hlimit).symm.trans hlookup
    · exact h.only m hne ((Table.lookup_put_ne hne).symm.trans hlookup)
  · intro m hm
    have hne : m ≠ fd := fun heq => h.notOwned (heq ▸ hm)
    exact (Table.lookup_put_ne hne).trans_ne (h.held m hm)

theorem files_openFile (p : DaemonProcess) (path : String) :
    (p.openFile path).2.files = p.files ∧ (p.openFile path).2.openable = p.openable := by
  rcases openFile_cases p path with hnone | ⟨fd, -, -, hsome⟩
  · rw [hnone]
    exact ⟨rfl, rfl⟩
  · rw [hsome]
    exact ⟨rfl, rfl⟩

theorem files_setOutput (p : DaemonProcess) (path : String) :
    (p.setOutput path).files = p.files ∧ (p.setOutput path).openable = p.openable := by
  unfold DaemonProcess.setOutput
  cases p.file with
  | none =>
    dsimp only
    split
    · exact ⟨rfl, rfl⟩
    · exact files_openFile _ path
  | some fd =>
    dsimp only
    split
    · exact ⟨rfl, rfl⟩
    · exact files_openFile _ path

variable (strftime) in
theorem openable_run (p : DaemonProcess) (ops : List FileOp) :
    (Runs.run (DaemonProcess.perform strftime) p ops).openable = p.openable := by
  refine Runs.run_eq_of_each DaemonProcess.openable ops (fun q op _ => ?_) p
  cases op with
  | log l =>
    simp only [DaemonProcess.perform, log]
    split
    · rfl
    · exact (write_keeps _ _ _).2.2.2
  | openFile opened truncate =>
    rcases openFile_cases q opened with hnone | ⟨fd, -, -, hsome⟩
    · simp only [DaemonProcess.perform, hnone]
    · simp only [DaemonProcess.perform, hsome]
  | write fd bytes =>
    simp only [DaemonProcess.perform]
    split
    · exact (write_keeps _ _ _).2.2.2
    · rfl
  | close fd =>
    simp only [DaemonProcess.perform]
    split <;> rfl

theorem dup2_ne {t : Table String} (old new : Nat) (h : ∀ m, t.lookup m ≠ some path) (m : Nat) :
    (t.dup2 old new).lookup m ≠ some path := by
  intro hlookup
  rcases Table.lookup_put_cases hlookup with heq | hold
  · exact h old heq
  · exact h m hold

theorem away_daemonize (p : DaemonProcess) (hnull : path ≠ "/dev/null") :
    p.daemonize.Away path ∧ p.daemonize.files = p.files := by
  have hclosed (m : Nat) : p.table.closeAll.lookup m ≠ some path := by
    rw [Table.lookup_closeAll]
    nofun
  unfold daemonize
  rcases openFile_cases { p with table := p.table.closeAll } "/dev/null" with hnone | ⟨fd, -, -, hsome⟩
  · rw [hnone]
    exact ⟨hclosed, rfl⟩
  · rw [hsome]
    refine ⟨fun m => ?_, rfl⟩
    have hopened (m : Nat) : (p.table.closeAll.put fd (some "/dev/null")).lookup m ≠ some path := by
      intro hlookup
      rcases Table.lookup_put_cases hlookup with heq | hold
      · exact hnull (Option.some.inj heq).symm
      · exact hclosed m hold
    have hthree := dup2_ne fd 2 (dup2_ne fd 1 (dup2_ne fd 0 hopened))
    dsimp only
    split
    · intro hlookup
      rcases Table.lookup_put_cases hlookup with heq | hold
      · cases heq
      · exact hthree m hold
    · exact hthree m

theorem logPath_ne (logDir : String) (h : path.toList.getLast? ≠ some 'g') : logPath logDir ≠ path := by
  rintro rfl
  exact h (by simp [logPath])

end

structure Fresh (p : DaemonProcess) (path : String) : Prop where
  away : p.Away path
  file : p.file = none
  owned : p.owned = []
  free : p.table.lowest ≠ none
  openable : p.openable path

theorem log_content (strftime : Int → Bytes) (logDir : String) (hdir : logDir ≠ "") (daemonize : Bool)
    (early middle late : List FileOp) (p : DaemonProcess) (hp : p.Fresh (logPath logDir))
    (hops : ∀ op ∈ early ++ middle ++ late, Elsewhere (logPath logDir) op) :
    (session strftime logDir daemonize early middle late p).files (logPath logDir) =
      p.files (logPath logDir) ++
        (if daemonize then early ++ middle else early ++ middle ++ late).flatMap (lineOf strftime) := by
  have hnull : logPath logDir ≠ "/dev/null" := logPath_ne logDir (by decide)
  have hpath : logPath logDir ≠ "" := logPath_ne logDir (by decide)
  have hearly : ∀ op ∈ early, Elsewhere (logPath logDir) op := fun op hop => hops op (by simp [hop])
  have hmiddle : ∀ op ∈ middle, Elsewhere (logPath logDir) op := fun op hop => hops op (by simp [hop])
  have hlate : ∀ op ∈ late, Elsewhere (logPath logDir) op := fun op hop => hops op (by simp [hop])
  obtain ⟨fd, hfirst⟩ := hp.away.setOutput hpath hp.file hp.free hp.openable (by simp [hp.owned])
  obtain ⟨hfiles, hopenable⟩ := files_setOutput p (logPath logDir)
  obtain ⟨hrun, hearlyFiles⟩ := hfirst.run strftime hnull hearly
  have hagain := openable_run strftime (p.setOutput (logPath logDir)) early
  obtain ⟨fd', hsecond⟩ := hrun.setOutput hpath (by rw [hagain, hopenable, hp.openable])
  obtain ⟨hsame, -⟩ :=
    files_setOutput (Runs.run (perform strftime) (p.setOutput (logPath logDir)) early) (logPath logDir)
  obtain ⟨hloaded, hmiddleFiles⟩ := hsecond.run strftime hnull hmiddle
  rw [hsame, hearlyFiles, hfiles] at hmiddleFiles
  simp only [session, if_neg hdir]
  cases daemonize with
  | true =>
    obtain ⟨haway, hkept⟩ := away_daemonize (Runs.run (perform strftime) _ middle) hnull
    rw [if_pos rfl, (haway.run strftime hlate).2, hkept, hmiddleFiles]
    simp
  | false =>
    rw [if_neg Bool.false_ne_true, (hloaded.run strftime hnull hlate).2, hmiddleFiles]
    simp

def launched : DaemonProcess where
  table := { limit := 8, slots := fun n => if n.val < 3 then some "/dev/tty" else none }
  openable _ := true
  files _ := []

theorem fresh_launched : launched.Fresh (logPath "/var/log") where
  away fd h := by
    have hne : logPath "/var/log" ≠ "/dev/tty" := logPath_ne "/var/log" (by decide)
    rw [Table.lookup, dif_pos (Table.lt_of_lookup h)] at h
    change (if fd < 3 then some "/dev/tty" else none) = some (logPath "/var/log") at h
    split at h
    · exact hne (Option.some.inj h).symm
    · cases h
  file := rfl
  owned := rfl
  free := by decide
  openable := rfl

def line (text : String) : FileOp :=
  .log ⟨0, 0, ⟨.info, "daemon.cpp", 39, "initialize", ByteString.utf8 text⟩⟩

def epoch (_ : Int) : Bytes := ByteString.utf8 "1970-01-01 00:00:00"

theorem background_log_ends :
    (session epoch "/var/log" true [line "initializing"] [line "initialized"]
        [.openFile "/var/run/phmd.pid" true, line "running"] launched).files (logPath "/var/log") =
      [line "initializing", line "initialized"].flatMap (lineOf epoch) :=
  log_content epoch "/var/log" (by decide) true [line "initializing"] [line "initialized"]
    [.openFile "/var/run/phmd.pid" true, line "running"] launched
    fresh_launched (by simp [Elsewhere, line, logPath])

example : (session epoch "/var/log" true [line "initializing"] [line "initialized"]
    [.openFile "/var/run/phmd.pid" true, line "running"] launched).files "/var/run/phmd.pid" =
      lineOf epoch (line "running") := by
  rfl

end DaemonProcess

end PlatformHealth
