import PlatformHealth.Library.Scanf
import PlatformHealth.Platform.CpuUsage
import PlatformHealth.Platform.ProcFiles

namespace PlatformHealth

open ByteString Decimal Scanf

def statFormat : String :=
  "%*d (%*[^)]) %*c %*d %*d %*d %*d %*d %*u %*u " ++ "%*u %*u %*u %llu %llu"

def readProcStat (files : ProcFs) (pid : Int) : Option ProcStat :=
  match files.fopen (procPath pid "stat") with
  | none => none
  | some content =>
    match (directives statFormat.toList).map (scan · content) with
    | none => none
    | some outcome =>
      match outcome.assigned with
      | [utime, stime] => if outcome.rc = 2 then some ⟨utime, stime⟩ else none
      | _ => none

def fieldDirectives : List Directive :=
  (List.replicate 10 [Directive.space, .skip .integer]).flatten ++
    [.space, .unsignedLongLong, .space, .unsignedLongLong]

def statDirectives : List Directive :=
  [.skip .integer, .space, .ordinary 40] ++
    .skip (.setExcept 41) :: .ordinary 41 :: ([.space, .skip .char] ++ fieldDirectives)

theorem directives_statFormat : directives statFormat.toList = some statDirectives := rfl

-- pid (comm) state ppid pgrp session tty_nr tpgid flags minflt cminflt majflt cmajflt utime stime ...
structure StatLine where
  pid : Int32
  comm : Bytes
  state : UInt8
  ppid : Int32
  pgrp : Int32
  session : Int32
  ttyNr : Int32
  tpgid : Int32
  flags : UInt32
  minflt : UInt64
  cminflt : UInt64
  majflt : UInt64
  cmajflt : UInt64
  utime : UInt64
  stime : UInt64
  rest : Bytes
  commLength : comm.length ≤ 15
  stateLetter : isPart state = false

namespace StatLine

def skipped (l : StatLine) : List Int :=
  [l.ppid.toInt, l.pgrp.toInt, l.session.toInt, l.ttyNr.toInt, l.tpgid.toInt, l.flags.toNat,
    l.minflt.toNat, l.cminflt.toNat, l.majflt.toNat, l.cmajflt.toNat]

def numbers (l : StatLine) : Bytes :=
  l.skipped.flatMap (fun z => 32 :: printInt z) ++
    32 :: print l.utime.toNat ++ 32 :: print l.stime.toNat ++ 32 :: l.rest

def text (l : StatLine) : Bytes :=
  printInt l.pid.toInt ++ utf8 " (" ++ l.comm ++ utf8 ") " ++ l.state :: l.numbers

section
variable {l : StatLine} {files : ProcFs} {pid : Int} {ds : List Directive} {s front : Bytes} {b : UInt8}
  {utime stime : UInt64}

theorem readProcStat_iff {content : Bytes} (h : files.fopen (procPath pid "stat") = some content) :
    readProcStat files pid = some ⟨utime, stime⟩ ↔
      (scan statDirectives content).assigned = [utime, stime] := by
  simp only [readProcStat, h, directives_statFormat, Option.map_some]
  generalize scan statDirectives content = outcome
  split
  · next u v hassigned =>
    have hrc : outcome.rc = 2 := by
      rw [Outcome.rc_of_ne_nil (by simp [hassigned]), hassigned]
      rfl
    simp [hrc, hassigned]
  · next hother => simpa using hother utime stime

theorem scan_numbers (l : StatLine) : scan fieldDirectives l.numbers = ⟨[l.utime, l.stime], none⟩ := by
  have hspace : isSpace 32 = true := by decide
  have hend : NoDigit (32 :: l.rest) := noDigit_cons.mpr (by decide)
  have hstime : NoDigit (32 :: (print l.stime.toNat ++ 32 :: l.rest)) := noDigit_cons.mpr (by decide)
  have hutime : NoDigit (32 :: (print l.utime.toNat ++ 32 :: (print l.stime.toNat ++ 32 :: l.rest))) :=
    noDigit_cons.mpr (by decide)
  have htext : l.numbers = l.skipped.flatMap (fun z => 32 :: printInt z) ++
      32 :: (print l.utime.toNat ++ 32 :: (print l.stime.toNat ++ 32 :: l.rest)) := by
    simp [numbers]
  have hten : l.skipped.length = 10 := rfl
  rw [htext, fieldDirectives, ← hten, scan_skip_integers l.skipped hutime, scan_number_of_space rfl hspace,
    scan_unsignedLongLong l.utime hstime, scan_number_of_space rfl hspace,
    scan_unsignedLongLong l.stime hend]
  rfl

theorem scan_front (l : StatLine) :
    scan ([.skip .integer, .space, .ordinary 40] ++ ds) l.text =
      scan ds (l.comm ++ 41 :: 32 :: l.state :: l.numbers) := by
  have htext : l.text = printInt l.pid.toInt ++
      32 :: 40 :: (l.comm ++ 41 :: 32 :: l.state :: l.numbers) := by
    have hopen : utf8 " (" = [32, 40] := rfl
    have hclose : utf8 ") " = [41, 32] := rfl
    simp [text, hopen, hclose]
  have hblank (s : Bytes) : (32 :: 40 :: s).dropWhile isSpace = 40 :: s := rfl
  rw [htext]
  simp only [List.cons_append, List.nil_append]
  rw [scan_skip_integer _ (noDigit_cons.mpr (by decide)), scan_space, hblank, scan_ordinary]

theorem fields_incomplete (hlength : front.length ≤ 22) (hb : isPart b = false) :
    (scan fieldDirectives (front ++ b :: s)).assigned ≠ [utime, stime] := by
  intro h
  have hcount : fieldDirectives.count .unsignedLongLong = 2 := by decide
  have hlast : fieldDirectives.getLast? = some .unsignedLongLong := by decide
  have hall : ∀ d ∈ fieldDirectives, d = .space ∨ d.isNumber = true := by decide
  have hnumbers : fieldDirectives.countP Directive.isNumber = 12 := by decide
  have hdone := failure_of_all_assigned hlast (by rw [h, hcount]; rfl)
  have hle := (numbers_before hall hb hdone).1
  omega

theorem not_assigned_behind (l : StatLine) (hlength : front.length ≤ 15) :
    (scan ([.space, .skip .char] ++ fieldDirectives)
      (front ++ 41 :: 32 :: l.state :: l.numbers)).assigned ≠ [utime, stime] := by
  have hle := (List.dropWhile_sublist isSpace (l := front)).length_le
  simp only [List.cons_append, List.nil_append]
  rw [scan_space, dropWhile_before (by decide)]
  cases hfront : front.dropWhile isSpace with
  | nil =>
    rw [List.nil_append, scan_skip_char]
    have hblank : 32 :: l.state :: l.numbers = [32] ++ l.state :: l.numbers := rfl
    rw [hblank]
    exact fields_incomplete (by decide) l.stateLetter
  | cons b front =>
    rw [hfront, List.length_cons] at hle
    rw [List.cons_append, scan_skip_char]
    exact fields_incomplete (by omega) (by decide)

theorem readProcStat_of_plain (h : files.fopen (procPath pid "stat") = some l.text) (hne : l.comm ≠ [])
    (hmem : 41 ∉ l.comm) : readProcStat files pid = some ⟨l.utime, l.stime⟩ := by
  have hblank : (32 :: l.state :: l.numbers).dropWhile isSpace = l.state :: l.numbers := by
    have hspace : isSpace 32 = true := by decide
    simp [hspace, not_space_of_not_part l.stateLetter]
  rw [readProcStat_iff h, statDirectives, l.scan_front, scan_skip_setExcept hne hmem, scan_ordinary]
  simp only [List.cons_append, List.nil_append]
  rw [scan_space, hblank, scan_skip_char, l.scan_numbers]

theorem not_assigned (l : StatLine) (hbad : l.comm = [] ∨ 41 ∈ l.comm) :
    (scan statDirectives l.text).assigned ≠ [utime, stime] := by
  rw [statDirectives, l.scan_front]
  rcases hbad with hnil | hmem
  · rw [hnil, List.nil_append, scan_skip_setExcept_nil]
    rintro ⟨⟩
  · obtain ⟨front, after, hcomm, hfront⟩ := List.eq_append_cons_of_mem hmem
    have hlength := l.commLength
    rw [hcomm, List.length_append, List.length_cons] at hlength
    have htext : l.comm ++ 41 :: 32 :: l.state :: l.numbers =
        front ++ 41 :: (after ++ 41 :: 32 :: l.state :: l.numbers) := by simp [hcomm]
    rw [htext]
    cases front with
    | nil =>
      rw [List.nil_append, scan_skip_setExcept_nil]
      rintro ⟨⟩
    | cons b front =>
      rw [scan_skip_setExcept (by simp) hfront, scan_ordinary]
      exact l.not_assigned_behind (by omega)

theorem readProcStat_of_bad (h : files.fopen (procPath pid "stat") = some l.text)
    (hbad : l.comm = [] ∨ 41 ∈ l.comm) : readProcStat files pid = none := by
  cases hread : readProcStat files pid with
  | none => rfl
  | some p => exact absurd ((readProcStat_iff h).mp hread) (l.not_assigned hbad)

theorem readProcStat_exact_iff (h : files.fopen (procPath pid "stat") = some l.text) :
    readProcStat files pid = some ⟨l.utime, l.stime⟩ ↔ l.comm ≠ [] ∧ 41 ∉ l.comm := by
  constructor
  · intro hread
    by_contra hplain
    have hbad : l.comm = [] ∨ 41 ∈ l.comm := by tauto
    rw [readProcStat_of_bad h hbad] at hread
    cases hread
  · rintro ⟨hne, hmem⟩
    exact readProcStat_of_plain h hne hmem

end

theorem getCpuUsage_of_bad {r : CpuRead} {l : StatLine} {files : ProcFs} (double : ℚ → ℚ) (ncpu : Nat)
    (statics : CpuStatics) (hread : r.procStat = readProcStat files r.pid)
    (h : files.fopen (procPath r.pid "stat") = some l.text) (hbad : l.comm = [] ∨ 41 ∈ l.comm) :
    (getCpuUsage double ncpu statics r).1 = 0 := by
  have hsample : r.sample? = none := by
    rw [CpuRead.sample?, hread, readProcStat_of_bad h hbad]
  simp [getCpuUsage, hsample]

def files (l : StatLine) : ProcFs where
  opendir _ := none
  fopen path := if path = procPath l.pid.toInt "stat" then some l.text else none

def sleeping (comm : Bytes) (h : comm.length ≤ 15) : StatLine where
  pid := 812
  comm
  state := 83
  ppid := 1
  pgrp := 812
  session := 812
  ttyNr := 0
  tpgid := -1
  flags := 4194560
  minflt := 5000000000
  cminflt := 0
  majflt := 12
  cmajflt := 0
  utime := 1500
  stime := 240
  rest := utf8 "0 0 20 0 4 0\n"
  commLength := h
  stateLetter := by decide

theorem camera_driver_read :
    let l := sleeping (utf8 "camera (1 of 2") (by decide)
    readProcStat l.files 812 = some ⟨1500, 240⟩ := by
  intro l
  exact (readProcStat_exact_iff (l := l) (by simp [files, l, sleeping])).mpr ⟨by decide, by decide⟩

theorem closing_parenthesis_unread :
    let l := sleeping (utf8 "camera (front)") (by decide)
    l.files.fopen (procPath 812 "stat") = some l.text ∧ readProcStat l.files 812 = none ∧
      readProcStat l.files 812 ≠ some ⟨l.utime, l.stime⟩ := by
  intro l
  have hisNone : (readProcStat l.files 812).isNone = true := by decide +kernel
  have hnone := Option.isNone_iff_eq_none.mp hisNone
  refine ⟨by decide, hnone, ?_⟩
  rw [hnone]
  rintro ⟨⟩

end StatLine

end PlatformHealth
