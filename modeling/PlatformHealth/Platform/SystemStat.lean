import PlatformHealth.Platform.ProcStat
import PlatformHealth.Platform.ProcessName

namespace PlatformHealth

open ByteString Decimal Scanf

def cpuFormat : String := "cpu %llu %llu %llu %llu %llu %llu %llu %llu"

-- the variables that sscanf does not get to keep what was in them
def SystemStat.assign (held : SystemStat) (values : List UInt64) : SystemStat where
  user := values.getD 0 held.user
  nice := values.getD 1 held.nice
  system := values.getD 2 held.system
  idle := values.getD 3 held.idle
  iowait := values.getD 4 held.iowait
  irq := values.getD 5 held.irq
  softirq := values.getD 6 held.softirq
  steal := values.getD 7 held.steal

-- held is what the uninitialised locals hold
def readSystemStat (files : ProcFs) (held : SystemStat) : Option SystemStat :=
  match files.fopen (utf8 "/proc/stat") with
  | none => none
  | some content =>
    match fgets 256 content with
    | none => none
    | some buf =>
      match (directives cpuFormat.toList).map (scan · (cString buf)) with
      | none => none
      | some outcome => if outcome.rc < 4 then none else some (held.assign outcome.assigned)

def counterDirectives (n : Nat) : List Directive :=
  (List.replicate n [Directive.space, .unsignedLongLong]).flatten

def cpuDirectives : List Directive := [.ordinary 99, .ordinary 112, .ordinary 117] ++ counterDirectives 8

theorem directives_cpuFormat : directives cpuFormat.toList = some cpuDirectives := rfl

theorem fgets_front {size : Nat} {front tail : Bytes} (hlength : front.length < size) (hnl : 10 ∉ front)
    (htail : tail ≠ []) : fgets size (front ++ tail) = (fgets (size - front.length) tail).map (front ++ ·) := by
  have hpos : ∀ b ∈ front, (decide (b ≠ 10)) = true := fun b hb => by
    simpa using ne_of_mem_of_not_mem hb hnl
  have hroom : size - 1 - front.length = size - front.length - 1 := by omega
  rw [fgets, if_neg (by simp [htail]), fgets, if_neg htail, Option.map_some]
  simp only [List.take_append, List.take_of_length_le (show front.length ≤ size - 1 by omega), hroom,
    List.takeWhile_append_of_pos hpos, List.dropWhile_append_of_pos hpos, List.append_assoc]

-- cpu user nice system idle iowait irq softirq steal guest guest_nice, on older kernels fewer of them
structure CpuLine where
  counters : List UInt64
  rest : Bytes

namespace CpuLine

def text (l : CpuLine) : Bytes :=
  utf8 "cpu " ++ l.counters.flatMap (fun n => 32 :: print n.toNat) ++ 10 :: l.rest

def jiffies (l : CpuLine) : UInt64 := (l.counters.take 8).foldr (· + ·) 0

section
variable {l : CpuLine} {files : ProcFs} {held : SystemStat} {cs : List UInt64} {s : Bytes}

theorem length_counters_le (cs : List UInt64) :
    (cs.flatMap fun n => 32 :: print n.toNat).length ≤ 21 * cs.length := by
  induction cs with
  | nil => simp
  | cons n cs ih =>
    have hdigits : (print n.toNat).length ≤ 20 := by
      have hlt := n.toNat_lt
      rw [print, List.length_map, Nat.length_toDigits_le_iff (by decide) (by decide)]
      omega
    simp only [List.flatMap_cons, List.length_append, List.length_cons]
    omega

theorem printable_counters {b : UInt8} (hb : isDigit b = false) (hspace : b ≠ 32) (cs : List UInt64) :
    b ∉ cs.flatMap fun n => 32 :: print n.toNat := by
  intro hmem
  obtain ⟨n, -, hn⟩ := List.mem_flatMap.mp hmem
  rcases List.mem_cons.mp hn with rfl | hn
  · exact hspace rfl
  · rw [isDigit_of_mem_print hn] at hb
    cases hb

theorem scan_buffer (hcs : cs.length ≤ 8) (hs : s ≠ []) (hhead : ∀ b ∈ s.head?, b ≠ 0 ∧ isDigit b = false) :
    ∃ t, NoDigit t ∧ (s.head? = some 10 → t = [10]) ∧
      (fgets 256 (utf8 "cpu " ++ cs.flatMap (fun n => 32 :: print n.toNat) ++ s)).map cString =
        some (utf8 "cpu " ++ cs.flatMap (fun n => 32 :: print n.toNat) ++ t) := by
  have hcpu : utf8 "cpu " = [99, 112, 117, 32] := rfl
  have hlength := length_counters_le cs
  have hfree {b : UInt8} (hb : isDigit b = false) (hblank : b ≠ 32) (hword : b ∉ utf8 "cpu ") :
      b ∉ utf8 "cpu " ++ cs.flatMap (fun n => 32 :: print n.toNat) := by
    rw [List.mem_append, not_or]
    exact ⟨hword, printable_counters hb hblank cs⟩
  have hfront : (utf8 "cpu " ++ cs.flatMap (fun n => 32 :: print n.toNat)).length < 200 := by
    rw [List.length_append, hcpu]
    simp only [List.length_cons, List.length_nil]
    omega
  rw [fgets_front (by omega) (hfree (by decide) (by decide) (by decide)) hs]
  generalize utf8 "cpu " ++ cs.flatMap (fun n => 32 :: print n.toNat) = front at *
  have hzero : ∀ b ∈ front, (decide (b ≠ 0)) = true := fun b hb => by
    simpa using ne_of_mem_of_not_mem hb (hfree (by decide) (by decide) (by decide))
  obtain ⟨b, s, rfl⟩ := List.exists_cons_of_ne_nil hs
  obtain ⟨hnul, hdigit⟩ := hhead b rfl
  obtain ⟨k, hk⟩ : ∃ k, 256 - front.length - 1 = k + 1 := ⟨254 - front.length, by omega⟩
  rw [fgets, if_neg hs]
  simp only [hk, List.take_succ_cons, Option.map_some, cString, List.takeWhile_append_of_pos hzero]
  by_cases hb : b = 10
  · subst hb
    exact ⟨[10], noDigit_cons.mpr (by decide), fun _ => rfl, by simp⟩
  · refine ⟨_, ?_, fun h => absurd (Option.some.inj h) hb, rfl⟩
    simp [hb, hnul, noDigit_cons, hdigit]

theorem scan_blank (n : Nat) (t : Bytes) : scan (counterDirectives n) (32 :: t) = scan (counterDirectives n) t := by
  cases n with
  | zero => rfl
  | succ n => exact scan_space

theorem scan_counters (cs : List UInt64) (n : Nat) {t : Bytes} (ht : NoDigit t) :
    scan ([.ordinary 99, .ordinary 112, .ordinary 117] ++ counterDirectives (cs.length + n))
      (utf8 "cpu " ++ cs.flatMap (fun n => 32 :: print n.toNat) ++ t) =
        ⟨cs ++ (scan (counterDirectives n) t).assigned, (scan (counterDirectives n) t).failure⟩ := by
  have hcpu : utf8 "cpu " = [99, 112, 117, 32] := rfl
  have hsplit : counterDirectives (cs.length + n) = counterDirectives cs.length ++ counterDirectives n := by
    rw [counterDirectives, List.replicate_add, List.flatten_append]
    rfl
  rw [hcpu]
  simp only [List.cons_append, List.nil_append, scan_ordinary, scan_blank]
  rw [hsplit]
  exact scan_unsignedLongLongs cs ht

theorem readSystemStat_of_scan {o : Outcome} {buf : Bytes} (h : files.fopen (utf8 "/proc/stat") = some l.text)
    (hbuf : (fgets 256 l.text).map cString = some buf) (ho : scan cpuDirectives buf = o) :
    readSystemStat files held = if o.rc < 4 then none else some (held.assign o.assigned) := by
  obtain ⟨line, hline, rfl⟩ := Option.map_eq_some_iff.mp hbuf
  rw [readSystemStat, h]
  dsimp only
  rw [hline]
  dsimp only
  rw [directives_cpuFormat, Option.map_some, ho]

theorem rc_lt_iff (o : Outcome) : o.rc < 4 ↔ o.assigned.length < 4 := by
  rw [Outcome.rc]
  split_ifs with h
  · simp [h.1]
  · omega

theorem readSystemStat_text (h : files.fopen (utf8 "/proc/stat") = some l.text) :
    readSystemStat files held =
      if l.counters.length < 4 then none else some (held.assign (l.counters.take 8)) := by
  have htext : l.text = utf8 "cpu " ++ (l.counters.take 8).flatMap (fun n => 32 :: print n.toNat) ++
      ((l.counters.drop 8).flatMap (fun n => 32 :: print n.toNat) ++ 10 :: l.rest) := by
    conv_lhs => rw [text, ← List.take_append_drop 8 l.counters]
    rw [List.flatMap_append, List.append_assoc, List.append_assoc, List.append_assoc]
  have htail : ∀ b ∈ ((l.counters.drop 8).flatMap (fun n => 32 :: print n.toNat) ++ 10 :: l.rest).head?,
      b ≠ 0 ∧ isDigit b = false := by
    intro b hb
    cases hdrop : l.counters.drop 8 with
    | nil =>
      obtain rfl : 10 = b := by simpa [hdrop] using hb
      decide
    | cons c cs =>
      obtain rfl : 32 = b := by simpa [hdrop] using hb
      decide
  obtain ⟨t, ht, hend, hbuf⟩ := scan_buffer (List.length_take_le 8 l.counters) (by simp) htail
  rw [← htext] at hbuf
  have hscan := scan_counters (l.counters.take 8) (8 - l.counters.length) ht
  rw [List.length_take, show min 8 l.counters.length + (8 - l.counters.length) = 8 by omega] at hscan
  have hrest : (scan (counterDirectives (8 - l.counters.length)) t).assigned = [] := by
    cases hn : 8 - l.counters.length with
    | zero => rfl
    | succ n =>
      have hnone : l.counters.drop 8 = [] := List.drop_eq_nil_of_le (by omega)
      rw [hend (by simp [hnone])]
      rfl
  rw [hrest, List.append_nil] at hscan
  rw [readSystemStat_of_scan h hbuf hscan]
  simp only [rc_lt_iff, List.length_take]
  congr 1
  simp only [eq_iff_iff]
  omega

theorem totalJiffies_assign (hcs : cs.length = 8) : (held.assign cs).totalJiffies = cs.foldr (· + ·) 0 := by
  match cs, hcs with
  | [a, b, c, d, e, f, g, i], _ =>
    simp [SystemStat.totalJiffies, SystemStat.assign, UInt64.add_assoc]

theorem readSystemStat_of_eight (h : files.fopen (utf8 "/proc/stat") = some l.text)
    (height : 8 ≤ l.counters.length) :
    (readSystemStat files held).map SystemStat.totalJiffies = some l.jiffies := by
  rw [readSystemStat_text h, if_neg (by omega), Option.map_some, totalJiffies_assign (by simp [height]), jiffies]

def Determined (files : ProcFs) (total : UInt64) : Prop :=
  ∀ held, (readSystemStat files held).map SystemStat.totalJiffies = some total

theorem eight_of_determined (h : files.fopen (utf8 "/proc/stat") = some l.text) {total : UInt64}
    (htotal : Determined files total) : 8 ≤ l.counters.length := by
  by_contra hfew
  have hread (steal : UInt64) := htotal ⟨0, 0, 0, 0, 0, 0, 0, steal⟩
  simp only [readSystemStat_text h] at hread
  split_ifs at hread with hfour
  · exact absurd (hread 0) (by simp)
  · -- two values of the last counter, which the line does not have
    have hlast (steal : UInt64) : (l.counters.take 8).getD 7 steal = steal := by
      rw [List.getD_eq_getElem?_getD, List.getElem?_eq_none (by rw [List.length_take]; omega), Option.getD_none]
    have hsame := (hread 0).trans (hread 1).symm
    simp only [Option.map_some, Option.some.injEq, SystemStat.totalJiffies, SystemStat.assign, hlast] at hsame
    exact absurd ((UInt64.add_right_inj _).mp hsame) (by decide)

theorem determined_total_iff (h : files.fopen (utf8 "/proc/stat") = some l.text) (total : UInt64) :
    Determined files total ↔ 8 ≤ l.counters.length ∧ total = l.jiffies := by
  constructor
  · intro htotal
    have height := eight_of_determined h htotal
    have hread := (htotal ⟨0, 0, 0, 0, 0, 0, 0, 0⟩).symm.trans (readSystemStat_of_eight h height)
    exact ⟨height, Option.some.inj hread⟩
  · rintro ⟨height, rfl⟩ held
    exact readSystemStat_of_eight h height

theorem determined_iff (h : files.fopen (utf8 "/proc/stat") = some l.text) :
    (∀ total, Determined files total ↔ 8 ≤ l.counters.length ∧ total = l.jiffies) ∧
      (4 ≤ l.counters.length → l.counters.length < 8 →
        ∀ held, readSystemStat files held = some (held.assign l.counters)) ∧
      (l.counters.length < 4 → ∀ held, readSystemStat files held = none) := by
  refine ⟨determined_total_iff h, fun hfour height held => ?_, fun hfew held => ?_⟩
  · rw [readSystemStat_text h, if_neg (by omega), List.take_of_length_le (by omega)]
  · rw [readSystemStat_text h, if_pos hfew]

end

def files (l : CpuLine) : ProcFs where
  opendir _ := none
  fopen path := if path = utf8 "/proc/stat" then some l.text else none

def ofCounters (counters : List UInt64) : CpuLine where
  counters
  rest := utf8 "cpu0 3357 0 4313 1362393\n"

theorem ten_counters_determined :
    Determined (ofCounters [3357, 0, 4313, 1362393, 0, 7, 12, 1, 5, 2]).files 1370083 ∧
      (∀ total, ¬ Determined (ofCounters [3357, 0, 4313, 1362393]).files total) ∧
      (∀ held, readSystemStat (ofCounters [3357, 0, 4313, 1362393]).files held =
        some { held with user := 3357, nice := 0, system := 4313, idle := 1362393 }) ∧
      ∀ held, readSystemStat (ofCounters [3357, 0, 4313]).files held = none := by
  have hopen (l : CpuLine) : l.files.fopen (utf8 "/proc/stat") = some l.text := rfl
  have hten := determined_iff (hopen (ofCounters [3357, 0, 4313, 1362393, 0, 7, 12, 1, 5, 2]))
  have hfour := determined_iff (hopen (ofCounters [3357, 0, 4313, 1362393]))
  have hthree := determined_iff (hopen (ofCounters [3357, 0, 4313]))
  refine ⟨(hten.1 _).mpr ⟨by decide, by decide⟩, fun total htotal => ?_, hfour.2.1 (by decide) (by decide),
    hthree.2.2 (by decide)⟩
  exact absurd ((hfour.1 total).mp htotal).1 (by decide)

end CpuLine

end PlatformHealth
