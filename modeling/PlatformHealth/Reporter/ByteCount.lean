import PlatformHealth.Library.RunningTotal
import PlatformHealth.Reporter.DataFiles

namespace PlatformHealth

def Tm.date (tm : Tm) : Int × Nat × Nat := (tm.tmYear, tm.tmMon, tm.tmMday)

namespace DataReporter.Site

open ByteString (utf8)
open FileStream RunningTotal

section
variable {F : Type} [DecidableEq F] {fileOf : Bytes → F} {dump : Dump} {dataDir : Bytes} {s : Site F}
  {a : Attempt} {as : List Attempt} {path text : Bytes}

def size (dump : Dump) (a : Attempt) : Nat := (due dump a.record).length

theorem size_pos (dump : Dump) (a : Attempt) : 0 < size dump a := List.length_pos_of_ne_nil (due_ne_nil dump a.record)

theorem size_of_text (h : recordToJsonLine dump a.record = some text) : size dump a = text.length + 1 := by
  rw [size, due, line, h]
  simp

theorem size_lt (dump : Dump) (a : Attempt) : size dump a < 2 ^ 64 := by
  cases htext : recordToJsonLine dump a.record with
  | none =>
    rw [size, due, line, htext]
    decide
  | some text =>
    obtain ⟨j, -, rfl⟩ := Option.map_eq_some_iff.mp htext
    have hfits : (dump j).val.length ≤ StdString.maxSize := (dump j).property
    unfold StdString.maxSize at hfits
    rw [size_of_text htext]
    omega

theorem todayBytes_report (h : Tied dataDir s.impl) (hopen : openAfter dataDir s.impl.fileStream.name a = some path)
    (htext : recordToJsonLine dump a.record = some text) :
    (report fileOf dump s a).1.todayBytes = s.todayBytes + UInt64.ofNat (size dump a) := by
  rw [report_of_text h hopen htext, size_of_text htext, UInt64.ofNat_add, todayBytes, Impl.writeLine,
    bytesToday_openFor]
  rfl

theorem todayBytes_run (h : Tied dataDir s.impl) (hwrites : ∀ a ∈ as, a.opens = true ∧ a.record.IsText) :
    (Runs.run (reported fileOf dump) s as).todayBytes = s.todayBytes + UInt64.ofNat (total (size dump) as) := by
  induction as generalizing s with
  | nil => simp [total]
  | cons a as ih =>
    obtain ⟨⟨hopens, htext⟩, hrest⟩ := List.forall_mem_cons.mp hwrites
    obtain ⟨text, htext⟩ := exists_text dump htext
    rw [Runs.run_cons, reported, ih (tied_report h a) hrest, todayBytes_report h (openAfter_of_opens hopens) htext,
      UInt64.add_assoc, ← UInt64.ofNat_add]
    rfl

-- an accepted record is in the file, and bytes_today_ has grown by what the file has
structure Honest (dump : Dump) (before after : Site F) (a : Attempt) (f : F) : Prop where
  kept : Accepts dump a → ∃ l, line dump a.record = some l ∧ after.files f = before.files f ++ l
  counted : after.todayBytes =
    before.todayBytes + UInt64.ofNat ((after.files f).length - (before.files f).length)

theorem honest_of_takes (h : Tied dataDir s.impl) (hclean : Clean s.impl)
    (hopen : openAfter dataDir s.impl.fileStream.name a = some path)
    (htext : recordToJsonLine dump a.record = some text) (hroom : Accepts dump a) :
    Honest dump s (reported fileOf dump s a) a (fileOf path) := by
  have hline : line dump a.record = some (text ++ [0x0A]) := by
    rw [line, htext]
    rfl
  have hfile : (reported fileOf dump s a).files (fileOf path) = s.files (fileOf path) ++ (text ++ [0x0A]) := by
    rw [reported, files_report hroom hclean h, landings_of_open hopen, List.map_cons, contents_cons, written, hline]
    simp [landings, contents]
  refine ⟨fun _ => ⟨_, hline, hfile⟩, ?_⟩
  rw [hfile, reported, todayBytes_report h hopen htext, size_of_text htext, List.length_append,
    Nat.add_sub_cancel_left, List.length_append]
  rfl

theorem takes_of_honest (h : Tied dataDir s.impl) (hopen : openAfter dataDir s.impl.fileStream.name a = some path)
    (hhonest : Honest dump s (reported fileOf dump s a) a (fileOf path)) : a.record.IsText ∧ Accepts dump a := by
  cases htext : recordToJsonLine dump a.record with
  | none =>
    have hline : line dump a.record = none := by rw [line, htext, Option.map_none]
    have haccepts : Accepts dump a := by
      intro l hl
      rw [hline] at hl
      cases hl
    obtain ⟨l, hl, -⟩ := hhonest.kept haccepts
    rw [hline] at hl
    cases hl
  | some text =>
    have htexts : a.record.IsText := by
      by_contra hthrows
      rw [recordToJsonLine_eq_none_iff.mpr hthrows] at htext
      cases htext
    refine ⟨htexts, fun l hl => ?_⟩
    obtain rfl : text ++ [0x0A] = l := by
      rw [line, htext] at hl
      exact Option.some.inj hl
    by_contra hroom
    have hcounted := hhonest.counted
    have hfiles : (reported fileOf dump s a).files = append s.files (fileOf path)
        ((s.impl.openFor a).fileStream.output a.room (text ++ [0x0A])) :=
      congrArg (fun r => r.1.files) (report_of_text h hopen htext)
    rw [reported, todayBytes_report h hopen htext, ← reported, hfiles, append_apply, if_pos rfl, List.length_append,
      Nat.add_sub_cancel_left] at hcounted
    have hoff := (UInt64.add_right_inj _).mp hcounted
    have hshort := length_output_lt (s := (s.impl.openFor a).fileStream) hroom
    rw [List.length_append, List.length_singleton, ← size_of_text htext] at hshort
    have hnat := congrArg UInt64.toNat hoff
    rw [UInt64.toNat_ofNat_of_lt' (size_lt dump a),
      UInt64.toNat_ofNat_of_lt' (hshort.trans (size_lt dump a))] at hnat
    exact absurd hnat (Nat.ne_of_gt hshort)

theorem each_honest_iff (h : Tied dataDir s.impl) (hclean : Clean s.impl)
    (hone : ∀ a ∈ as, filename dataDir a = path ∧ a.opens = true) :
    Runs.Each (reported fileOf dump) (fun s a => Honest dump s (reported fileOf dump s a) a (fileOf path)) s as ↔
      ∀ a ∈ as, a.record.IsText ∧ Accepts dump a := by
  induction as generalizing s with
  | nil => simp [Runs.Each]
  | cons a as ih =>
    obtain ⟨⟨rfl, hopens⟩, hrest⟩ := List.forall_mem_cons.mp hone
    have hopen : openAfter dataDir s.impl.fileStream.name a = some (filename dataDir a) := openAfter_of_opens hopens
    rw [Runs.Each, List.forall_mem_cons]
    constructor
    · rintro ⟨hhonest, heach⟩
      obtain ⟨htext, hroom⟩ := takes_of_honest h hopen hhonest
      exact ⟨⟨htext, hroom⟩, (ih (tied_report h a) (clean_report hroom hclean h) hrest).mp heach⟩
    · rintro ⟨⟨htexts, hroom⟩, hrooms⟩
      obtain ⟨text, htext⟩ := exists_text dump htexts
      exact ⟨honest_of_takes h hclean hopen htext hroom,
        (ih (tied_report h a) (clean_report hroom hclean h) hrest).mpr hrooms⟩

theorem files_of_fail (h : Tied dataDir s.impl) (hname : s.impl.fileStream.name = some path)
    (hfail : s.impl.fileStream.fail = true) (hone : ∀ a ∈ as, filename dataDir a = path) :
    (Runs.run (reported fileOf dump) s as).files = s.files := by
  induction as generalizing s with
  | nil => rfl
  | cons a as ih =>
    obtain ⟨rfl, hrest⟩ := List.forall_mem_cons.mp hone
    have hopened : s.impl.openFor a = s.impl := openFor_of_open h hname
    have hstill : (reported fileOf dump s a).impl.fileStream.name = some (filename dataDir a) := by
      rw [reported, name_report h, openAfter, if_pos (.inl hname)]
    have hkept : (reported fileOf dump s a).files = s.files ∧
        (reported fileOf dump s a).impl.fileStream.fail = true := by
      unfold reported
      obtain ⟨-, heq⟩ | ⟨_, -, -, heq⟩ | ⟨path, text, -, -, heq⟩ := report_cases fileOf dump h a
      · rw [heq, hopened]
        exact ⟨rfl, hfail⟩
      · rw [heq, hopened]
        exact ⟨rfl, hfail⟩
      · rw [heq, hopened, output_of_fail hfail]
        refine ⟨?_, by simp [Impl.writeLine, OFStream.write, hfail]⟩
        funext f
        change append s.files (fileOf path) [] f = _
        rw [append_apply, ite_self, List.append_nil]
    have hnext : Tied dataDir (reported fileOf dump s a).impl := tied_report h a
    rw [Runs.run_cons, ih hnext hstill hkept.2 hrest, hkept.1]

end

section
variable {F : Type} [DecidableEq F] (fileOf : Bytes → F) (dump : Dump) (dataDir : Bytes)
  (uploader : Option (List Record)) (files : FileStore F) (as : List Attempt)

theorem failed_write_costs_only_itself_iff (name : Bytes) (tm : Tm)
    (hone : ∀ a ∈ as, a.record.seName = name ∧ a.tm = tm) (hopens : ∀ a ∈ as, a.opens = true) :
    Runs.Each (reported fileOf dump)
        (fun s a => Honest dump s (reported fileOf dump s a) a (fileOf (getHourlyFilename dataDir name tm)))
        (new dataDir uploader files) as ↔
      ∀ a ∈ as, a.record.IsText ∧ Accepts dump a := by
  refine each_honest_iff (tied_new dataDir uploader files) (clean_new dataDir uploader files) fun a ha => ?_
  obtain ⟨hname, htm⟩ := hone a ha
  exact ⟨by rw [filename, hname, htm], hopens a ha⟩

theorem accepted_write_counted :
    let as := [{ sampleAttempt with room := some 100 }]
    Runs.Each (reported id sampleDump)
      (fun s a => Honest sampleDump s (reported id sampleDump s a) a (utf8 "/d/lidar/2026-01-01-12.jsonl"))
      (new (utf8 "/d") none fun _ => []) as := by
  intro as
  have hpath : getHourlyFilename (utf8 "/d") (utf8 "lidar") ⟨126, 0, 1, 12⟩ =
      utf8 "/d/lidar/2026-01-01-12.jsonl" := by decide +kernel
  have hone : ∀ a ∈ as, a.record.seName = utf8 "lidar" ∧ a.tm = ⟨126, 0, 1, 12⟩ := by
    intro a ha
    rw [List.mem_singleton.mp ha]
    exact ⟨rfl, rfl⟩
  rw [← hpath]
  exact (failed_write_costs_only_itself_iff id sampleDump (utf8 "/d") none (fun _ => []) as (utf8 "lidar")
    ⟨126, 0, 1, 12⟩ hone (by decide)).mpr (by decide +kernel)

theorem full_moment_silences_the_hour :
    let as := [{ sampleAttempt with room := some 0 }, sampleAttempt]
    let after := Runs.run (reported id sampleDump) (new (utf8 "/d") none fun _ => []) as
    after.files (utf8 "/d/lidar/2026-01-01-12.jsonl") = [] ∧
      after.todayBytes.toNat = 2 * size sampleDump sampleAttempt ∧
      ¬ Runs.Each (reported id sampleDump)
        (fun s a => Honest sampleDump s (reported id sampleDump s a) a (utf8 "/d/lidar/2026-01-01-12.jsonl"))
        (new (utf8 "/d") none fun _ => []) as := by
  intro as after
  refine ⟨by decide +kernel, by decide +kernel, ?_⟩
  rintro ⟨-, hsecond, -⟩
  obtain ⟨l, hl, hfile⟩ := hsecond.kept (by decide +kernel)
  have hline : line sampleDump sampleAttempt.record = some (due sampleDump sampleAttempt.record) := by decide +kernel
  rw [Option.some.inj (hl.symm.trans hline)] at hfile
  exact absurd hfile (by decide +kernel)

theorem todayBytes_iff (hwrites : ∀ a ∈ as, a.opens = true ∧ a.record.IsText) :
    (∀ pre a post, as = pre ++ a :: post →
        (Runs.run (reported fileOf dump) (new dataDir uploader files) (pre ++ [a])).todayBytes.toNat =
          totalIn (size dump) (·.tm.date) a.tm.date (pre ++ [a])) ↔
      (∀ a ∈ as, ∀ b ∈ as, a.tm.date = b.tm.date) ∧ total (size dump) as < 2 ^ 64 := by
  rw [← exact_iff_same_period (size_pos dump) (size_lt dump) (by decide)]
  refine forall₄_congr fun pre a post heq => ?_
  have hpre : ∀ b ∈ pre ++ [a], b.opens = true ∧ b.record.IsText := by
    intro b hb
    refine hwrites b ?_
    rw [heq]
    rcases List.mem_append.mp hb with hb | hb
    · simp [hb]
    · simp [List.mem_singleton.mp hb]
  have hcount : (Runs.run (reported fileOf dump) (new dataDir uploader files) (pre ++ [a])).todayBytes.toNat =
      total (size dump) (pre ++ [a]) % 2 ^ 64 := by
    rw [todayBytes_run (tied_new dataDir uploader files) hpre]
    change (0 + UInt64.ofNat _).toNat = _
    rw [UInt64.zero_add, UInt64.toNat_ofNat']
  rw [hcount]

theorem one_day_counted :
    let as := [sampleAttempt, { sampleAttempt with tm := ⟨126, 0, 1, 13⟩ }]
    (Runs.run (reported id sampleDump) (new (utf8 "/d") none fun _ => []) as).todayBytes.toNat =
      totalIn (size sampleDump) (·.tm.date) (126, 0, 1) as := by
  intro as
  exact (todayBytes_iff id sampleDump (utf8 "/d") none (fun _ => []) as (by decide +kernel)).mpr (by decide +kernel)
    [sampleAttempt] { sampleAttempt with tm := ⟨126, 0, 1, 13⟩ } [] rfl

theorem midnight_not_noticed :
    let next : Attempt := { sampleAttempt with tm := ⟨126, 0, 2, 0⟩ }
    (Runs.run (reported id sampleDump) (new (utf8 "/d") none fun _ => []) [sampleAttempt, next]).todayBytes.toNat =
        2 * size sampleDump sampleAttempt ∧
      totalIn (size sampleDump) (·.tm.date) next.tm.date [sampleAttempt, next] =
        size sampleDump sampleAttempt ∧
      ¬ ∀ pre a post, [sampleAttempt, next] = pre ++ a :: post →
        (Runs.run (reported id sampleDump) (new (utf8 "/d") none fun _ => []) (pre ++ [a])).todayBytes.toNat =
          totalIn (size sampleDump) (·.tm.date) a.tm.date (pre ++ [a]) := by
  intro next
  refine ⟨by decide +kernel, by decide +kernel, fun h => ?_⟩
  exact absurd (h [sampleAttempt] next [] rfl) (by decide +kernel)

end

end DataReporter.Site

end PlatformHealth
