import PlatformHealth.Reporter.DataReporter

namespace PlatformHealth.DataReporter

open ByteString (utf8)
open FileStream

section
variable (dataDir : Bytes)

def openAfterAll (on : Option Bytes) (as : List Attempt) : Option Bytes := as.foldl (openAfter dataDir) on

def landings (on : Option Bytes) : List Attempt → List (Bytes × Record)
  | [] => []
  | a :: as =>
    match openAfter dataDir on a with
    | none => landings none as
    | some path => (path, a.record) :: landings (some path) as

-- the part of a batch up to the first record that dump() throws on
def turns (on : Option Bytes) : List Attempt → List Attempt
  | [] => []
  | a :: as =>
    if (openAfter dataDir on a).isSome ∧ ¬ a.record.IsText then [a]
    else a :: turns (openAfter dataDir on a) as

def allTurns (on : Option Bytes) : List Call → List Attempt
  | [] => []
  | c :: cs =>
    turns dataDir on c.attempts ++ allTurns (openAfterAll dataDir on (turns dataDir on c.attempts)) cs

end

section
variable {dataDir : Bytes} {on : Option Bytes} {a b : Attempt} {as bs : List Attempt} {path : Bytes}

theorem openAfterAll_cons :
    openAfterAll dataDir on (a :: as) = openAfterAll dataDir (openAfter dataDir on a) as := rfl

theorem landings_of_missed (h : openAfter dataDir on a = none) :
    landings dataDir on (a :: as) = landings dataDir none as := by
  rw [landings, h]

theorem landings_of_open (h : openAfter dataDir on a = some path) :
    landings dataDir on (a :: as) = (path, a.record) :: landings dataDir (some path) as := by
  rw [landings, h]

theorem landings_append :
    landings dataDir on (as ++ bs) = landings dataDir on as ++ landings dataDir (openAfterAll dataDir on as) bs := by
  induction as generalizing on with
  | nil => rfl
  | cons a as ih =>
    rw [List.cons_append]
    cases h : openAfter dataDir on a with
    | none => rw [landings_of_missed h, landings_of_missed h, ih, openAfterAll_cons, h]
    | some path => rw [landings_of_open h, landings_of_open h, ih, openAfterAll_cons, h, List.cons_append]

theorem mem_of_landings {l : Bytes × Record} (h : l ∈ landings dataDir on as) : ∃ a ∈ as, a.record = l.2 := by
  induction as generalizing on with
  | nil => cases h
  | cons a as ih =>
    cases hopen : openAfter dataDir on a with
    | none =>
      rw [landings_of_missed hopen] at h
      obtain ⟨b, hb, heq⟩ := ih h
      exact ⟨b, by simp [hb], heq⟩
    | some path =>
      rw [landings_of_open hopen] at h
      rcases List.mem_cons.mp h with rfl | h
      · exact ⟨a, by simp, rfl⟩
      · obtain ⟨b, hb, heq⟩ := ih h
        exact ⟨b, by simp [hb], heq⟩

theorem isPrefix_turns : turns dataDir on as <+: as := by
  induction as generalizing on with
  | nil => exact List.prefix_rfl
  | cons a as ih =>
    rw [turns]
    split
    · exact ⟨as, rfl⟩
    · exact List.cons_prefix_cons.mpr ⟨rfl, ih⟩

theorem turns_of_text (h : ∀ l ∈ landings dataDir on as, l.2.IsText) : turns dataDir on as = as := by
  induction as generalizing on with
  | nil => rfl
  | cons a as ih =>
    rw [turns]
    cases hopen : openAfter dataDir on a with
    | none =>
      rw [landings_of_missed hopen] at h
      rw [if_neg (by simp), ih h]
    | some path =>
      rw [landings_of_open hopen] at h
      obtain ⟨ha, has⟩ := List.forall_mem_cons.mp h
      rw [if_neg fun hthrows => hthrows.2 ha, ih has]

theorem mem_allTurns {calls : List Call} (h : a ∈ allTurns dataDir on calls) :
    a ∈ calls.flatMap Call.attempts := by
  induction calls generalizing on with
  | nil => cases h
  | cons c calls ih =>
    rw [List.flatMap_cons]
    rcases List.mem_append.mp h with h | h
    · exact List.mem_append_left _ (isPrefix_turns.subset h)
    · exact List.mem_append_right _ (ih h)

end

section
variable {dump : Dump} {record : Record}

theorem recordToJsonLine_eq_none_iff : recordToJsonLine dump record = none ↔ ¬ record.IsText := by
  rw [recordToJsonLine, Option.map_eq_none_iff, ← isSome_recordToJson, Option.not_isSome_iff_eq_none]

theorem line_eq_none (h : ¬ record.IsText) : line dump record = none := by
  rw [line, recordToJsonLine_eq_none_iff.mpr h, Option.map_none]

theorem exists_text (dump : Dump) (h : record.IsText) : ∃ text, recordToJsonLine dump record = some text := by
  cases htext : recordToJsonLine dump record with
  | none => exact absurd h (recordToJsonLine_eq_none_iff.mp htext)
  | some text => exact ⟨text, rfl⟩

theorem exists_line (dump : Dump) (h : record.IsText) : ∃ l, line dump record = some l := by
  obtain ⟨text, htext⟩ := exists_text dump h
  exact ⟨_, congrArg _ htext⟩

end

def Accepts (dump : Dump) (a : Attempt) : Prop := ∀ l ∈ line dump a.record, Takes a.room l

instance (dump : Dump) (a : Attempt) : Decidable (Accepts dump a) :=
  inferInstanceAs (Decidable (∀ l ∈ line dump a.record, Takes a.room l))

-- a record's line; where dump() throws there is none, and no line is shorter than a newline
def due (dump : Dump) (record : Record) : Bytes := (line dump record).getD [0x0A]

def written {F : Type} (fileOf : Bytes → F) (dump : Dump) (l : Bytes × Record) : F × Bytes :=
  (fileOf l.1, (line dump l.2).getD [])

section
variable {F : Type} {fileOf : Bytes → F} {dump : Dump} {l : Bytes × Record}

theorem due_ne_nil (dump : Dump) (record : Record) : due dump record ≠ [] := by
  unfold due line
  cases recordToJsonLine dump record <;> simp

theorem written_eq_due (h : l.2.IsText) : written fileOf dump l = (fileOf l.1, due dump l.2) := by
  obtain ⟨text, htext⟩ := exists_line dump h
  rw [written, due, htext]
  rfl

theorem written_of_not_isText (h : ¬ l.2.IsText) : written fileOf dump l = (fileOf l.1, []) := by
  rw [written, line_eq_none h]
  rfl

end

namespace Site

section
variable {F : Type} [DecidableEq F] {fileOf : Bytes → F} {dump : Dump} {dataDir : Bytes} {s : Site F}
  {a : Attempt} {as : List Attempt} {c : Call}

theorem name_run (h : Tied dataDir s.impl) (as : List Attempt) :
    (Runs.run (reported fileOf dump) s as).impl.fileStream.name = openAfterAll dataDir s.impl.fileStream.name as := by
  induction as generalizing s with
  | nil => rfl
  | cons a as ih => rw [Runs.run_cons, reported, ih (tied_report h a), name_report h, openAfterAll_cons]

theorem clean_report (hroom : Accepts dump a) (hclean : Clean s.impl) (h : Tied dataDir s.impl) :
    Clean (report fileOf dump s a).1.impl := by
  obtain ⟨-, heq⟩ | ⟨_, -, -, heq⟩ | ⟨_, text, -, htext, heq⟩ := report_cases fileOf dump h a
  · rw [heq]
    exact hclean.openFor h a
  · rw [heq]
    exact hclean.openFor h a
  · have htakes : Takes a.room (text ++ [0x0A]) := hroom _ (by rw [line, htext]; rfl)
    rw [heq, Clean, Impl.writeLine, write_of_takes htakes]
    exact hclean.openFor h a

theorem files_report (hroom : Accepts dump a) (hclean : Clean s.impl) (h : Tied dataDir s.impl) (f : F) :
    (report fileOf dump s a).1.files f =
      s.files f ++ contents ((landings dataDir s.impl.fileStream.name [a]).map (written fileOf dump)) f := by
  obtain ⟨hopen, heq⟩ | ⟨path, hopen, htext, heq⟩ | ⟨path, text, hopen, htext, heq⟩ := report_cases fileOf dump h a
  · rw [heq, landings_of_missed hopen]
    exact (List.append_nil _).symm
  · rw [heq, landings_of_open hopen]
    simp [landings, written, line, htext, contents]
  · have htakes : Takes a.room (text ++ [0x0A]) := hroom _ (by rw [line, htext]; rfl)
    have hname : (s.impl.openFor a).fileStream.name = some path := (name_openFor h a).trans hopen
    have hout := output_of_takes hname (hclean.openFor h a _ hname) htakes
    rw [heq, landings_of_open hopen, hout]
    change append s.files (fileOf path) (text ++ [0x0A]) f = _
    rw [append_apply]
    have hwritten : written fileOf dump (path, a.record) = (fileOf path, text ++ [0x0A]) := by
      rw [written, line, htext]
      rfl
    rw [List.map_cons, contents_cons, hwritten]
    simp [landings, contents]

theorem clean_run (hclean : Clean s.impl) (h : Tied dataDir s.impl) (hroom : ∀ a ∈ as, Accepts dump a) :
    Clean (Runs.run (reported fileOf dump) s as).impl := by
  refine (Runs.run_invariant_of_mem (P := fun s : Site F => Clean s.impl ∧ Tied dataDir s.impl) ?_
    ⟨hclean, h⟩).1
  intro s a ha ⟨hclean, h⟩
  exact ⟨clean_report (hroom a ha) hclean h, tied_report h a⟩

theorem contents_append (log log' : List (F × Bytes)) (f : F) :
    contents (log ++ log') f = contents log f ++ contents log' f := by
  simp [contents]

theorem files_run (hclean : Clean s.impl) (h : Tied dataDir s.impl) (hroom : ∀ a ∈ as, Accepts dump a) (f : F) :
    (Runs.run (reported fileOf dump) s as).files f =
      s.files f ++ contents ((landings dataDir s.impl.fileStream.name as).map (written fileOf dump)) f := by
  induction as generalizing s with
  | nil => simp [landings, contents]
  | cons a as ih =>
    obtain ⟨ha, has⟩ := List.forall_mem_cons.mp hroom
    have hsplit : landings dataDir s.impl.fileStream.name ([a] ++ as) = _ := landings_append
    rw [List.singleton_append] at hsplit
    rw [Runs.run_cons, reported, ih (clean_report ha hclean h) (tied_report h a) has, files_report ha hclean h,
      name_report h, hsplit, List.map_append, contents_append, List.append_assoc]
    rfl

theorem reportBatch_eq_run (h : Tied dataDir s.impl) (as : List Attempt) :
    (reportBatch fileOf dump s as).1 =
      Runs.run (reported fileOf dump) s (turns dataDir s.impl.fileStream.name as) := by
  induction as generalizing s with
  | nil => rfl
  | cons a as ih =>
    have hnext := ih (s := (report fileOf dump s a).1) (tied_report h a)
    rw [name_report h] at hnext
    rw [reportBatch, turns]
    obtain ⟨hopen, heq⟩ | ⟨path, hopen, htext, heq⟩ | ⟨path, text, hopen, htext, heq⟩ := report_cases fileOf dump h a
    · rw [heq, hopen] at hnext
      rw [heq, if_pos rfl, hopen, if_neg (by simp), Runs.run_cons, reported, heq, hnext]
    · have hthrows := recordToJsonLine_eq_none_iff.mp htext
      rw [heq, if_neg (by simp), hopen, if_pos ⟨rfl, hthrows⟩, Runs.run_cons, reported, heq, Runs.run_nil]
    · have htexts : a.record.IsText := by
        by_contra hthrows
        rw [recordToJsonLine_eq_none_iff.mpr hthrows] at htext
        cases htext
      rw [heq, hopen] at hnext
      rw [heq, if_pos rfl, hopen, if_neg fun hthrows => hthrows.2 htexts, Runs.run_cons, reported, heq, hnext]

theorem called_eq_run (h : Tied dataDir s.impl) (c : Call) :
    called fileOf dump s c = Runs.run (reported fileOf dump) s (turns dataDir s.impl.fileStream.name c.attempts) := by
  cases c with
  | report a =>
    have hone : turns dataDir s.impl.fileStream.name [a] = [a] := by
      rw [turns]
      split <;> rfl
    rw [Call.attempts, hone]
    rfl
  | reportBatch as => exact reportBatch_eq_run h as

theorem run_called (h : Tied dataDir s.impl) (calls : List Call) :
    Runs.run (called fileOf dump) s calls =
      Runs.run (reported fileOf dump) s (allTurns dataDir s.impl.fileStream.name calls) := by
  induction calls generalizing s with
  | nil => rfl
  | cons c calls ih =>
    have hnext : called fileOf dump s c = _ := called_eq_run h c
    rw [Runs.run_cons, ih (tied_called h c), allTurns, Runs.run_append, ← hnext, ← name_run h, ← hnext]

end

section
variable {F : Type} [DecidableEq F] (fileOf : Bytes → F) (dump : Dump)

-- a call appends the line of each of its records to the path that is open for it, and to no other one
def LandsOnce (s : Site F) (c : Call) : Prop := ∀ f,
  (called fileOf dump s c).files f = s.files f ++
    contents ((landings s.impl.dataDir s.impl.fileStream.name c.attempts).map fun l => (fileOf l.1, due dump l.2)) f

variable {fileOf dump} {dataDir : Bytes} {s : Site F} {c : Call}

theorem contents_turns_iff (on : Option Bytes) (as : List Attempt) :
    (∀ f, contents ((landings dataDir on (turns dataDir on as)).map (written fileOf dump)) f =
        contents ((landings dataDir on as).map fun l => (fileOf l.1, due dump l.2)) f) ↔
      ∀ l ∈ landings dataDir on as, l.2.IsText := by
  induction as generalizing on with
  | nil => exact iff_of_true (fun _ => rfl) (by rintro l ⟨⟩)
  | cons a as ih =>
    rw [turns]
    cases hopen : openAfter dataDir on a with
    | none =>
      rw [if_neg (by simp), landings_of_missed hopen, landings_of_missed hopen]
      exact ih none
    | some path =>
      by_cases htext : a.record.IsText
      · rw [if_neg fun hthrows => hthrows.2 htext, landings_of_open hopen, landings_of_open hopen,
          List.forall_mem_cons, ← ih (some path), and_iff_right htext]
        simp only [List.map_cons, contents_cons, written_eq_due (l := (path, a.record)) htext,
          List.append_cancel_left_eq]
      · rw [if_pos ⟨rfl, htext⟩, landings_of_open hopen, landings_of_open hopen, List.forall_mem_cons]
        refine iff_of_false (fun h => ?_) fun h => htext h.1
        have hfile := h (fileOf path)
        rw [List.map_cons, List.map_cons, written_of_not_isText (l := (path, a.record)) htext, contents_cons,
          contents_cons, if_pos rfl, if_pos rfl] at hfile
        exact due_ne_nil dump a.record (List.append_eq_nil_iff.mp hfile.symm).1

theorem landsOnce_iff (hclean : Clean s.impl) (h : Tied dataDir s.impl) (hroom : ∀ a ∈ c.attempts, Accepts dump a) :
    LandsOnce fileOf dump s c ↔ ∀ l ∈ landings dataDir s.impl.fileStream.name c.attempts, l.2.IsText := by
  rw [← @contents_turns_iff F _ fileOf dump, LandsOnce, h.dataDir]
  refine forall_congr' fun f => ?_
  rw [called_eq_run h, files_run hclean h fun a ha => hroom a (isPrefix_turns.subset ha), List.append_cancel_left_eq]

theorem each_landsOnce_iff {calls : List Call} (hclean : Clean s.impl) (h : Tied dataDir s.impl)
    (hroom : ∀ a ∈ calls.flatMap Call.attempts, Accepts dump a) :
    Runs.Each (called fileOf dump) (LandsOnce fileOf dump) s calls ↔
      ∀ l ∈ landings dataDir s.impl.fileStream.name (calls.flatMap Call.attempts), l.2.IsText := by
  induction calls generalizing s with
  | nil => exact iff_of_true trivial (by rintro l ⟨⟩)
  | cons c calls ih =>
    rw [List.flatMap_cons] at hroom ⊢
    obtain ⟨hc, hcalls⟩ := List.forall_mem_append.mp hroom
    rw [Runs.Each, landsOnce_iff hclean h hc, landings_append, List.forall_mem_append]
    refine and_congr_right fun htexts => ?_
    have hcalled : called fileOf dump s c = _ := called_eq_run h c
    rw [turns_of_text htexts] at hcalled
    rw [ih ?_ (tied_called h c) hcalls, hcalled, name_run h]
    rw [hcalled]
    exact clean_run hclean h hc

end

section
variable {F : Type} [DecidableEq F] (fileOf : Bytes → F) (dump : Dump) (dataDir : Bytes)
  (uploader : Option (List Record)) (files : FileStore F)

theorem each_record_lands_once_iff (calls : List Call)
    (hwrites : ∀ a ∈ calls.flatMap Call.attempts, Accepts dump a) :
    Runs.Each (called fileOf dump) (LandsOnce fileOf dump) (new dataDir uploader files) calls ↔
      ∀ l ∈ landings dataDir none (calls.flatMap Call.attempts), l.2.IsText :=
  each_landsOnce_iff (clean_new dataDir uploader files) (tied_new dataDir uploader files) hwrites

def sampleRecord : Record := { seName := utf8 "lidar", monitorName := utf8 "alive", monitorType := utf8 "alive" }

def sampleDump : Dump := fun _ =>
  ⟨utf8 "\x7b\"monitor\":\"alive\",\"se\":\"lidar\",\"state\":0,\"ts\":0,\"type\":\"alive\"\x7d",
    by decide +kernel⟩

def sampleAttempt : Attempt := { record := sampleRecord, tm := ⟨126, 0, 1, 12⟩ }

theorem open_stream_needs_no_open :
    let calls := [Call.report sampleAttempt, .reportBatch [{ sampleAttempt with opens := false }]]
    Runs.Each (called id sampleDump) (LandsOnce id sampleDump) (new (utf8 "/d") none fun _ => []) calls := by
  intro calls
  exact (each_record_lands_once_iff id sampleDump (utf8 "/d") none (fun _ => []) calls (by decide +kernel)).mpr
    (by decide +kernel)

def brokenAttempt : Attempt := { sampleAttempt with record := { sampleRecord with seName := [0xFF] } }

theorem broken_name_lands_nowhere :
    let calls := [Call.reportBatch [brokenAttempt, sampleAttempt]]
    let after := Runs.run (called id sampleDump) (new (utf8 "/d") none fun _ => []) calls
    after.impl.fileStream.name = some (utf8 "/d/" ++ 0xFF :: utf8 "/2026-01-01-12.jsonl") ∧
      after.files (utf8 "/d/lidar/2026-01-01-12.jsonl") = [] ∧
        ¬ Runs.Each (called id sampleDump) (LandsOnce id sampleDump) (new (utf8 "/d") none fun _ => []) calls := by
  intro calls after
  refine ⟨by decide +kernel, by decide +kernel, ?_⟩
  rintro ⟨hlands, -⟩
  exact absurd (hlands (utf8 "/d/lidar/2026-01-01-12.jsonl")) (by decide +kernel)

end

end Site

end PlatformHealth.DataReporter
