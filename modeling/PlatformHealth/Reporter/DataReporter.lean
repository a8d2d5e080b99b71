import PlatformHealth.Library.Decimal
import PlatformHealth.Library.FileStream
import PlatformHealth.Library.Json.Value
import PlatformHealth.Library.Runs
import PlatformHealth.Library.StdString
import PlatformHealth.StateMachine

namespace PlatformHealth

open ByteString (decode utf8)
open Decimal (print printInt)
open FileStream

-- what localtime_r fills in
structure Tm where
  tmYear : Int
  tmMon : Nat
  tmMday : Nat
  tmHour : Nat

def setw2 (n : Nat) : Bytes := if (print n).length < 2 then 0x30 :: print n else print n

def hourFile (tm : Tm) : Bytes :=
  printInt (1900 + tm.tmYear) ++ 0x2D :: (setw2 (tm.tmMon + 1) ++ 0x2D :: (setw2 tm.tmMday ++
    0x2D :: (setw2 tm.tmHour ++ utf8 ".jsonl")))

def getHourlyFilename (dataDir seName : Bytes) (tm : Tm) : Bytes :=
  dataDir ++ 0x2F :: (seName ++ 0x2F :: hourFile tm)

namespace DataReporter

-- a DataRecord by its bytes; a metric that is none is a double, but not a finite one
structure Record where
  seName : Bytes := []
  monitorName : Bytes := []
  monitorType : Bytes := []
  state : SeState := .init
  timestampMs : Int64 := 0
  metrics : Std.ExtTreeMap Bytes (Option ℚ) compare := ∅
  rawData : Bytes := []

-- dump() throws on a text that is not UTF-8
structure Record.IsText (record : Record) : Prop where
  seName : (decode record.seName).isSome
  monitorName : (decode record.monitorName).isSome
  monitorType : (decode record.monitorType).isSome
  metrics : ∀ m ∈ record.metrics.toList, (decode m.1).isSome
  rawData : (decode record.rawData).isSome

def metricToJson (value : Option ℚ) : Json := value.elim .null .float

def metricsToJson (metrics : Std.ExtTreeMap Bytes (Option ℚ) compare) : Option (List (String × Json)) :=
  metrics.toList.mapM fun m => (decode m.1).map fun key => (key, metricToJson m.2)

def recordToJson (record : Record) : Option Json := do
  let seName ← decode record.seName
  let monitorName ← decode record.monitorName
  let monitorType ← decode record.monitorType
  let metrics ← metricsToJson record.metrics
  let rawData ← decode record.rawData
  return .ofMembers <|
    [("se", .string seName), ("monitor", .string monitorName), ("type", .string monitorType),
      ("state", .integer (Int64.ofNat (seStateToIndex record.state))), ("ts", .integer record.timestampMs)] ++
    (if record.metrics.isEmpty then [] else [("metrics", .ofMembers metrics)]) ++
    if record.rawData = [] then [] else [("raw", .string rawData)]

section
variable {record : Record}

theorem isSome_metricsToJson (metrics : Std.ExtTreeMap Bytes (Option ℚ) compare) :
    (metricsToJson metrics).isSome ↔ ∀ m ∈ metrics.toList, (decode m.1).isSome := by
  unfold metricsToJson
  induction metrics.toList with
  | nil => simp
  | cons m rest ih =>
    rw [List.forall_mem_cons, ← ih, List.mapM_cons]
    cases decode m.1 with
    | none => simp
    | some key => cases rest.mapM fun m => (decode m.1).map fun key => (key, metricToJson m.2) <;> simp

theorem isSome_recordToJson : (recordToJson record).isSome ↔ record.IsText := by
  constructor
  · intro h
    obtain ⟨j, hj⟩ := Option.isSome_iff_exists.mp h
    simp only [recordToJson, bind, Option.bind_eq_some_iff] at hj
    obtain ⟨a, ha, b, hb, c, hc, m, hm, d, hd, -⟩ := hj
    exact ⟨by simp [ha], by simp [hb], by simp [hc], (isSome_metricsToJson _).mp (by simp [hm]), by simp [hd]⟩
  · intro h
    obtain ⟨a, ha⟩ := Option.isSome_iff_exists.mp h.seName
    obtain ⟨b, hb⟩ := Option.isSome_iff_exists.mp h.monitorName
    obtain ⟨c, hc⟩ := Option.isSome_iff_exists.mp h.monitorType
    obtain ⟨m, hm⟩ := Option.isSome_iff_exists.mp ((isSome_metricsToJson _).mpr h.metrics)
    obtain ⟨d, hd⟩ := Option.isSome_iff_exists.mp h.rawData
    simp [recordToJson, ha, hb, hc, hm, hd]

instance : DecidablePred Record.IsText := fun _ => decidable_of_iff _ isSome_recordToJson

end

-- what json::dump() gives is a std::string
abbrev Dump := Json → {text : Bytes // text.length ≤ StdString.maxSize}

section
variable (dump : Dump)

def recordToJsonLine (record : Record) : Option Bytes := (recordToJson record).map fun j => (dump j).val

def line (record : Record) : Option Bytes := (recordToJsonLine dump record).map (· ++ [0x0A])

end

-- a call of report(): the clock it reads, whether the file can be opened, the bytes that the
-- device takes of it before it fails, whether the uploader is available
structure Attempt where
  record : Record
  tm : Tm
  opens : Bool := true
  room : Option Nat := none
  available : Bool := false

inductive Call where
  | report (a : Attempt)
  | reportBatch (as : List Attempt)

def Call.attempts : Call → List Attempt
  | .report a => [a]
  | .reportBatch as => as

-- uploader lists the records it was given
structure Impl where
  dataDir : Bytes
  currentFilename : Bytes := []
  fileStream : OFStream Bytes := {}
  uploader : Option (List Record) := none
  bytesToday : UInt64 := 0

-- what ensureDir() answers is not looked at
def Impl.openFile (d : Impl) (filename : Bytes) (opens : Bool) : Impl :=
  if d.fileStream.isOpen && d.currentFilename = filename then d
  else
    let stream := d.fileStream.close.openAppend filename opens
    { d with
      fileStream := stream
      currentFilename := if stream.isOpen then filename else d.currentFilename }

-- the rest of report() when a file is open
def Impl.writeLine (d : Impl) (a : Attempt) (text : Bytes) : Impl :=
  { d with
    fileStream := d.fileStream.write a.room (text ++ [0x0A])
    bytesToday := d.bytesToday + (UInt64.ofNat text.length + 1)
    uploader := if a.available then d.uploader.map (· ++ [a.record]) else d.uploader }

-- the reporter and the files it writes to; fileOf is the file that a path leads to
structure Site (F : Type) where
  impl : Impl
  files : FileStore F

def Impl.openFor (d : Impl) (a : Attempt) : Impl :=
  d.openFile (getHourlyFilename d.dataDir a.record.seName a.tm) a.opens

namespace Site

section
variable {F : Type} [DecidableEq F] (fileOf : Bytes → F) (dump : Dump)

-- false where dump() throws, with the file open
def report (s : Site F) (a : Attempt) : Site F × Bool :=
  let d := s.impl.openFor a
  match d.fileStream.name with
  | none => ({ s with impl := d }, true)
  | some name =>
    match recordToJsonLine dump a.record with
    | none => ({ s with impl := d }, false)
    | some text =>
      ({ impl := d.writeLine a text
         files := append s.files (fileOf name) (d.fileStream.output a.room (text ++ [0x0A])) }, true)

def reportBatch (s : Site F) : List Attempt → Site F × Bool
  | [] => (s, true)
  | a :: as =>
    let r := report fileOf dump s a
    if r.2 then reportBatch r.1 as else r

def call (s : Site F) : Call → Site F × Bool
  | .report a => report fileOf dump s a
  | .reportBatch as => reportBatch fileOf dump s as

def reported (s : Site F) (a : Attempt) : Site F := (report fileOf dump s a).1

def called (s : Site F) (c : Call) : Site F := (call fileOf dump s c).1

def todayBytes (s : Site F) : UInt64 := s.impl.bytesToday

end

def new {F : Type} (dataDir : Bytes) (uploader : Option (List Record)) (files : FileStore F) : Site F where
  impl := { dataDir, uploader }
  files

end Site

def filename (dataDir : Bytes) (a : Attempt) : Bytes := getHourlyFilename dataDir a.record.seName a.tm

def openAfter (dataDir : Bytes) (on : Option Bytes) (a : Attempt) : Option Bytes :=
  if on = some (filename dataDir a) ∨ a.opens = true then some (filename dataDir a) else none

-- the path that the stream is open on is the cached one
structure Tied (dataDir : Bytes) (d : Impl) : Prop where
  dataDir : d.dataDir = dataDir
  stream : ∀ name, d.fileStream.name = some name → d.currentFilename = name

def Clean (d : Impl) : Prop := ∀ name, d.fileStream.name = some name → d.fileStream.fail = false

section
variable {dataDir path : Bytes} {on : Option Bytes} {d : Impl} {a : Attempt}

theorem openAfter_of_opens (h : a.opens = true) : openAfter dataDir on a = some (filename dataDir a) :=
  if_pos (.inr h)

theorem openAfter_eq (h : openAfter dataDir on a = some path) : path = filename dataDir a := by
  unfold openAfter at h
  split at h
  · exact (Option.some.inj h).symm
  · cases h

theorem openFor_of_open (h : Tied dataDir d) (hopen : d.fileStream.name = some (filename dataDir a)) :
    d.openFor a = d := by
  have hcurrent := h.stream _ hopen
  unfold filename at hcurrent hopen
  simp [Impl.openFor, Impl.openFile, OFStream.isOpen, hopen, hcurrent, h.dataDir]

theorem openFor_of_not_open (h : Tied dataDir d) (hopen : d.fileStream.name ≠ some (filename dataDir a)) :
    d.openFor a =
      { d with
        fileStream := if a.opens then { name := some (filename dataDir a) } else { fail := true }
        currentFilename := if a.opens then filename dataDir a else d.currentFilename } := by
  have hreuse : (d.fileStream.isOpen && decide (d.currentFilename = filename dataDir a)) = false := by
    cases hname : d.fileStream.name with
    | none => simp [OFStream.isOpen, hname]
    | some name =>
      rw [hname, ← h.stream name hname] at hopen
      simpa [OFStream.isOpen, hname] using hopen
  have hopens : d.openFor a = d.openFile (filename dataDir a) a.opens := by
    rw [Impl.openFor, h.dataDir, filename]
  rw [hopens, Impl.openFile, hreuse]
  cases a.opens <;> rfl

theorem name_openFor (h : Tied dataDir d) (a : Attempt) :
    (d.openFor a).fileStream.name = openAfter dataDir d.fileStream.name a := by
  by_cases hopen : d.fileStream.name = some (filename dataDir a)
  · rw [openFor_of_open h hopen, openAfter, if_pos (.inl hopen), hopen]
  · rw [openFor_of_not_open h hopen, openAfter]
    cases a.opens <;> simp [hopen]

theorem Tied.openFor (h : Tied dataDir d) (a : Attempt) : Tied dataDir (d.openFor a) := by
  by_cases hopen : d.fileStream.name = some (filename dataDir a)
  · rwa [openFor_of_open h hopen]
  · rw [openFor_of_not_open h hopen]
    refine ⟨h.dataDir, fun name hname => ?_⟩
    cases hopens : a.opens with
    | false =>
      rw [hopens] at hname
      cases hname
    | true =>
      rw [hopens] at hname
      exact Option.some.inj hname

theorem Clean.openFor (hclean : Clean d) (h : Tied dataDir d) (a : Attempt) : Clean (d.openFor a) := by
  by_cases hopen : d.fileStream.name = some (filename dataDir a)
  · rwa [openFor_of_open h hopen]
  · rw [openFor_of_not_open h hopen]
    intro name hname
    cases hopens : a.opens with
    | false =>
      rw [hopens] at hname
      cases hname
    | true => rfl

theorem bytesToday_openFor (d : Impl) (a : Attempt) : (d.openFor a).bytesToday = d.bytesToday := by
  unfold Impl.openFor Impl.openFile
  split <;> rfl

end

namespace Site

theorem tied_new {F : Type} (dataDir : Bytes) (uploader : Option (List Record)) (files : FileStore F) :
    Tied dataDir (new dataDir uploader files).impl :=
  ⟨rfl, fun _ hname => by cases hname⟩

theorem clean_new {F : Type} (dataDir : Bytes) (uploader : Option (List Record)) (files : FileStore F) :
    Clean (new dataDir uploader files).impl := fun _ hname => by cases hname

section
variable {F : Type} [DecidableEq F] {fileOf : Bytes → F} {dump : Dump} {dataDir : Bytes} {s : Site F}
  {a : Attempt} {path text : Bytes}

theorem report_of_missed (h : Tied dataDir s.impl) (hmissed : openAfter dataDir s.impl.fileStream.name a = none) :
    report fileOf dump s a = ({ s with impl := s.impl.openFor a }, true) := by
  rw [report, name_openFor h, hmissed]

theorem report_of_thrown (h : Tied dataDir s.impl) (hopen : openAfter dataDir s.impl.fileStream.name a = some path)
    (hthrows : recordToJsonLine dump a.record = none) :
    report fileOf dump s a = ({ s with impl := s.impl.openFor a }, false) := by
  rw [report, name_openFor h, hopen, hthrows]

theorem report_of_text (h : Tied dataDir s.impl) (hopen : openAfter dataDir s.impl.fileStream.name a = some path)
    (htext : recordToJsonLine dump a.record = some text) :
    report fileOf dump s a =
      ({ impl := (s.impl.openFor a).writeLine a text
         files := append s.files (fileOf path) ((s.impl.openFor a).fileStream.output a.room (text ++ [0x0A])) },
        true) := by
  rw [report, name_openFor h, hopen, htext]

theorem report_cases (fileOf : Bytes → F) (dump : Dump) (h : Tied dataDir s.impl) (a : Attempt) :
    (openAfter dataDir s.impl.fileStream.name a = none ∧
        report fileOf dump s a = ({ s with impl := s.impl.openFor a }, true)) ∨
      (∃ path, openAfter dataDir s.impl.fileStream.name a = some path ∧
        recordToJsonLine dump a.record = none ∧
          report fileOf dump s a = ({ s with impl := s.impl.openFor a }, false)) ∨
      ∃ path text, openAfter dataDir s.impl.fileStream.name a = some path ∧
        recordToJsonLine dump a.record = some text ∧
          report fileOf dump s a =
            ({ impl := (s.impl.openFor a).writeLine a text
               files := append s.files (fileOf path)
                ((s.impl.openFor a).fileStream.output a.room (text ++ [0x0A])) }, true) := by
  cases hopen : openAfter dataDir s.impl.fileStream.name a with
  | none => exact .inl ⟨rfl, report_of_missed h hopen⟩
  | some path =>
    cases htext : recordToJsonLine dump a.record with
    | none => exact .inr (.inl ⟨path, rfl, rfl, report_of_thrown h hopen htext⟩)
    | some text => exact .inr (.inr ⟨path, text, rfl, rfl, report_of_text h hopen htext⟩)

theorem tied_report (h : Tied dataDir s.impl) (a : Attempt) : Tied dataDir (report fileOf dump s a).1.impl := by
  obtain ⟨-, heq⟩ | ⟨_, -, -, heq⟩ | ⟨_, _, -, -, heq⟩ := report_cases fileOf dump h a
  · rw [heq]
    exact h.openFor a
  · rw [heq]
    exact h.openFor a
  · rw [heq]
    exact ⟨(h.openFor a).dataDir, (h.openFor a).stream⟩

theorem name_report (h : Tied dataDir s.impl) (a : Attempt) :
    (report fileOf dump s a).1.impl.fileStream.name = openAfter dataDir s.impl.fileStream.name a := by
  rw [← name_openFor h]
  obtain ⟨-, heq⟩ | ⟨_, -, -, heq⟩ | ⟨_, _, -, -, heq⟩ := report_cases fileOf dump h a <;> rw [heq]
  rfl

theorem tied_reportBatch (h : Tied dataDir s.impl) (as : List Attempt) :
    Tied dataDir (reportBatch fileOf dump s as).1.impl := by
  induction as generalizing s with
  | nil => exact h
  | cons a as ih =>
    rw [reportBatch]
    split
    · exact ih (tied_report h a)
    · exact tied_report h a

theorem tied_called (h : Tied dataDir s.impl) (c : Call) : Tied dataDir (called fileOf dump s c).impl := by
  cases c with
  | report a => exact tied_report h a
  | reportBatch as => exact tied_reportBatch h as

end

end Site

end DataReporter

end PlatformHealth
