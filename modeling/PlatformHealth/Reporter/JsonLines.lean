import PlatformHealth.Library.Json.Printing
import PlatformHealth.Library.TreeMap
import PlatformHealth.Reporter.DataFiles

namespace PlatformHealth

open ByteString (decode utf8 utf8_injective eq_utf8_of_decode)
open FileStream
open Json (Grisu2 Printable Shortest)

-- json::dump() over the digits that grisu2() finds, where the text fits a std::string
def jsonDump (grisu2 : Grisu2) : DataReporter.Dump := fun v =>
  if h : (Json.dump grisu2 v).length ≤ StdString.maxSize then ⟨Json.dump grisu2 v, h⟩
  else ⟨[], Nat.zero_le _⟩

def jsonDocuments (file : List UInt8) : Option (List Json) :=
  if (file.splitOn 0x0A).getLast? = some [] then
    (file.splitOn 0x0A).dropLast.mapM fun line => (Json.parse true line).toOption
  else none

namespace DataReporter

namespace Record

def stateOfIndex : Nat → Option SeState
  | 0 => some .init
  | 1 => some .running
  | 2 => some .suspect
  | 3 => some .warn
  | 4 => some .error
  | 5 => some .fatal
  | _ => none

def text? : Json → Option Bytes
  | .string s => some (utf8 s)
  | _ => none

def whole? : Json → Option Int64
  | .unsigned n => some (Int64.ofNat n.toNat)
  | .integer n => some n
  | _ => none

def metric? : String × Json → Option (Bytes × Option ℚ)
  | (name, .float q) => some (utf8 name, some q)
  | (name, .null) => some (utf8 name, none)
  | _ => none

def metrics? : Json → Option (Std.ExtTreeMap Bytes (Option ℚ) compare)
  | .object members => (members.mapM metric?).map (.ofList · compare)
  | _ => none

def ofJson (j : Json) : Option Record := do
  let seName ← text? (← j.member "se")
  let monitorName ← text? (← j.member "monitor")
  let monitorType ← text? (← j.member "type")
  let state ← stateOfIndex (← whole? (← j.member "state")).toNatClampNeg
  let timestampMs ← whole? (← j.member "ts")
  let metrics ← (j.member "metrics").elim (some ∅) metrics?
  let rawData ← (j.member "raw").elim (some []) text?
  return { seName, monitorName, monitorType, state, timestampMs, metrics, rawData }

-- finite metrics are doubles that grisu2() gets right
def Writable (grisu2 : Grisu2) (record : Record) : Prop :=
  ∀ m ∈ record.metrics.toList, ∀ q ∈ m.2, q = 0 ∨ Shortest grisu2 |q|

section
variable {grisu2 : Grisu2} {record : Record} {j : Json} {entries : List (String × Json)}
  {metrics : Std.ExtTreeMap Bytes (Option ℚ) compare}

theorem exists_texts (h : metricsToJson metrics = some entries) : ∃ texts : List (String × Option ℚ),
    metrics.toList = texts.map (fun t => (utf8 t.1, t.2)) ∧ entries = texts.map fun t => (t.1, metricToJson t.2) := by
  unfold metricsToJson at h
  generalize metrics.toList = list at h
  induction list generalizing entries with
  | nil =>
    cases h
    exact ⟨[], rfl, rfl⟩
  | cons m rest ih =>
    simp only [List.mapM_cons, bind, Option.bind_eq_some_iff, Option.map_eq_some_iff] at h
    obtain ⟨-, ⟨name, hname, rfl⟩, others, hothers, hentries⟩ := h
    cases hentries
    obtain ⟨texts, rfl, rfl⟩ := ih hothers
    exact ⟨(name, m.2) :: texts, by rw [List.map_cons, ← eq_utf8_of_decode hname], rfl⟩

theorem metrics_settled (h : metricsToJson metrics = some entries) :
    metrics? (Json.ofMembers entries).settled = some metrics := by
  obtain ⟨texts, hlist, rfl⟩ := exists_texts h
  have hnames : (texts.map Prod.fst).Nodup := by
    have hdistinct : (texts.map fun t => (utf8 t.1, t.2)).Pairwise fun a b => ¬ compare a.1 b.1 = .eq := by
      rw [← hlist]
      exact Std.ExtTreeMap.distinct_keys_toList
    rw [List.Nodup, List.pairwise_map]
    rw [List.pairwise_map] at hdistinct
    refine hdistinct.imp fun hne heq => hne ?_
    rw [heq]
    exact Std.ReflCmp.compare_self
  have hsettled (v : Option ℚ) : (metricToJson v).mapScalars Json.settledScalar = metricToJson v := by
    cases v <;> rfl
  have hread (ts : List (String × Option ℚ)) :
      (ts.map fun t => (t.1, metricToJson t.2)).mapM metric? = some (ts.map fun t => (utf8 t.1, t.2)) := by
    induction ts with
    | nil => rfl
    | cons t ts ih =>
      obtain ⟨name, v⟩ := t
      rw [List.map_cons, List.mapM_cons, ih]
      cases v <;> rfl
  have hperm := (@Json.perm_setMembers _ [] texts hnames).map fun t => (utf8 t.1, t.2)
  rw [List.nil_append, ← hlist] at hperm
  have hmap := Json.setMembers_map metricToJson [] texts
  rw [List.map_nil] at hmap
  have hobject : (Json.ofMembers (texts.map fun t => (t.1, metricToJson t.2))).settled =
      .object ((Json.setMembers [] texts).map fun t => (t.1, metricToJson t.2)) := by
    rw [Json.ofMembers, hmap, Json.settled, Json.mapScalars, Json.mapMembers_eq, List.map_map]
    simp only [Function.comp_def, hsettled]
  rw [hobject, metrics?, hread, Option.map_some, TreeMap.ofList_of_perm hperm]

theorem printable_recordToJson (h : record.Writable grisu2) (hj : recordToJson record = some j) :
    Printable grisu2 j := by
  simp only [recordToJson, bind, Option.bind_eq_some_iff] at hj
  obtain ⟨_, -, _, -, _, -, entries, hentries, _, -, hj⟩ := hj
  cases hj
  have hmetrics : Printable grisu2 (.ofMembers entries) := by
    obtain ⟨texts, hlist, rfl⟩ := exists_texts hentries
    refine Json.printable_ofMembers fun m hm => ?_
    obtain ⟨⟨name, v⟩, ht, rfl⟩ := List.mem_map.mp hm
    cases v with
    | none => trivial
    | some q => exact h (utf8 name, some q) (hlist ▸ List.mem_map_of_mem ht) q rfl
  refine Json.printable_ofMembers fun m hm => ?_
  simp only [List.mem_append, List.mem_cons, List.not_mem_nil, or_false] at hm
  rcases hm with ((rfl | rfl | rfl | rfl | rfl) | hm) | hm
  · trivial
  · trivial
  · trivial
  · trivial
  · trivial
  · split_ifs at hm
    · cases hm
    · obtain rfl := List.mem_singleton.mp hm
      exact hmetrics
  · split_ifs at hm
    · cases hm
    · obtain rfl := List.mem_singleton.mp hm
      trivial

theorem whole_integer (n : Int64) : whole? (Json.integer n).settled = some n := by
  rw [Json.settled_integer]
  have hhigh : n.toInt < 2 ^ 63 := n.toInt_lt
  split_ifs with hpos
  · have hnat : (UInt64.ofNat n.toInt.toNat).toNat = n.toInt.toNat :=
      UInt64.toNat_ofNat_of_lt' (by change n.toInt.toNat < 2 ^ 64; omega)
    rw [whole?, hnat, ← Int64.ofInt_eq_ofNat, Int.toNat_of_nonneg hpos, Int64.ofInt_toInt]
  · rfl

theorem text_settled (s : String) : text? (Json.string s).settled = some (utf8 s) := rfl

theorem ofJson_settled (hj : recordToJson record = some j) : ofJson j.settled = some record := by
  simp only [recordToJson, bind, Option.bind_eq_some_iff] at hj
  obtain ⟨seName, hse, monitorName, hmonitor, monitorType, htype, entries, hentries, rawData, hraw, hj⟩ := hj
  cases hj
  have hmetrics := metrics_settled hentries
  obtain ⟨se, monitor, type, state, timestampMs, metrics, raw⟩ := record
  obtain rfl := eq_utf8_of_decode hse
  obtain rfl := eq_utf8_of_decode hmonitor
  obtain rfl := eq_utf8_of_decode htype
  obtain rfl := eq_utf8_of_decode hraw
  have hempty (hm : metrics.isEmpty = true) : metrics = ∅ := by simpa using hm
  have hstate : stateOfIndex (Int64.ofNat (seStateToIndex state)).toNatClampNeg = some state := by
    cases state <;> rfl
  by_cases hm : metrics.isEmpty = true <;> by_cases hr : utf8 rawData = [] <;>
    simp [ofJson, Json.member_settled, Json.member_ofMembers, hm, hr, Json.lookup_cons, text_settled,
      whole_integer, hstate, hmetrics, hempty]

end

end Record

structure Storable (grisu2 : Grisu2) (record : Record) : Prop where
  writable : record.Writable grisu2
  fits : ∀ j ∈ recordToJson record, (Json.dump grisu2 j).length ≤ StdString.maxSize

section
variable {grisu2 : Grisu2} {record : Record} {j : Json}

theorem splitOn_lines {texts : List (List UInt8)} (h : ∀ text ∈ texts, 0x0A ∉ text) :
    (texts.flatMap (· ++ [0x0A])).splitOn 0x0A = texts ++ [[]] := by
  induction texts with
  | nil => rfl
  | cons text rest ih =>
    have hrest := ih fun t ht => h t (by simp [ht])
    rw [List.splitOn_eq_splitOnP] at hrest ⊢
    rw [List.flatMap_cons, List.append_assoc, List.singleton_append,
      List.splitOnP_append_cons_of_forall_mem ?_ 0x0A (by decide), hrest, List.cons_append]
    intro b hb
    have hne : b ≠ 0x0A := fun heq => h text (by simp) (heq ▸ hb)
    simpa using hne

theorem documents_lines {docs : List Json} (h : ∀ v ∈ docs, Printable grisu2 v) :
    jsonDocuments (docs.flatMap fun v => Json.dump grisu2 v ++ [0x0A]) = some (docs.map Json.settled) := by
  have hsplit : (docs.flatMap fun v => Json.dump grisu2 v ++ [0x0A]).splitOn 0x0A =
      docs.map (Json.dump grisu2) ++ [[]] := by
    have htexts : ∀ text ∈ docs.map (Json.dump grisu2), 0x0A ∉ text := by
      intro text htext
      obtain ⟨v, hv, rfl⟩ := List.mem_map.mp htext
      exact Json.newline_notMem_dump (h v hv)
    rw [← splitOn_lines htexts, List.flatMap_map]
  have hparse : (docs.map (Json.dump grisu2)).mapM (fun line => (Json.parse true line).toOption) =
      some (docs.map Json.settled) := by
    clear hsplit
    induction docs with
    | nil => rfl
    | cons v rest ih =>
      rw [List.map_cons, List.mapM_cons, Json.parse_dump (h v (by simp)), ih fun w hw => h w (by simp [hw])]
      rfl
  rw [jsonDocuments, hsplit, if_pos (by simp), List.dropLast_concat, hparse]

theorem line_of_json (h : Storable grisu2 record) (hj : recordToJson record = some j) :
    line (jsonDump grisu2) record = some (Json.dump grisu2 j ++ [0x0A]) := by
  have hdump : (jsonDump grisu2 j).val = Json.dump grisu2 j := by
    rw [jsonDump, dif_pos (h.fits j hj)]
  rw [line, recordToJsonLine, hj, Option.map_some, Option.map_some, hdump]

theorem records_read_back {records : List Record} (h : ∀ r ∈ records, r.IsText ∧ Storable grisu2 r) :
    (jsonDocuments (records.flatMap fun r => (line (jsonDump grisu2) r).getD [])).bind (·.mapM Record.ofJson) =
      some records := by
  obtain ⟨docs, hprintable, hlines, hread⟩ : ∃ docs : List Json, (∀ v ∈ docs, Printable grisu2 v) ∧
      (records.flatMap fun r => (line (jsonDump grisu2) r).getD []) =
        (docs.flatMap fun v => Json.dump grisu2 v ++ [0x0A]) ∧
      (docs.map Json.settled).mapM Record.ofJson = some records := by
    induction records with
    | nil => exact ⟨[], List.forall_mem_nil _, rfl, rfl⟩
    | cons r rest ih =>
      obtain ⟨⟨htext, hr⟩, hrest⟩ := List.forall_mem_cons.mp h
      obtain ⟨docs, hprintable, hlines, hread⟩ := ih hrest
      obtain ⟨j, hj⟩ := Option.isSome_iff_exists.mp (isSome_recordToJson.mpr htext)
      refine ⟨j :: docs, List.forall_mem_cons.mpr ⟨Record.printable_recordToJson hr.writable hj, hprintable⟩, ?_, ?_⟩
      · rw [List.flatMap_cons, List.flatMap_cons, hlines, line_of_json hr hj, Option.getD_some]
      · rw [List.map_cons, List.mapM_cons, Record.ofJson_settled hj, hread]
        rfl
  rw [hlines, documents_lines hprintable, Option.bind_some, hread]

namespace Site

variable {F : Type} [DecidableEq F] (fileOf : Bytes → F) (dataDir : Bytes) (uploader : Option (List Record))

def recordsOf (as : List Attempt) (f : F) : List Record :=
  ((landings dataDir none as).filter fun l => fileOf l.1 = f ∧ l.2.IsText).map Prod.snd

theorem contents_landings (as : List Attempt) (dump : Dump) (f : F) :
    contents ((landings dataDir none as).map (written fileOf dump)) f =
      (recordsOf fileOf dataDir as f).flatMap fun r => (line dump r).getD [] := by
  unfold recordsOf
  induction landings dataDir none as with
  | nil => rfl
  | cons l rest ih =>
    have hfile : (written fileOf dump l).1 = fileOf l.1 := rfl
    rw [List.map_cons, contents_cons, hfile, ih, List.filter_cons]
    by_cases hf : f = fileOf l.1
    · by_cases htext : l.2.IsText
      · rw [if_pos hf, if_pos (by simp [hf, htext]), List.map_cons, List.flatMap_cons]
        rfl
      · rw [if_pos hf, if_neg (by simp [htext]), written_of_not_isText htext]
        rfl
    · rw [if_neg hf, if_neg (by simp [Ne.symm hf])]
      rfl

theorem reports_read_back {as : List Attempt} (hstorable : ∀ a ∈ as, Storable grisu2 a.record)
    (hwrites : ∀ a ∈ as, Accepts (jsonDump grisu2) a) (f : F) :
    (jsonDocuments
        ((Runs.run (reported fileOf (jsonDump grisu2)) (new dataDir uploader fun _ => []) as).files f)).bind
          (·.mapM Record.ofJson) =
      some (recordsOf fileOf dataDir as f) := by
  have hrecords : ∀ r ∈ recordsOf fileOf dataDir as f, r.IsText ∧ Storable grisu2 r := by
    intro r hr
    obtain ⟨l, hl, rfl⟩ := List.mem_map.mp hr
    obtain ⟨hl, hkept⟩ := List.mem_filter.mp hl
    obtain ⟨a, ha, heq⟩ := mem_of_landings hl
    exact ⟨(of_decide_eq_true hkept).2, heq ▸ hstorable a ha⟩
  rw [files_run (clean_new dataDir uploader _) (tied_new dataDir uploader _) hwrites]
  change Option.bind (jsonDocuments ([] ++ contents ((landings dataDir none _).map _) f)) _ = _
  rw [List.nil_append, contents_landings, records_read_back hrecords]

theorem files_read_back (calls : List Call)
    (h : ∀ a ∈ calls.flatMap Call.attempts, Storable grisu2 a.record ∧ Accepts (jsonDump grisu2) a) (f : F) :
    (jsonDocuments
        ((Runs.run (called fileOf (jsonDump grisu2)) (new dataDir uploader fun _ => []) calls).files f)).bind
          (·.mapM Record.ofJson) =
      some (recordsOf fileOf dataDir (allTurns dataDir none calls) f) := by
  rw [run_called (tied_new dataDir uploader _)]
  exact reports_read_back fileOf dataDir uploader (fun a ha => (h a (mem_allTurns ha)).1)
    (fun a ha => (h a (mem_allTurns ha)).2) f

def sampleGrisu2 : Grisu2 := fun q => if q = 25 / 2 then ([0x31, 0x32, 0x35], -1) else ([], 0)

def sampleMetric : Attempt where
  record :=
    { sampleRecord with
      metrics := .ofList [(utf8 "cpu_percent", some (25 / 2)), (utf8 "load", none)] compare }
  tm := ⟨126, 0, 1, 12⟩

theorem storable_sampleMetric : Storable sampleGrisu2 sampleMetric.record := by
  have hshort : Shortest sampleGrisu2 |25 / 2| := by
    refine ⟨⟨by decide +kernel, by decide +kernel, by decide +kernel⟩, by decide +kernel, by decide +kernel⟩
  have hlist : sampleMetric.record.metrics.toList = [(utf8 "cpu_percent", some (25 / 2)), (utf8 "load", none)] := by
    decide +kernel
  refine ⟨?_, by decide +kernel⟩
  intro m hm q hq
  rw [hlist] at hm
  rcases List.mem_cons.mp hm with rfl | hm
  · obtain rfl : 25 / 2 = q := Option.some.inj hq
    exact .inr hshort
  · rw [List.mem_singleton.mp hm] at hq
    cases hq

theorem two_records_read_back :
    let calls := [Call.reportBatch [sampleMetric, brokenAttempt, sampleMetric], .report sampleMetric]
    let after := Runs.run (called id (jsonDump sampleGrisu2)) (new (utf8 "/d") none fun _ => []) calls
    (jsonDocuments (after.files (utf8 "/d/lidar/2026-01-01-12.jsonl"))).bind (·.mapM Record.ofJson) =
      some [sampleMetric.record, sampleMetric.record] := by
  intro calls after
  have hall : ∀ a ∈ calls.flatMap Call.attempts,
      Storable sampleGrisu2 a.record ∧ Accepts (jsonDump sampleGrisu2) a := by
    have hbroken : Storable sampleGrisu2 brokenAttempt.record := by
      have hempty : brokenAttempt.record.metrics.toList = [] := by decide +kernel
      refine ⟨fun m hm => ?_, by decide +kernel⟩
      rw [hempty] at hm
      cases hm
    intro a ha
    have hroom : a.room = none := by
      revert a
      decide +kernel
    have haccepts : Accepts (jsonDump sampleGrisu2) a := by
      rintro l - n hn
      rw [hroom] at hn
      cases hn
    obtain rfl | rfl : a = sampleMetric ∨ a = brokenAttempt := by
      simpa [calls, Call.attempts, or_comm, or_left_comm] using ha
    · exact ⟨storable_sampleMetric, haccepts⟩
    · exact ⟨hbroken, haccepts⟩
  rw [files_read_back id (utf8 "/d") none calls hall]
  rfl

end Site

end

end DataReporter

end PlatformHealth
