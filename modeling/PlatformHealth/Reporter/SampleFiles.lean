import PlatformHealth.Engine.Samples
import PlatformHealth.Monitors.Builtin
import PlatformHealth.Reporter.JsonLines

namespace PlatformHealth

open ByteString (decode_utf8 utf8)
open Json (Grisu2)

namespace DataReporter

def Record.ofData (r : DataRecord) : Record where
  seName := utf8 r.seName
  monitorName := utf8 r.monitorName
  monitorType := utf8 r.monitorType
  state := r.state
  timestampMs := Int64.ofInt r.timestampMs
  metrics := .ofList (r.metrics.toList.map fun m => (utf8 m.1, some m.2)) compare
  rawData := utf8 r.rawData

theorem Record.isText_ofData (r : DataRecord) : (ofData r).IsText where
  seName := by rw [ofData, decode_utf8]; rfl
  monitorName := by rw [ofData, decode_utf8]; rfl
  monitorType := by rw [ofData, decode_utf8]; rfl
  metrics := by
    intro m hm
    have hkey : m.1 ∈ (ofData r).metrics := by
      rw [Std.ExtTreeMap.mem_iff_isSome_getElem?, Std.ExtTreeMap.mem_toList_iff_getElem?_eq_some.mp hm]
      rfl
    rw [ofData, Std.ExtTreeMap.mem_ofList, List.contains_iff_mem, List.map_map] at hkey
    obtain ⟨entry, -, heq⟩ := List.mem_map.mp hkey
    rw [← heq]
    exact Option.isSome_iff_exists.mpr ⟨entry.1, decode_utf8 entry.1⟩
  rawData := by rw [ofData, decode_utf8]; rfl

-- what each report finds: the local time, and whether its file can be opened
structure Moment where
  tm : Tm
  opens : Bool

def attempts (moments : Nat → Moment) (records : List DataRecord) : List Attempt :=
  records.mapIdx fun k record =>
    { record := .ofData record, tm := (moments k).tm, opens := (moments k).opens }

section
variable {moments : Nat → Moment} {records : List DataRecord} {a : Attempt}

theorem exists_of_mem_attempts (h : a ∈ attempts moments records) :
    (∃ r ∈ records, a.record = .ofData r) ∧ a.room = none := by
  obtain ⟨k, hk, rfl⟩ := List.mem_mapIdx.mp h
  exact ⟨⟨records[k], List.getElem_mem hk, rfl⟩, rfl⟩

end

namespace Site

open PhmEngine

section
variable {F μ ε : Type} [DecidableEq F] [IMonitor μ ε] {grisu2 : Grisu2} (fileOf : Bytes → F) (cfg : PhmConfig)

def filed (dataDir : Bytes) (moments : Nat → Moment) (records : List DataRecord) (f : F) : List Record :=
  ((landings dataDir none (attempts moments records)).filter fun l => fileOf l.1 = f).map Prod.snd

theorem recordsOf_attempts (dataDir : Bytes) (moments : Nat → Moment) (records : List DataRecord) (f : F) :
    recordsOf fileOf dataDir (attempts moments records) f = filed fileOf dataDir moments records f := by
  refine congrArg (List.map Prod.snd) (List.filter_congr fun l hl => ?_)
  obtain ⟨a, ha, heq⟩ := mem_of_landings hl
  obtain ⟨⟨r, -, hr⟩, -⟩ := exists_of_mem_attempts ha
  have htext : l.2.IsText := by
    rw [← heq, hr]
    exact Record.isText_ofData r
  simp [htext]

def afterRun (grisu2 : Grisu2) (moments : Nat → Moment) (e : PhmEngine μ) : Site F :=
  Runs.run (reported fileOf (jsonDump grisu2)) (new (utf8 e.dataDir) none fun _ => []) (attempts moments e.reported)

theorem samples_read_back (steps : List (EngineStep μ ε)) {e : PhmEngine μ}
    (hexec : execAll steps (PhmEngine.new cfg) = .ok ((), e))
    (hstorable : ∀ r ∈ samples steps (PhmEngine.new cfg), Storable grisu2 (.ofData r)) (moments : Nat → Moment)
    (f : F) :
    (jsonDocuments ((afterRun fileOf grisu2 moments e).files f)).bind (·.mapM Record.ofJson) =
      some (filed fileOf (utf8 (PhmEngine.new cfg : PhmEngine μ).dataDir) moments
        (samples steps (PhmEngine.new cfg)) f) := by
  have hreported := reported_of_execAll (.new cfg) hexec
  have hempty : (PhmEngine.new cfg : PhmEngine μ).reported = [] := rfl
  rw [hempty, List.nil_append] at hreported
  rw [afterRun, dataDir_of_execAll (.new cfg) hexec, hreported, ← recordsOf_attempts]
  refine reports_read_back fileOf _ none (fun a ha => ?_) (fun a ha => ?_) f
  · obtain ⟨⟨r, hr, heq⟩, -⟩ := exists_of_mem_attempts ha
    rw [heq]
    exact hstorable r hr
  · rintro l - n hn
    rw [(exists_of_mem_attempts ha).2] at hn
    cases hn

end

def tickAt (nowMs : Int) : EngineStep BuiltinMonitor Reading :=
  .tick (fun _ => { check := fun _ => {}, restart := fun _ => {}, nowMs }) 0

def watched : List (EngineStep BuiltinMonitor Reading) :=
  [.call (.addSupervisedEntity { name := "lidar", enabled := false }),
    .useEntity 0 (.registerMonitor (some (.processLifecycle (.new "process_lifecycle" {})))), tickAt 500,
    .call (.start fun _ _ => {}), tickAt 1000, tickAt 2000, tickAt 3000]

def watchedAt (timestampMs : Int) : DataRecord where
  seName := "lidar"
  monitorName := "process_lifecycle"
  monitorType := "process_lifecycle"
  timestampMs
  metrics := StringMap.empty.insert "running" 1

def oneDigit : Grisu2 := fun q => if q = 1 then ([0x31], 0) else ([], 0)

theorem storable_watchedAt (timestampMs : Int) (h : timestampMs ∈ [1000, 2000, 3000]) :
    Storable oneDigit (.ofData (watchedAt timestampMs)) := by
  have hshort : Json.Shortest oneDigit |1| := by
    refine ⟨⟨by decide +kernel, by decide +kernel, by decide +kernel⟩, by decide +kernel, by decide +kernel⟩
  constructor
  · have hlist : (Record.ofData (watchedAt timestampMs)).metrics.toList = [(utf8 "running", some 1)] := by
      have hmetrics : (Record.ofData (watchedAt 0)).metrics.toList = [(utf8 "running", some 1)] := by decide +kernel
      exact hmetrics
    intro m hm q hq
    rw [hlist, List.mem_singleton] at hm
    rw [hm] at hq
    obtain rfl : 1 = q := Option.some.inj hq
    exact .inr hshort
  · revert timestampMs
    decide +kernel

theorem watched_read_back :
    ∃ e : PhmEngine BuiltinMonitor, execAll watched (PhmEngine.new {}) = .ok ((), e) ∧
      let moments (k : Nat) : Moment := { tm := ⟨126, 0, 1, if k = 0 then 12 else 13⟩, opens := k ≠ 1 }
      let files := (afterRun id oneDigit moments e).files
      (jsonDocuments (files (utf8 "/var/log/phmd/data/lidar/2026-01-01-12.jsonl"))).bind (·.mapM Record.ofJson) =
          some [.ofData (watchedAt 1000)] ∧
        (jsonDocuments (files (utf8 "/var/log/phmd/data/lidar/2026-01-01-13.jsonl"))).bind (·.mapM Record.ofJson) =
          some [.ofData (watchedAt 3000)] := by
  have hsamples : samples watched (PhmEngine.new {}) = [watchedAt 1000, watchedAt 2000, watchedAt 3000] := rfl
  have hview : (execAll watched (PhmEngine.new {})).toOption.isSome = true := by decide +kernel
  have hstorable : ∀ r ∈ samples watched (PhmEngine.new {}), Storable oneDigit (.ofData r) := by
    rw [hsamples]
    simp only [List.mem_cons, List.not_mem_nil, or_false, forall_eq_or_imp, forall_eq]
    exact ⟨storable_watchedAt 1000 (by decide), storable_watchedAt 2000 (by decide),
      storable_watchedAt 3000 (by decide)⟩
  cases hexec : execAll watched (PhmEngine.new {} : PhmEngine BuiltinMonitor) with
  | error x =>
    rw [hexec] at hview
    cases hview
  | ok out =>
    refine ⟨out.2, rfl, ?_, ?_⟩
    · rw [samples_read_back id {} watched hexec hstorable, hsamples]
      rfl
    · rw [samples_read_back id {} watched hexec hstorable, hsamples]
      rfl

end Site

end DataReporter

end PlatformHealth
