import PlatformHealth.Entity.Counters

namespace PlatformHealth

open SupervisedEntity

abbrev ReportingEntity := SupervisedEntity ReportingMonitor

def faultEvent (type : MonitorType) (r : Report) : Option PhmEvent :=
  r.fault.map fun f => { f.event with sourceMonitor := monitorTypeToString type }

def eventsOf (readings : Nat → Report) : Nat → List MonitorType → List PhmEvent
  | _, [] => []
  | i, type :: rest => (faultEvent type (readings i)).toList ++ eventsOf readings (i + 1) rest

def types (se : ReportingEntity) : List MonitorType := se.monitors.map (·.type)

theorem processed_reporting (readings : Nat → Report) (i : Nat) (mons : List ReportingMonitor) :
    processed readings i mons = eventsOf readings i (mons.map (·.type)) := by
  induction mons generalizing i with
  | nil => rfl
  | cons m rest ih =>
    simp only [processed, IMonitor.check, ReportingMonitor.check, List.map_cons, eventsOf, faultEvent]
    cases h : (readings i).fault with
    | none => simpa using ih (i + 1)
    | some f => simpa [f.faulty.1] using ih (i + 1)

theorem faulty_eventsOf (readings : Nat → Report) (i : Nat) (ts : List MonitorType) :
    ∀ e ∈ eventsOf readings i ts, e.severity ≠ .info := by
  induction ts generalizing i with
  | nil => simp [eventsOf]
  | cons type rest ih =>
    intro e he
    rcases List.mem_append.mp he with hmem | hmem
    · obtain ⟨f, -, rfl⟩ : ∃ f, (readings i).fault = some f ∧
          { f.event with sourceMonitor := monitorTypeToString type } = e := by
        simpa [faultEvent] using hmem
      exact f.faulty.2
    · exact ih (i + 1) e hmem

theorem source_eventsOf {readings : Nat → Report} {i : Nat} {ts : List MonitorType} {e : PhmEvent}
    (he : e ∈ eventsOf readings i ts) :
    ∃ j type, ts[j]? = some type ∧ e.sourceMonitor = monitorTypeToString type ∧
      (readings (i + j)).fault.isSome := by
  induction ts generalizing i with
  | nil => simp [eventsOf] at he
  | cons type rest ih =>
    rcases List.mem_append.mp he with hmem | hmem
    · obtain ⟨f, hf, rfl⟩ : ∃ f, (readings i).fault = some f ∧
          { f.event with sourceMonitor := monitorTypeToString type } = e := by
        simpa [faultEvent] using hmem
      exact ⟨0, type, rfl, rfl, by simp [hf]⟩
    · obtain ⟨j, t, ht, hsource, hfault⟩ := ih hmem
      exact ⟨j + 1, t, ht, hsource, by rwa [show i + (j + 1) = i + 1 + j by omega]⟩

theorem filter_eventsOf_of_notMem {readings : Nat → Report} {i : Nat} {ts : List MonitorType}
    {source : String} (h : ∀ type ∈ ts, monitorTypeToString type ≠ source) :
    (eventsOf readings i ts).filter (·.sourceMonitor = source) = [] := by
  rw [List.filter_eq_nil_iff]
  intro e he
  obtain ⟨j, type, htype, hsource, -⟩ := source_eventsOf he
  simpa [hsource] using h type (List.mem_of_getElem? htype)

theorem filter_faultEvent (type : MonitorType) (r : Report) (source : String) :
    (faultEvent type r).toList.filter (·.sourceMonitor = source) =
      if monitorTypeToString type = source then (faultEvent type r).toList else [] := by
  cases h : r.fault <;> by_cases hs : monitorTypeToString type = source <;>
    simp [faultEvent, h, hs]

theorem filter_eventsOf {readings : Nat → Report} {ts : List MonitorType} (hnodup : ts.Nodup)
    (i j : Nat) {type : MonitorType} (hj : ts[j]? = some type) :
    (eventsOf readings i ts).filter (·.sourceMonitor = monitorTypeToString type) =
      (faultEvent type (readings (i + j))).toList := by
  induction ts generalizing i j with
  | nil => simp at hj
  | cons t rest ih =>
    obtain ⟨hnot, hrest⟩ := List.nodup_cons.mp hnodup
    rw [eventsOf, List.filter_append, filter_faultEvent]
    cases j with
    | zero =>
      obtain rfl : t = type := by simpa using hj
      rw [if_pos rfl, filter_eventsOf_of_notMem, List.append_nil, Nat.add_zero]
      intro type' hmem heq
      exact hnot (monitorTypeToString_injective heq ▸ hmem)
    | succ j =>
      have hmem : type ∈ rest := List.mem_of_getElem? (by simpa using hj)
      have hne : monitorTypeToString t ≠ monitorTypeToString type :=
        fun heq => hnot (monitorTypeToString_injective heq ▸ hmem)
      rw [if_neg hne, List.nil_append, ih hrest (i + 1) j (by simpa using hj),
        show i + 1 + j = i + (j + 1) by omega]

theorem types_checked (readings : Nat → Report) (i : Nat) (mons : List ReportingMonitor) :
    (checked readings i mons).map (·.type) = mons.map (·.type) := by
  induction mons generalizing i with
  | nil => rfl
  | cons m rest ih =>
    cases h : (readings i).fault <;>
      simpa [checked, IMonitor.check, ReportingMonitor.check, h] using ih (i + 1)

theorem types_checkAll (se : ReportingEntity) (readings : Nat → Report) :
    types (se.apply (.checkAll readings)) = types se := by
  rw [types, monitors_checkAll, types_checked]
  rfl

theorem trace_ticks (se : ReportingEntity) (ticks : List (Nat → Report)) :
    se.trace (ticks.map .checkAll) =
      (ticks.flatMap fun r => eventsOf r 0 (types se)).map .event := by
  induction ticks generalizing se with
  | nil => rfl
  | cons r rest ih =>
    rw [List.map_cons, trace, ih, types_checkAll, List.flatMap_cons, List.map_append, actions,
      processed_reporting]
    rfl

theorem nodup_registerMonitor {se : ReportingEntity} (h : (types se).Nodup)
    (monitor : Option ReportingMonitor) : (types (se.registerMonitor monitor).1).Nodup := by
  cases monitor with
  | none => exact h
  | some m =>
    unfold registerMonitor
    dsimp only
    split
    · exact h
    · next hnew =>
      simp only [types, List.map_append, List.map_cons, List.map_nil, List.nodup_append,
        List.nodup_cons, List.not_mem_nil, not_false_eq_true, List.nodup_nil, and_true,
        List.mem_singleton, List.mem_map]
      refine ⟨h, trivial, ?_⟩
      rintro _ ⟨other, hmem, rfl⟩ _ rfl heq
      refine hnew (List.any_eq_true.mpr ⟨other, hmem, ?_⟩)
      exact decide_eq_true (congrArg monitorTypeToString heq)

theorem types_startMonitors (readings : Nat → Report) (i : Nat) (mons : List ReportingMonitor) :
    (startMonitors readings i mons).1.map (·.type) = mons.map (·.type) := by
  induction mons generalizing i with
  | nil => rfl
  | cons m rest ih =>
    cases h : (readings i).started <;> simp [startMonitors, IMonitor.start, h, ih]

theorem types_start (se : ReportingEntity) (readings : Nat → Report) :
    types (se.apply (.start readings)) = types se := by
  have h := types_startMonitors readings 0 se.monitors
  simp only [apply, start, transitionTo_silent]
  split <;> exact h

end PlatformHealth
