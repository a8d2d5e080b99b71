import PlatformHealth.Config.Parser
import PlatformHealth.Config.Schema
import PlatformHealth.Library.Yields

namespace PlatformHealth

namespace ConfigParser

open Json (Schema)

open Json.Schema

def Optional (j : Json) (key : String) (s : Schema) : Prop := ∀ v, j.member key = some v → s v

def anyNumber : Schema := number fun _ => True

def count : Schema := fun j => anyNumber j ∨ boolean j

def each (s : Schema) : Schema := fun j => ∀ v ∈ j.items, s v

def paramsShape : Schema := fun j =>
  (∃ members, j = .object members ∧ ∀ m ∈ members, anyString m.2) ∨ j = .null ∨ j = .array []

def anyObject : Schema := fun j => ∃ members, j = .object members

structure MonitorShape (j : Json) : Prop where
  isObject : anyObject j
  type : ∃ s, j.member "type" = some (.string s) ∧ s ∈ monitorTypes
  enabled : Optional j "enabled" boolean
  interval : Optional j "interval_ms" count
  timeout : Optional j "timeout_ms" count
  debounceCount : Optional j "debounce_count" count
  warnThreshold : Optional j "warn_threshold" anyNumber
  errorThreshold : Optional j "error_threshold" anyNumber
  warnCpu : Optional j "warn_threshold_cpu" anyNumber
  errCpu : Optional j "error_threshold_cpu" anyNumber
  params : Optional j "params" paramsShape

structure EntityShape (j : Json) : Prop where
  isObject : anyObject j
  name : ∃ s, j.member "name" = some (.string s) ∧ s ≠ ""
  description : Optional j "description" anyString
  aliveTimeout : Optional j "alive_timeout_ms" count
  autoRestart : Optional j "auto_restart" boolean
  maxRestartCount : Optional j "max_restart_count" count
  restartDelay : Optional j "restart_delay_s" count
  enabled : Optional j "enabled" boolean
  dependencies : Optional j "dependencies" (each anyString)
  monitors : Optional j "monitors" (each MonitorShape)

structure GlobalShape (j : Json) : Prop where
  tickInterval : Optional j "tick_interval_ms" anyNumber
  logDir : Optional j "log_dir" anyString
  enableAutoRecovery : Optional j "enable_auto_recovery" boolean
  eventQueueSize : Optional j "event_queue_size" count
  appName : Optional j "app_name" anyString
  version : Optional j "version" anyString
  ipcEndpoint : Optional j "ipc_endpoint" anyString

structure ConfigShape (j : Json) : Prop where
  isObject : anyObject j
  global : Optional j "global" GlobalShape
  entities : Optional j "supervised_entities" (each EntityShape)

section
variable {rt : CppRuntime} {j : Json} {members : List (String × Json)} {key : String}

@[simp] theorem optional_object {s : Schema} :
    Optional (.object members) key s ↔ ∀ v, members.lookup key = some v → s v := Iff.rfl

theorem yields_getString {P : String → Prop} : Yields (getString j) P ↔ string P j := by
  cases j <;> simp [getString, string]

theorem returns_getString : Returns (getString j) ↔ anyString j := by
  rw [Yields.returns_iff, yields_getString]
  rfl

theorem returns_getBool : Returns (getBool j) ↔ boolean j := by
  cases j <;> simp [Returns, getBool, boolean]

theorem returns_getDouble : Returns (getDouble j) ↔ anyNumber j := by
  cases j <;> simp [Returns, getDouble, anyNumber, number, Json.number?]

theorem returns_getUInt64 : Returns (getUInt64 rt j) ↔ anyNumber j := by
  cases j <;> simp [Returns, getUInt64, anyNumber, number, Json.number?]

theorem returns_getUInt32 : Returns (getUInt32 rt j) ↔ count j := by
  cases j <;> simp [Returns, getUInt32, count, boolean, anyNumber, number, Json.number?]

theorem returns_getInt32 : Returns (getInt32 rt j) ↔ count j := by
  cases j <;> simp [Returns, getInt32, count, boolean, anyNumber, number, Json.number?]

theorem returns_foldlM_insert (result : StringMap String) :
    Returns (members.foldlM
        (fun result member => do return result.insert member.1 (← getString member.2)) result) ↔
      ∀ m ∈ members, anyString m.2 := by
  induction members generalizing result with
  | nil => simp [Returns, pure, Except.pure]
  | cons m rest ih =>
    simp only [List.foldlM_cons, Yields.returns_bind_iff, Yields.returns_pure, ih,
      Yields.const_iff, returns_getString, List.forall_mem_cons, and_true]

theorem returns_parseParams : Returns (parseParams j) ↔ paramsShape j := by
  cases j with
  | object members =>
    rw [parseParams, returns_foldlM_insert]
    simp [paramsShape]
  | array elements =>
    cases elements <;> simp [Yields.returns_iff, parseParams, paramsShape, Json.items]
  | _ => simp [Yields.returns_iff, parseParams, paramsShape, Json.items]

section
variable {α : Type} {get : Json → Except CppException α} {default : α} {P : α → Prop}

theorem yields_value : Yields (value (.object members) key get default) P ↔
    (∀ v, members.lookup key = some v → Yields (get v) P) ∧
      (members.lookup key = none → P default) := by
  cases h : members.lookup key <;> simp [value, h]

theorem returns_value : Returns (value (.object members) key get default) ↔
    Optional (.object members) key fun v => Returns (get v) := by
  rw [Yields.returns_iff, yields_value]
  simp [Yields.returns_iff]

theorem value_of_not_object (h : ¬ anyObject j) : ¬ Yields (value j key get default) P := by
  cases j <;> simp_all [value, anyObject]

end

theorem known_type_iff (s : String) :
    ¬ (monitorTypeFromString s = .custom ∧ s ≠ "custom") ↔ s ∈ monitorTypes := by
  unfold monitorTypeFromString
  split_ifs <;> simp_all [monitorTypes]

theorem yields_type : Yields (value (.object members) "type" getString "") (· ∈ monitorTypes) ↔
    ∃ s, members.lookup "type" = some (.string s) ∧ s ∈ monitorTypes := by
  rw [yields_value]
  cases h : members.lookup "type" with
  | none => simp [monitorTypes]
  | some v => simp [yields_getString, string]

theorem yields_name : Yields (value (.object members) "name" getString "") (· ≠ "") ↔
    ∃ s, members.lookup "name" = some (.string s) ∧ s ≠ "" := by
  rw [yields_value]
  cases h : members.lookup "name" with
  | none => simp
  | some v => simp [yields_getString, string]

theorem yields_interval {P : Int → Prop} {v : Json} :
    Yields (getUInt32 rt v) (fun n => P n.toNat) ↔
      count v ∧ ∀ n, getUInt32 rt v = .ok n → P n.toNat := by
  rw [← @returns_getUInt32 rt]
  cases h : getUInt32 rt v <;> simp [Returns]

theorem yields_parseMonitorConfig {P : Int → Prop} (hdefault : P 1000) :
    Yields (parseMonitorConfig rt j) (fun mc => P mc.interval) ↔
      MonitorShape j ∧ Optional j "interval_ms" fun v => ∀ n, getUInt32 rt v = .ok n → P n.toNat := by
  by_cases hobject : anyObject j
  · obtain ⟨members, rfl⟩ := hobject
    have hinterval : Yields (value (.object members) "interval_ms" (getUInt32 rt) 1000)
          (fun n => P n.toNat) ↔
        Optional (.object members) "interval_ms" count ∧
          Optional (.object members) "interval_ms" fun v =>
            ∀ n, getUInt32 rt v = .ok n → P n.toNat := by
      have habsent : members.lookup "interval_ms" = none → P (1000 : UInt32).toNat := fun _ => hdefault
      rw [yields_value, and_iff_left habsent]
      simp only [yields_interval, optional_object, imp_and, forall_and]
    have hparams : Yields (value (.object members) "params" .ok (.object []))
          (fun params => Returns (parseParams params)) ↔
        Optional (.object members) "params" paramsShape := by
      rw [yields_value]
      simp [returns_parseParams, paramsShape]
    simp only [parseMonitorConfig, Yields.bind_iff, Yields.pure_iff, Yields.guard_iff,
      Yields.const_iff, Yields.and_left_iff, Yields.and_right_iff, known_type_iff, yields_type,
      returns_value, returns_getBool, returns_getUInt32, returns_getDouble, hparams, hinterval]
    constructor
    · rintro ⟨htype, henabled, htimeout, hdebounce, hwarn, herror, hwarnCpu, herrCpu, hparams,
        hcount, hpositive⟩
      exact ⟨⟨⟨members, rfl⟩, htype, henabled, hcount, htimeout, hdebounce, hwarn, herror, hwarnCpu,
        herrCpu, hparams⟩, hpositive⟩
    · rintro ⟨h, hpositive⟩
      exact ⟨h.type, h.enabled, h.timeout, h.debounceCount, h.warnThreshold, h.errorThreshold,
        h.warnCpu, h.errCpu, h.params, h.interval, hpositive⟩
  · refine iff_of_false ?_ fun h => hobject h.1.isObject
    rw [parseMonitorConfig, Yields.bind_iff]
    exact value_of_not_object hobject

theorem yields_parseEntityConfig {Q : MonitorConfig → Prop} {S : Schema}
    (hmonitor : ∀ m, Yields (parseMonitorConfig rt m) Q ↔ MonitorShape m ∧ S m) :
    Yields (parseEntityConfig rt j) (fun se => ∀ mc ∈ se.monitors, Q mc) ↔
      EntityShape j ∧ Optional j "monitors" (each S) := by
  by_cases hobject : anyObject j
  · obtain ⟨members, rfl⟩ := hobject
    have hdeps : Yields (value (.object members) "dependencies" .ok (.array []))
          (fun deps => Returns (deps.items.mapM getString)) ↔
        Optional (.object members) "dependencies" (each anyString) := by
      rw [yields_value]
      simp [Yields.returns_mapM, returns_getString, each, Json.items]
    have hmonitors : Yields (value (.object members) "monitors" .ok (.array []))
          (fun mons => ∀ m ∈ mons.items, MonitorShape m ∧ S m) ↔
        Optional (.object members) "monitors" (each MonitorShape) ∧
          Optional (.object members) "monitors" (each S) := by
      rw [yields_value]
      simp [each, Json.items, imp_and, forall_and]
    simp only [parseEntityConfig, Yields.bind_iff, Yields.pure_iff, Yields.guard_iff,
      Yields.mapM_iff, hmonitor, Yields.const_iff, Yields.and_right_iff,
      yields_name, returns_value, returns_getBool, returns_getUInt32, returns_getInt32,
      returns_getString, hdeps, hmonitors]
    constructor
    · rintro ⟨hname, hdescription, halive, hrestart, hmax, hdelay, henabled, hdeps, hmons, hkept⟩
      exact ⟨⟨⟨members, rfl⟩, hname, hdescription, halive, hrestart, hmax, hdelay, henabled, hdeps,
        hmons⟩, hkept⟩
    · rintro ⟨h, hkept⟩
      exact ⟨h.name, h.description, h.aliveTimeout, h.autoRestart, h.maxRestartCount, h.restartDelay,
        h.enabled, h.dependencies, h.monitors, hkept⟩
  · refine iff_of_false ?_ fun h => hobject h.1.isObject
    rw [parseEntityConfig, Yields.bind_iff]
    exact value_of_not_object hobject

theorem returns_field {α : Type} {get : Json → Except CppException α} {default : α} :
    Returns (field j key get default) ↔ Optional j key fun v => Returns (get v) := by
  unfold field Optional
  cases j.member key <;> simp [Returns]

theorem returns_parseGlobalConfig :
    Returns (parseGlobalConfig rt j) ↔ Optional j "global" GlobalShape := by
  unfold parseGlobalConfig Optional
  cases j.member "global" with
  | none => simp [Returns]
  | some global =>
    simp only [Yields.returns_bind_iff, Yields.returns_pure, Yields.const_iff, returns_field,
      returns_getUInt64, returns_getUInt32, returns_getString, returns_getBool, and_true,
      Option.some.injEq, forall_eq']
    constructor
    · rintro ⟨htick, hlog, hrecovery, hqueue, hname, hversion, hipc⟩
      exact ⟨htick, hlog, hrecovery, hqueue, hname, hversion, hipc⟩
    · rintro ⟨htick, hlog, hrecovery, hqueue, hname, hversion, hipc⟩
      exact ⟨htick, hlog, hrecovery, hqueue, hname, hversion, hipc⟩

theorem yields_parseRoot {Q : SEConfig → Prop} {S : Schema}
    (hentity : ∀ e, Yields (parseEntityConfig rt e) Q ↔ EntityShape e ∧ S e) :
    Yields (parseRoot rt j) (fun r => ∀ se ∈ r.entities, Q se) ↔
      ConfigShape j ∧ Optional j "supervised_entities" (each S) := by
  by_cases hobject : anyObject j
  · obtain ⟨members, rfl⟩ := hobject
    have hentities : Yields (value (.object members) "supervised_entities" .ok (.array []))
          (fun entities => ∀ e ∈ entities.items, EntityShape e ∧ S e) ↔
        Optional (.object members) "supervised_entities" (each EntityShape) ∧
          Optional (.object members) "supervised_entities" (each S) := by
      rw [yields_value]
      simp [each, Json.items, imp_and, forall_and]
    simp only [parseRoot, Yields.bind_iff, Yields.pure_iff, Yields.mapM_iff,
      hentity, Yields.const_iff, returns_parseGlobalConfig, hentities]
    constructor
    · rintro ⟨hglobal, hents, hkept⟩
      exact ⟨⟨⟨members, rfl⟩, hglobal, hents⟩, hkept⟩
    · rintro ⟨h, hkept⟩
      exact ⟨h.global, h.entities, hkept⟩
  · refine iff_of_false ?_ fun h => hobject h.1.isObject
    simp only [parseRoot, Yields.bind_iff]
    rintro ⟨global, -, h⟩
    exact value_of_not_object hobject h

theorem returns_parseRoot : Returns (parseRoot rt j) ↔ ConfigShape j := by
  have hmonitor (m : Json) : Yields (parseMonitorConfig rt m) (fun _ => True) ↔
      MonitorShape m ∧ True := by
    rw [yields_parseMonitorConfig (P := fun _ => True) trivial]
    simp [Optional]
  have hentity (e : Json) : Yields (parseEntityConfig rt e) (fun _ => True) ↔
      EntityShape e ∧ True := by
    have h := yields_parseEntityConfig (j := e) hmonitor
    simpa [Optional, each] using h
  have h := yields_parseRoot (j := j) hentity
  simpa [Yields.returns_iff, Optional, each] using h

end

end ConfigParser

end PlatformHealth
