import PlatformHealth.Config.EntryPoints
import PlatformHealth.Library.ByteString
import PlatformHealth.Library.Json.AsWritten
import PlatformHealth.Library.Json.Sorted

namespace PlatformHealth

namespace ConfigParser

open Json (Schema)

open Json.Schema

def only (names : List String) : Schema := fun j => ∀ members, j = .object members → ∀ m ∈ members, m.1 ∈ names

def anyArray : Schema := fun j => ∃ es, j = .array es

-- the rules of the schema that validate() leaves unchecked
structure MonitorRules (j : Json) : Prop where
  interval : Optional j "interval_ms" (atLeast 50)
  timeout : Optional j "timeout_ms" (atLeast 100)
  debounceCount : Optional j "debounce_count" (atLeast 1)
  warnCpu : Optional j "warn_threshold_cpu" percentage
  errCpu : Optional j "error_threshold_cpu" percentage
  warnMemory : Optional j "warn_threshold_memory_mb" (atLeast 0)
  errMemory : Optional j "error_threshold_memory_mb" (atLeast 0)
  params : Optional j "params" anyObject
  known : only ["type", "enabled", "interval_ms", "timeout_ms", "debounce_count", "warn_threshold",
    "error_threshold", "warn_threshold_cpu", "error_threshold_cpu", "warn_threshold_memory_mb",
    "error_threshold_memory_mb", "params"] j

structure EntityRules (j : Json) : Prop where
  name : Optional j "name" (string entityNamePattern)
  aliveTimeout : Optional j "alive_timeout_ms" (atLeast 100)
  maxRestartCount : Optional j "max_restart_count" (atLeast 0)
  restartDelay : Optional j "restart_delay_s" (atLeast 0)
  dependencies : Optional j "dependencies" fun v => anyArray v ∧ uniqueItems v
  monitors : Optional j "monitors" fun v => anyArray v ∧ each MonitorRules v
  known : only ["name", "description", "alive_timeout_ms", "auto_restart", "max_restart_count",
    "restart_delay_s", "enabled", "dependencies", "monitors"] j

structure GlobalRules (j : Json) : Prop where
  isObject : anyObject j
  tickInterval : Optional j "tick_interval_ms" (integer fun n => 10 ≤ n ∧ n ≤ 10000)
  eventQueueSize : Optional j "event_queue_size" (integer fun n => 64 ≤ n ∧ n ≤ 65536)
  known : only ["tick_interval_ms", "log_dir", "enable_auto_recovery", "event_queue_size"] j

structure ConfigRules (j : Json) : Prop where
  global : Optional j "global" GlobalRules
  required : ∃ v, j.member "supervised_entities" = some v
  entities : Optional j "supervised_entities" fun v => anyArray v ∧ each EntityRules v
  known : only ["global", "supervised_entities"] j

variable (rt : CppRuntime)

-- an interval is kept in 32 bits, a fraction of it cut off, and may not be zero then
def intervalKept : Schema
  | .unsigned n => n.toNat % 2 ^ 32 ≠ 0
  | .integer n => n.toInt % 2 ^ 32 ≠ 0
  | .float q =>
    if -1 < Binary64.toDouble q ∧ Binary64.toDouble q < 2 ^ 32 then 1 ≤ Binary64.toDouble q
    else rt.uint32OfDouble (Binary64.toDouble q) ≠ 0
  | .boolean b => b = true
  | _ => True

def IntervalsKept (root : Json) : Prop :=
  Optional root "supervised_entities" <| each fun entity =>
    Optional entity "monitors" <| each fun monitor =>
      Optional monitor "interval_ms" (intervalKept rt)

-- validate() rejects the interval that the parser stores as zero
def positiveInterval : Schema := fun v => ∀ n, getUInt32 rt v = .ok n → n ≠ 0

section
variable {rt} {j : Json}

theorem checkMonitors_eq_none_iff (cfg : SEConfig) :
    checkMonitors cfg = none ↔ cfg.name ≠ "" ∧ ∀ mc ∈ cfg.monitors, 0 < mc.interval := by
  unfold checkMonitors
  split_ifs with hname hany
  · simp [hname]
  · simpa [hname] using hany
  · simpa [hname] using hany

theorem yields_positive :
    Yields (parseMonitorConfig rt j) (fun mc => 0 < mc.interval) ↔
      MonitorShape j ∧ Optional j "interval_ms" (positiveInterval rt) := by
  have hpos (n : UInt32) : (0 : Int) < n.toNat ↔ n ≠ 0 := by
    rw [Int.natCast_pos, Nat.pos_iff_ne_zero, ne_eq, ne_eq, ← UInt32.toNat_inj]
    rfl
  rw [yields_parseMonitorConfig (by decide)]
  simp only [hpos]
  rfl

theorem yields_checked :
    Yields (parseEntityConfig rt j) (fun se => checkMonitors se = none) ↔
      EntityShape j ∧
        Optional j "monitors" (each fun m => Optional m "interval_ms" (positiveInterval rt)) := by
  rw [← yields_parseEntityConfig fun _ => yields_positive]
  simp only [parseEntityConfig, Yields.bind_iff, Yields.guard_iff]
  refine Yields.congr fun name => and_congr_right fun hname => ?_
  simp only [Yields.pure_iff, checkMonitors_eq_none_iff, ne_eq, hname, not_false_eq_true, true_and]

section
variable {s t : Schema} {key : String}

theorem optional_rounded (h : ∀ v, s v.rounded ↔ t v) : Optional j.rounded key s ↔ Optional j key t := by
  unfold Optional
  rw [Json.member_rounded]
  cases j.member key with
  | none => simp
  | some v => simp [h]

theorem each_rounded (h : ∀ v, s v.rounded ↔ t v) : each s j.rounded ↔ each t j := by
  unfold each
  rw [Json.items_rounded, List.forall_mem_map]
  exact forall₂_congr fun v _ => h v

end

theorem anyString_rounded (v : Json) : anyString v.rounded ↔ anyString v := by
  cases v <;> simp [anyString, string, Json.rounded, Json.mapScalars, Json.roundedScalar]

theorem boolean_rounded (v : Json) : boolean v.rounded ↔ boolean v := by
  cases v <;> simp [boolean, Json.rounded, Json.mapScalars, Json.roundedScalar]

theorem anyNumber_rounded (v : Json) : anyNumber v.rounded ↔ anyNumber v := by
  cases v <;> simp [anyNumber, number, Json.number?, Json.rounded, Json.mapScalars, Json.roundedScalar]

theorem count_rounded (v : Json) : count v.rounded ↔ count v :=
  or_congr (anyNumber_rounded v) (boolean_rounded v)

theorem anyObject_rounded (v : Json) : anyObject v.rounded ↔ anyObject v := by
  cases v <;> simp [anyObject, Json.rounded, Json.mapScalars, Json.roundedScalar]

theorem paramsShape_rounded (v : Json) : paramsShape v.rounded ↔ paramsShape v := by
  cases v with
  | object members =>
    have hmembers : (Json.object members).rounded =
        .object (members.map fun m => (m.1, m.2.rounded)) :=
      congrArg Json.object (Json.mapMembers_eq Json.roundedScalar members)
    simp [hmembers, paramsShape, anyString_rounded]
  | array elements =>
    have helements : (Json.array elements).rounded = .array (elements.map Json.rounded) :=
      congrArg Json.array (Json.mapElements_eq Json.roundedScalar elements)
    simp [helements, paramsShape]
  | _ => simp [paramsShape, Json.rounded, Json.mapScalars, Json.roundedScalar]

theorem member_string_rounded (v : Json) (key : String) (p : String → Prop) :
    (∃ s, v.rounded.member key = some (.string s) ∧ p s) ↔ ∃ s, v.member key = some (.string s) ∧ p s := by
  refine exists_congr fun s => and_congr_left fun _ => ?_
  rw [Json.member_rounded]
  rcases v.member key with _ | w
  · simp
  · cases w <;> simp [Json.rounded, Json.mapScalars, Json.roundedScalar]

theorem monitorShape_rounded (v : Json) : MonitorShape v.rounded ↔ MonitorShape v := by
  have hcount (key : String) := @optional_rounded v count count key count_rounded
  have hnumber (key : String) := @optional_rounded v anyNumber anyNumber key anyNumber_rounded
  have htype := member_string_rounded v "type" (· ∈ monitorTypes)
  have henabled := @optional_rounded v boolean boolean "enabled" boolean_rounded
  have hparams := @optional_rounded v paramsShape paramsShape "params" paramsShape_rounded
  constructor
  · intro h
    exact ⟨(anyObject_rounded v).mp h.isObject, htype.mp h.type, henabled.mp h.enabled, (hcount _).mp h.interval,
      (hcount _).mp h.timeout, (hcount _).mp h.debounceCount, (hnumber _).mp h.warnThreshold,
      (hnumber _).mp h.errorThreshold, (hnumber _).mp h.warnCpu, (hnumber _).mp h.errCpu, hparams.mp h.params⟩
  · intro h
    exact ⟨(anyObject_rounded v).mpr h.isObject, htype.mpr h.type, henabled.mpr h.enabled,
      (hcount _).mpr h.interval, (hcount _).mpr h.timeout, (hcount _).mpr h.debounceCount,
      (hnumber _).mpr h.warnThreshold, (hnumber _).mpr h.errorThreshold, (hnumber _).mpr h.warnCpu,
      (hnumber _).mpr h.errCpu, hparams.mpr h.params⟩

theorem entityShape_rounded (v : Json) : EntityShape v.rounded ↔ EntityShape v := by
  have hcount (key : String) := @optional_rounded v count count key count_rounded
  have hboolean (key : String) := @optional_rounded v boolean boolean key boolean_rounded
  have hname := member_string_rounded v "name" (· ≠ "")
  have hdescription := @optional_rounded v anyString anyString "description" anyString_rounded
  have hdeps := @optional_rounded v (each anyString) (each anyString) "dependencies"
    fun w => each_rounded anyString_rounded
  have hmonitors := @optional_rounded v (each MonitorShape) (each MonitorShape) "monitors"
    fun w => each_rounded monitorShape_rounded
  constructor
  · intro h
    exact ⟨(anyObject_rounded v).mp h.isObject, hname.mp h.name, hdescription.mp h.description,
      (hcount _).mp h.aliveTimeout, (hboolean _).mp h.autoRestart, (hcount _).mp h.maxRestartCount,
      (hcount _).mp h.restartDelay, (hboolean _).mp h.enabled, hdeps.mp h.dependencies, hmonitors.mp h.monitors⟩
  · intro h
    exact ⟨(anyObject_rounded v).mpr h.isObject, hname.mpr h.name, hdescription.mpr h.description,
      (hcount _).mpr h.aliveTimeout, (hboolean _).mpr h.autoRestart, (hcount _).mpr h.maxRestartCount,
      (hcount _).mpr h.restartDelay, (hboolean _).mpr h.enabled, hdeps.mpr h.dependencies,
      hmonitors.mpr h.monitors⟩

theorem globalShape_rounded (v : Json) : GlobalShape v.rounded ↔ GlobalShape v := by
  have hstring (key : String) := @optional_rounded v anyString anyString key anyString_rounded
  have htick := @optional_rounded v anyNumber anyNumber "tick_interval_ms" anyNumber_rounded
  have hrecovery := @optional_rounded v boolean boolean "enable_auto_recovery" boolean_rounded
  have hsize := @optional_rounded v count count "event_queue_size" count_rounded
  constructor
  · intro h
    exact ⟨htick.mp h.tickInterval, (hstring _).mp h.logDir, hrecovery.mp h.enableAutoRecovery,
      hsize.mp h.eventQueueSize, (hstring _).mp h.appName, (hstring _).mp h.version, (hstring _).mp h.ipcEndpoint⟩
  · intro h
    exact ⟨htick.mpr h.tickInterval, (hstring _).mpr h.logDir, hrecovery.mpr h.enableAutoRecovery,
      hsize.mpr h.eventQueueSize, (hstring _).mpr h.appName, (hstring _).mpr h.version,
      (hstring _).mpr h.ipcEndpoint⟩

theorem configShape_rounded (v : Json) : ConfigShape v.rounded ↔ ConfigShape v := by
  have hglobal := @optional_rounded v GlobalShape GlobalShape "global" globalShape_rounded
  have hentities := @optional_rounded v (each EntityShape) (each EntityShape) "supervised_entities"
    fun w => each_rounded entityShape_rounded
  constructor
  · intro h
    exact ⟨(anyObject_rounded v).mp h.isObject, hglobal.mp h.global, hentities.mp h.entities⟩
  · intro h
    exact ⟨(anyObject_rounded v).mpr h.isObject, hglobal.mpr h.global, hentities.mpr h.entities⟩

theorem toNat_ne_zero {n : UInt32} : n ≠ 0 ↔ n.toNat ≠ 0 := by
  rw [ne_eq, ne_eq, ← UInt32.toNat_inj]
  rfl

theorem uint32OfDouble_ne_zero_iff (d : ℚ) : rt.uint32OfDouble d ≠ 0 ↔
    if -1 < d ∧ d < 2 ^ 32 then 1 ≤ d else rt.uint32OfDouble d ≠ 0 := by
  split_ifs with hrange
  · have hfloor : d.floor < 2 ^ 32 := by
      have hle := (Rat.floor_le d).trans_lt hrange.2
      exact_mod_cast hle
    have hone : 1 ≤ d.floor ↔ 1 ≤ d := Rat.le_floor_iff
    rw [rt.uint32_of_range d hrange.1 hrange.2, toNat_ne_zero, UInt32.toNat_ofNat', ← hone]
    omega
  · rfl

theorem positiveInterval_rounded (v : Json) : positiveInterval rt v.rounded ↔ intervalKept rt v := by
  cases v with
  | unsigned n =>
    change (∀ m, Except.ok n.toUInt32 = .ok m → m ≠ 0) ↔ n.toNat % 2 ^ 32 ≠ 0
    simp [toNat_ne_zero]
  | integer n =>
    change (∀ m, Except.ok (UInt32.ofInt n.toInt) = .ok m → m ≠ 0) ↔ n.toInt % 2 ^ 32 ≠ 0
    simp only [Except.ok.injEq, forall_eq', toNat_ne_zero, UInt32.ofInt, UInt32.toNat_ofNat']
    omega
  | float q =>
    change (∀ m, Except.ok (rt.uint32OfDouble (Binary64.toDouble q)) = .ok m → m ≠ 0) ↔ _
    simp only [Except.ok.injEq, forall_eq', intervalKept]
    exact uint32OfDouble_ne_zero_iff _
  | boolean b =>
    cases b <;>
      simp [positiveInterval, intervalKept, Json.rounded, Json.mapScalars, Json.roundedScalar, getUInt32]
  | _ => simp [positiveInterval, intervalKept, Json.rounded, Json.mapScalars, Json.roundedScalar, getUInt32]


section
variable {path lastError : String} {text : List UInt8}

theorem run_parseFile (hread : Json.parse false text = .ok j) :
    (parseFile rt path (some text)).run.run lastError = (parseRoot rt j, lastError) := by
  cases hroot : parseRoot rt j <;> simp [parseFile, readJson, hread, hroot, liftM] <;> rfl

theorem run_validate (hread : Json.parse false text = .ok j) :
    ((validate rt path (some text)).run lastError).1 =
      match parseRoot rt j with
      | .error _ => false
      | .ok r => (r.entities.findSome? checkMonitors).isNone := by
  rw [validate, StateT.run_bind, run_parseFile hread]
  cases parseRoot rt j with
  | error e => rfl
  | ok r =>
    cases hfind : r.entities.findSome? checkMonitors <;> simp [bind, hfind] <;> rfl

theorem intervalsKept_rounded (written : Json) :
    (Optional written.rounded "supervised_entities" <| each fun entity =>
      Optional entity "monitors" <| each fun monitor =>
        Optional monitor "interval_ms" (positiveInterval rt)) ↔ IntervalsKept rt written :=
  optional_rounded fun _ => each_rounded fun _ => optional_rounded fun _ => each_rounded fun _ =>
    optional_rounded positiveInterval_rounded

theorem validate_iff {written : Json} (hread : Json.parse false text = .ok written.rounded) :
    ((validate rt path (some text)).run lastError).1 = true ↔
      ConfigShape written ∧ IntervalsKept rt written := by
  rw [run_validate hread, ← configShape_rounded, ← intervalsKept_rounded, ← yields_parseRoot fun _ => yields_checked]
  cases parseRoot rt written.rounded <;> simp

theorem run_validate_unread {e : Json.ReadError} (hread : Json.parse false text = .error e) :
    ((validate rt path (some text)).run lastError).1 = false := by
  have hfile : ∃ exception after, (parseFile rt path (some text)).run.run lastError = (.error exception, after) := by
    cases e <;> simp [parseFile, readJson, hread, fail] <;> exact ⟨_, _, rfl⟩
  obtain ⟨exception, after, hfile⟩ := hfile
  rw [validate, StateT.run_bind, hfile]
  rfl

end

end

section
variable {properties : List (String × Schema)} {required : List String} {additional s t : Schema}
  {members : List (String × Json)} {key : String} {j : Json}

theorem optional_of_conforms (h : object properties required additional (.object members))
    (hs : properties.lookup key = some s) (hst : ∀ v, s v → t v) :
    Optional (.object members) key t :=
  fun v hv => hst v (conforms_member key h hs hv)

theorem optional_of_unknown (h : object properties required never (.object members))
    (hs : properties.lookup key = none) : Optional (.object members) key t := by
  simp [unknown_member h hs]

theorem anyNumber_of_integer {p : Int → Prop} (h : integer p j) : anyNumber j := by
  obtain ⟨q, hq, -⟩ := h
  exact ⟨_, hq, trivial⟩

theorem count_of_atLeast {n : Int} (h : atLeast n j) : count j := .inl (anyNumber_of_integer h)

theorem anyNumber_of_percentage (h : percentage j) : anyNumber j := by
  obtain ⟨q, hq, -⟩ := h
  exact ⟨q, hq, trivial⟩

theorem each_of_array (hst : ∀ v, s v → t v) (h : array s j) : each t j := by
  obtain ⟨es, rfl, hes⟩ := h
  exact fun v hv => hst v (hes v hv)

theorem monitorShape_of_schema (h : monitorSchema j) : MonitorShape j := by
  obtain ⟨members, rfl, -⟩ := id h
  obtain ⟨v, hv⟩ := required_member "type" h (by decide)
  obtain ⟨type, rfl, htype⟩ := conforms_member "type" h rfl hv
  have hparams : ∀ v, object [] [] anyString v → paramsShape v := by
    rintro v ⟨params, rfl, -, hall⟩
    exact .inl ⟨params, rfl, fun m hm => hall m hm⟩
  exact {
    isObject := ⟨members, rfl⟩
    type := ⟨type, hv, htype⟩
    enabled := optional_of_conforms h rfl fun _ => id
    interval := optional_of_conforms h rfl fun _ => count_of_atLeast
    timeout := optional_of_conforms h rfl fun _ => count_of_atLeast
    debounceCount := optional_of_conforms h rfl fun _ => count_of_atLeast
    warnThreshold := optional_of_conforms h rfl fun _ => id
    errorThreshold := optional_of_conforms h rfl fun _ => id
    warnCpu := optional_of_conforms h rfl fun _ => anyNumber_of_percentage
    errCpu := optional_of_conforms h rfl fun _ => anyNumber_of_percentage
    params := optional_of_conforms h rfl hparams }

theorem entityShape_of_schema (h : entitySchema j) : EntityShape j := by
  obtain ⟨members, rfl, -⟩ := id h
  obtain ⟨v, hv⟩ := required_member "name" h (by decide)
  obtain ⟨name, rfl, hname⟩ := conforms_member "name" h rfl hv
  have hnonempty : name ≠ "" := by
    rintro rfl
    exact hname
  exact {
    isObject := ⟨members, rfl⟩
    name := ⟨name, hv, hnonempty⟩
    description := optional_of_conforms h rfl fun _ => id
    aliveTimeout := optional_of_conforms h rfl fun _ => count_of_atLeast
    autoRestart := optional_of_conforms h rfl fun _ => id
    maxRestartCount := optional_of_conforms h rfl fun _ => count_of_atLeast
    restartDelay := optional_of_conforms h rfl fun _ => count_of_atLeast
    enabled := optional_of_conforms h rfl fun _ => id
    dependencies := optional_of_conforms h rfl fun _ hv => each_of_array (fun _ => id) hv.1
    monitors := optional_of_conforms h rfl fun _ => each_of_array fun _ => monitorShape_of_schema }

theorem globalShape_of_schema (h : globalSchema j) : GlobalShape j := by
  obtain ⟨members, rfl, -⟩ := id h
  exact {
    tickInterval := optional_of_conforms h rfl fun _ => anyNumber_of_integer
    logDir := optional_of_conforms h rfl fun _ => id
    enableAutoRecovery := optional_of_conforms h rfl fun _ => id
    eventQueueSize := optional_of_conforms h rfl fun _ hv => .inl (anyNumber_of_integer hv)
    appName := optional_of_unknown h rfl
    version := optional_of_unknown h rfl
    ipcEndpoint := optional_of_unknown h rfl }

theorem configShape_of_schema (h : configSchema j) : ConfigShape j := by
  obtain ⟨members, rfl, -⟩ := id h
  exact {
    isObject := ⟨members, rfl⟩
    global := optional_of_conforms h rfl fun _ => globalShape_of_schema
    entities := optional_of_conforms h rfl fun _ => each_of_array fun _ => entityShape_of_schema }

theorem only_of_names {names : List String} : only names (.object members) ↔ ∀ m ∈ members, m.1 ∈ names :=
  ⟨fun h => h members rfl, by rintro h _ ⟨⟩; exact h⟩

theorem sorted_member (hsorted : j.Sorted) {v : Json} (hv : j.member key = some v) : v.Sorted := by
  cases j with
  | object members => exact Json.sortedMembers_iff.mp hsorted.2 (key, v) (mem_of_lookup hv)
  | _ => cases hv

theorem array_iff {shape rules : Schema} {v : Json} (hsorted : v.Sorted)
    (h : ∀ e : Json, e.Sorted → (s e ↔ shape e ∧ rules e)) :
    array s v ↔ each shape v ∧ anyArray v ∧ each rules v := by
  constructor
  · rintro ⟨es, rfl, hes⟩
    have hboth (e : Json) (he : e ∈ es) := (h e (Json.sortedElements_iff.mp hsorted e he)).mp (hes e he)
    exact ⟨fun e he => (hboth e he).1, ⟨es, rfl⟩, fun e he => (hboth e he).2⟩
  · rintro ⟨hshape, ⟨es, rfl⟩, hrules⟩
    exact ⟨es, rfl, fun e he => (h e (Json.sortedElements_iff.mp hsorted e he)).mpr ⟨hshape e he, hrules e he⟩⟩

theorem monitorSchema_iff (hsorted : j.Sorted) : monitorSchema j ↔ MonitorShape j ∧ MonitorRules j := by
  constructor
  · intro h
    refine ⟨monitorShape_of_schema h, ?_⟩
    obtain ⟨members, rfl, -⟩ := id h
    obtain ⟨-, hknown, -⟩ := (object_iff (Json.nodup_of_sorted hsorted.1) (by decide)).mp h
    have hparams : ∀ v, object [] [] anyString v → anyObject v := fun v ⟨params, hv, _⟩ => ⟨params, hv⟩
    exact {
      interval := optional_of_conforms h rfl fun _ => id
      timeout := optional_of_conforms h rfl fun _ => id
      debounceCount := optional_of_conforms h rfl fun _ => id
      warnCpu := optional_of_conforms h rfl fun _ => id
      errCpu := optional_of_conforms h rfl fun _ => id
      warnMemory := optional_of_conforms h rfl fun _ => id
      errMemory := optional_of_conforms h rfl fun _ => id
      params := optional_of_conforms h rfl hparams
      known := only_of_names.mpr hknown }
  · rintro ⟨shape, rules⟩
    obtain ⟨members, rfl⟩ := shape.isObject
    obtain ⟨type, htype, hmem⟩ := shape.type
    refine (object_iff (Json.nodup_of_sorted hsorted.1) (by decide)).mpr ⟨?_, only_of_names.mp rules.known, ?_⟩
    · rintro key (_ | ⟨_, ⟨⟩⟩)
      exact ⟨_, htype⟩
    · simp only [List.forall_mem_cons]
      refine ⟨fun v hv => ⟨type, Option.some.inj (hv.symm.trans htype), hmem⟩, shape.enabled, rules.interval,
        rules.timeout, rules.debounceCount, shape.warnThreshold, shape.errorThreshold, rules.warnCpu, rules.errCpu,
        rules.warnMemory, rules.errMemory, fun v hv => ?_, nofun⟩
      obtain ⟨params, rfl⟩ := rules.params v hv
      rcases shape.params _ hv with ⟨_, ⟨⟩, hstrings⟩ | hnull | hempty
      · exact ⟨params, rfl, nofun, fun m hm => hstrings m hm⟩
      · cases hnull
      · cases hempty

theorem entitySchema_iff (hsorted : j.Sorted) : entitySchema j ↔ EntityShape j ∧ EntityRules j := by
  have hlist {v : Json} (hv : j.member "monitors" = some v) :
      array monitorSchema v ↔ each MonitorShape v ∧ anyArray v ∧ each MonitorRules v :=
    array_iff (sorted_member hsorted hv) fun _ => monitorSchema_iff
  constructor
  · intro h
    refine ⟨entityShape_of_schema h, ?_⟩
    obtain ⟨members, rfl, -⟩ := id h
    obtain ⟨-, hknown, -⟩ := (object_iff (Json.nodup_of_sorted hsorted.1) (by decide)).mp h
    have hdeps : ∀ v, array anyString v ∧ uniqueItems v → anyArray v ∧ uniqueItems v :=
      fun v hv => ⟨hv.1.imp fun _ => And.left, hv.2⟩
    exact {
      name := optional_of_conforms h rfl fun _ => id
      aliveTimeout := optional_of_conforms h rfl fun _ => id
      maxRestartCount := optional_of_conforms h rfl fun _ => id
      restartDelay := optional_of_conforms h rfl fun _ => id
      dependencies := optional_of_conforms h rfl hdeps
      monitors := fun v hv => ((hlist hv).mp (conforms_member "monitors" h rfl hv)).2
      known := only_of_names.mpr hknown }
  · rintro ⟨shape, rules⟩
    obtain ⟨members, rfl⟩ := shape.isObject
    obtain ⟨name, hname, -⟩ := shape.name
    refine (object_iff (Json.nodup_of_sorted hsorted.1) (by decide)).mpr ⟨?_, only_of_names.mp rules.known, ?_⟩
    · rintro key (_ | ⟨_, ⟨⟩⟩)
      exact ⟨_, hname⟩
    · simp only [List.forall_mem_cons]
      refine ⟨rules.name, shape.description, rules.aliveTimeout, shape.autoRestart, rules.maxRestartCount,
        rules.restartDelay, shape.enabled, fun v hv => ?_,
        fun v hv => (hlist hv).mpr ⟨shape.monitors v hv, rules.monitors v hv⟩, nofun⟩
      obtain ⟨⟨es, rfl⟩, hunique⟩ := rules.dependencies v hv
      exact ⟨⟨es, rfl, shape.dependencies _ hv⟩, hunique⟩

theorem globalSchema_iff (hsorted : j.Sorted) : globalSchema j ↔ GlobalShape j ∧ GlobalRules j := by
  constructor
  · intro h
    refine ⟨globalShape_of_schema h, ?_⟩
    obtain ⟨members, rfl, -⟩ := id h
    obtain ⟨-, hknown, -⟩ := (object_iff (Json.nodup_of_sorted hsorted.1) (by decide)).mp h
    exact {
      isObject := ⟨members, rfl⟩
      tickInterval := optional_of_conforms h rfl fun _ => id
      eventQueueSize := optional_of_conforms h rfl fun _ => id
      known := only_of_names.mpr hknown }
  · rintro ⟨shape, rules⟩
    obtain ⟨members, rfl⟩ := rules.isObject
    refine (object_iff (Json.nodup_of_sorted hsorted.1) (by decide)).mpr ⟨nofun, only_of_names.mp rules.known, ?_⟩
    simp only [List.forall_mem_cons]
    exact ⟨rules.tickInterval, shape.logDir, shape.enableAutoRecovery, rules.eventQueueSize, nofun⟩

theorem configSchema_iff (hsorted : j.Sorted) : configSchema j ↔ ConfigShape j ∧ ConfigRules j := by
  have hlist {v : Json} (hv : j.member "supervised_entities" = some v) :
      array entitySchema v ↔ each EntityShape v ∧ anyArray v ∧ each EntityRules v :=
    array_iff (sorted_member hsorted hv) fun _ => entitySchema_iff
  constructor
  · intro h
    refine ⟨configShape_of_schema h, ?_⟩
    obtain ⟨members, rfl, -⟩ := id h
    obtain ⟨hrequired, hknown, -⟩ := (object_iff (Json.nodup_of_sorted hsorted.1) (by decide)).mp h
    exact {
      global := fun v hv =>
        ((globalSchema_iff (sorted_member hsorted hv)).mp (conforms_member "global" h rfl hv)).2
      required := hrequired "supervised_entities" (by simp)
      entities := fun v hv => ((hlist hv).mp (conforms_member "supervised_entities" h rfl hv)).2
      known := only_of_names.mpr hknown }
  · rintro ⟨shape, rules⟩
    obtain ⟨members, rfl⟩ := shape.isObject
    refine (object_iff (Json.nodup_of_sorted hsorted.1) (by decide)).mpr ⟨?_, only_of_names.mp rules.known, ?_⟩
    · rintro key (_ | ⟨_, ⟨⟩⟩)
      exact rules.required
    · simp only [List.forall_mem_cons]
      exact ⟨fun v hv => (globalSchema_iff (sorted_member hsorted hv)).mpr ⟨shape.global v hv, rules.global v hv⟩,
        fun v hv => (hlist hv).mpr ⟨shape.entities v hv, rules.entities v hv⟩, nofun⟩

end

theorem validate_iff_schema_iff (rt : CppRuntime) (path lastError : String) (text : List UInt8) (written : Json)
    (hread : Json.parse true text Json.asWritten = .ok written) :
    (((validate rt path (some text)).run lastError).1 = true ↔ configSchema written) ↔
      (ConfigShape written →
        (ConfigRules written ↔ IntervalsKept rt written ∧ Json.parse true text ≠ .error .outOfRange)) := by
  rw [configSchema_iff (Json.sorted_parse hread)]
  have hvalidate : ((validate rt path (some text)).run lastError).1 = true ↔
      ConfigShape written ∧ IntervalsKept rt written ∧ Json.parse true text ≠ .error .outOfRange := by
    rcases Json.parse_of_asWritten hread with hparse | hparse
    · rw [validate_iff (Json.parse_of_strict hparse), hparse]
      simp
    · simp [run_validate_unread (Json.parse_of_overflow hparse), hparse]
  rw [hvalidate]
  by_cases hshape : ConfigShape written
  · simp only [hshape, true_and, true_implies]
    exact Iff.comm
  · simp [hshape]

def intervalText (interval : String) : List UInt8 :=
  ByteString.utf8 ("\x7b\"supervised_entities\":[\x7b\"name\":\"a\",\"monitors\":" ++
    "[\x7b\"type\":\"alive\",\"interval_ms\":" ++ interval ++ "\x7d]\x7d]\x7d")

def intervalDocument (interval : Json) : Json :=
  .object [("supervised_entities", .array [.object [
    ("monitors", .array [.object [("interval_ms", interval), ("type", .string "alive")]]),
    ("name", .string "a")]])]

theorem validate_iff_schema_iff_sample :
    ((validate .truncating "" (some (intervalText "1e3"))).run "").1 = true ↔
      configSchema (intervalDocument (.float 1000)) := by
  have hmonitor : MonitorRules (.object [("interval_ms", .float 1000), ("type", .string "alive")]) := by
    refine ⟨?_, nofun, nofun, nofun, nofun, nofun, nofun, nofun, ?_⟩
    · rintro _ ⟨⟩
      exact ⟨1000, rfl, by decide⟩
    · exact only_of_names.mpr (by simp)
  have hentity : EntityRules (.object [
      ("monitors", .array [.object [("interval_ms", .float 1000), ("type", .string "alive")]]),
      ("name", .string "a")]) := by
    refine ⟨?_, nofun, nofun, nofun, nofun, ?_, only_of_names.mpr (by simp)⟩
    · rintro _ ⟨⟩
      exact ⟨"a", rfl, rfl, nofun⟩
    · rintro _ ⟨⟩
      exact ⟨⟨_, rfl⟩, List.forall_mem_singleton.mpr hmonitor⟩
  refine (validate_iff_schema_iff .truncating "" "" (intervalText "1e3") _ (by decide +kernel)).mpr fun _ => ?_
  refine iff_of_true ⟨nofun, ⟨_, rfl⟩, ?_, only_of_names.mpr (by simp)⟩ ⟨?_, by decide +kernel⟩
  · rintro _ ⟨⟩
    exact ⟨⟨_, rfl⟩, List.forall_mem_singleton.mpr hentity⟩
  · rintro _ ⟨⟩ _ (_ | ⟨_, ⟨⟩⟩) _ ⟨⟩ _ (_ | ⟨_, ⟨⟩⟩) _ ⟨⟩
    have hdouble : Binary64.toDouble 1000 = 1000 := Binary64.toDouble_natCast (by decide)
    simp only [intervalKept, hdouble]
    norm_num

theorem validate_accepts_empty_object :
    Json.parse true [0x7B, 0x7D] Json.asWritten = .ok (.object []) ∧
      ((validate .truncating "" (some [0x7B, 0x7D])).run "").1 = true ∧
      ¬ configSchema (.object []) := by
  refine ⟨rfl, rfl, ?_⟩
  intro h
  obtain ⟨v, hv⟩ := required_member "supervised_entities" h (by decide)
  cases hv

end ConfigParser

end PlatformHealth
