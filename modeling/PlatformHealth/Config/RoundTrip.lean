import PlatformHealth.Config.EntryPoints
import PlatformHealth.Library.TreeMap
import PlatformHealth.Monitor

namespace PlatformHealth

namespace ConfigParser

def intDocument (z : Int) : Json :=
  if 0 ≤ z then .unsigned (UInt64.ofNat z.toNat) else .integer (Int64.ofInt z)

def paramsDocument (params : StringMap String) : Json :=
  .ofMembers (params.toList.map fun p => (p.1, .string p.2))

def monitorDocument (mc : MonitorConfig) : Json :=
  .ofMembers
    [("type", .string (monitorTypeToString mc.type)), ("enabled", .boolean mc.enabled),
      ("interval_ms", intDocument mc.interval), ("timeout_ms", intDocument mc.timeout),
      ("debounce_count", .unsigned mc.debounceCount.toUInt64),
      ("warn_threshold", .float mc.warnThreshold), ("error_threshold", .float mc.errorThreshold),
      ("params", paramsDocument mc.params)]

def entityDocument (se : SEConfig) : Json :=
  .ofMembers
    [("name", .string se.name), ("description", .string se.description),
      ("alive_timeout_ms", intDocument se.aliveTimeout), ("auto_restart", .boolean se.autoRestart),
      ("max_restart_count", .unsigned se.maxRestartCount.toUInt64),
      ("restart_delay_s", intDocument se.restartDelay), ("enabled", .boolean se.enabled),
      ("dependencies", .array (se.dependencies.map .string)),
      ("monitors", .array (se.monitors.map monitorDocument))]

def globalDocument (c : PhmConfig) : Json :=
  .ofMembers
    [("tick_interval_ms", intDocument c.tickInterval), ("log_dir", .string c.logDir),
      ("enable_auto_recovery", .boolean c.enableAutoRecovery),
      ("event_queue_size", .unsigned c.eventQueueSize.toUInt64), ("app_name", .string c.appName),
      ("version", .string c.version), ("ipc_endpoint", .string c.ipcEndpoint),
      ("config_path", .string c.configPath)]

def document (c : PhmConfig) (es : List SEConfig) : Json :=
  .ofMembers
    [("global", globalDocument c), ("supervised_entities", .array (es.map entityDocument))]

def Int64Range (z : Int) : Prop := -2 ^ 63 ≤ z ∧ z < 2 ^ 63

instance (z : Int) : Decidable (Int64Range z) :=
  inferInstanceAs (Decidable (-2 ^ 63 ≤ z ∧ z < 2 ^ 63))

structure Typed (se : SEConfig) : Prop where
  name : se.name ≠ ""
  aliveTimeout : Int64Range se.aliveTimeout
  restartDelay : Int64Range se.restartDelay
  monitors : ∀ mc ∈ se.monitors, Int64Range mc.interval ∧ Int64Range mc.timeout

def narrowedMonitor (mc : MonitorConfig) : MonitorConfig :=
  { mc with interval := mc.interval % 2 ^ 32, timeout := mc.timeout % 2 ^ 32 }

def narrowed (se : SEConfig) : SEConfig :=
  { se with
    aliveTimeout := se.aliveTimeout.bmod (2 ^ 32)
    restartDelay := se.restartDelay % 2 ^ 32
    monitors := se.monitors.map narrowedMonitor }

section
variable (rt : CppRuntime)

theorem getUInt32_intDocument {z : Int} (h : Int64Range z) :
    ∃ n, getUInt32 rt (intDocument z) = .ok n ∧ (n.toNat : Int) = z % 2 ^ 32 := by
  obtain ⟨hlo, hhi⟩ := h
  unfold intDocument
  split
  · next hz =>
    refine ⟨_, rfl, ?_⟩
    rw [UInt64.toNat_toUInt32, UInt64.toNat_ofNat_of_lt' (by change z.toNat < 2 ^ 64; omega)]
    omega
  · next hz =>
    refine ⟨_, rfl, ?_⟩
    rw [Int64.toInt_ofInt_of_le hlo hhi, UInt32.ofInt, UInt32.toNat_ofNat']
    omega

theorem getInt32_intDocument {z : Int} (h : Int64Range z) :
    ∃ n, getInt32 rt (intDocument z) = .ok n ∧ n.toInt = z.bmod (2 ^ 32) := by
  obtain ⟨hlo, hhi⟩ := h
  unfold intDocument
  split
  · next hz =>
    refine ⟨_, rfl, ?_⟩
    rw [UInt64.toNat_ofNat_of_lt' (by change z.toNat < 2 ^ 64; omega), Int32.toInt_ofInt,
      Int.toNat_of_nonneg hz]
    rfl
  · next hz =>
    refine ⟨_, rfl, ?_⟩
    rw [Int64.toInt_ofInt_of_le hlo hhi, Int32.toInt_ofInt]
    rfl

theorem getUInt64_intDocument {z : Int} (h : Int64Range z) :
    ∃ n, getUInt64 rt (intDocument z) = .ok n ∧ n.toInt64.toInt = z := by
  obtain ⟨hlo, hhi⟩ := h
  unfold intDocument
  split
  · next hz =>
    refine ⟨_, rfl, ?_⟩
    rw [UInt64.toInt64_ofNat', Int64.toInt_ofNat_of_lt (by omega)]
    omega
  · next hz =>
    refine ⟨_, rfl, ?_⟩
    have hlow : (z % 2 ^ 64).toNat = (z + 2 ^ 64).toNat := by omega
    rw [Int64.toInt_ofInt_of_le hlo hhi, UInt64.ofInt, hlow, UInt64.toInt64_ofNat',
      Int64.toInt_ofNat', Int.toNat_of_nonneg (by omega)]
    exact (Int.add_bmod_right z (2 ^ 64)).trans (Int.bmod_eq_of_le (by omega) (by omega))

theorem getUInt32_unsigned (n : UInt32) : getUInt32 rt (.unsigned n.toUInt64) = .ok n := by
  simp [getUInt32]

theorem value_ofMembers {α : Type} (entries : List (String × Json)) (key : String)
    (get : Json → Except CppException α) (default : α) :
    value (.ofMembers entries) key get default =
      match entries.reverse.lookup key with
      | some v => get v
      | none => .ok default := by
  have hmember : (Json.setMembers [] entries).lookup key = entries.reverse.lookup key :=
    Json.member_ofMembers entries key
  cases hkey : entries.reverse.lookup key with
  | none => simp [value, Json.ofMembers, hmember, hkey]
  | some v => simp [value, Json.ofMembers, hmember, hkey]

theorem field_ofMembers {α : Type} (entries : List (String × Json)) (key : String)
    (get : Json → Except CppException α) (default : α) :
    field (.ofMembers entries) key get default =
      match entries.reverse.lookup key with
      | some v => get v
      | none => .ok default := by
  cases hkey : entries.reverse.lookup key with
  | none => simp [field, Json.member_ofMembers, hkey]
  | some v => simp [field, Json.member_ofMembers, hkey]

theorem mapM_ok {α β : Type} {f : α → Except CppException β} {g : α → β} {l : List α}
    (h : ∀ a ∈ l, f a = .ok (g a)) : l.mapM f = .ok (l.map g) := by
  induction l with
  | nil => rfl
  | cons a l ih =>
    rw [List.mapM_cons, h a (by simp), ih fun b hb => h b (by simp [hb])]
    rfl

theorem paramsDocument_eq (params : StringMap String) :
    paramsDocument params = .object (params.toList.map fun p => (p.1, .string p.2)) := by
  rw [paramsDocument, Json.ofMembers, Json.setMembers_of_sorted]
  · rfl
  · rw [List.nil_append, List.pairwise_map]
    exact Std.ExtTreeMap.ordered_keys_toList.imp TreeMap.lt_of_compare

theorem foldlM_insert (entries : List (String × String)) (result : StringMap String) :
    (entries.map fun p => (p.1, Json.string p.2)).foldlM
        (fun result member => do return result.insert member.1 (← getString member.2)) result =
      .ok (entries.foldl (fun result p => result.insert p.1 p.2) result) := by
  induction entries generalizing result with
  | nil => rfl
  | cons p rest ih => exact ih (result.insert p.1 p.2)

theorem parseParams_document (params : StringMap String) :
    parseParams (paramsDocument params) = .ok params := by
  rw [paramsDocument_eq, parseParams, foldlM_insert, ← Std.ExtTreeMap.ofList_eq_foldl,
    TreeMap.ofList_toList]

theorem monitorTypeFromString_toString (type : MonitorType) :
    monitorTypeFromString (monitorTypeToString type) = type := by
  cases type <;> rfl

theorem parseMonitorConfig_document {mc : MonitorConfig} (hinterval : Int64Range mc.interval)
    (htimeout : Int64Range mc.timeout) :
    parseMonitorConfig rt (monitorDocument mc) = .ok (narrowedMonitor mc) := by
  obtain ⟨interval, hinterval, hi⟩ := getUInt32_intDocument rt hinterval
  obtain ⟨timeout, htimeout, ht⟩ := getUInt32_intDocument rt htimeout
  have hparams := parseParams_document mc.params
  have htype := monitorTypeFromString_toString mc.type
  have hknown : ¬ (mc.type = .custom ∧ monitorTypeToString mc.type ≠ "custom") := by
    rintro ⟨h, hne⟩
    exact hne (by rw [h]; rfl)
  simp [parseMonitorConfig, monitorDocument, value_ofMembers, Json.lookup_cons, getString, htype,
    hknown, getBool, hinterval, htimeout, getUInt32_unsigned, getDouble, hparams, narrowedMonitor,
    bind, Except.bind, pure, Except.pure, hi, ht]

theorem parseEntityConfig_document {se : SEConfig} (h : Typed se) :
    parseEntityConfig rt (entityDocument se) = .ok (narrowed se) := by
  obtain ⟨alive, halive, ha⟩ := getInt32_intDocument rt h.aliveTimeout
  obtain ⟨delay, hdelay, hd⟩ := getUInt32_intDocument rt h.restartDelay
  have hdeps : (se.dependencies.map Json.string).mapM getString = .ok se.dependencies := by
    rw [List.mapM_map]
    exact (mapM_ok fun a _ => rfl).trans (by rw [List.map_id'])
  have hmonitors : (se.monitors.map monitorDocument).mapM (parseMonitorConfig rt) =
      .ok (se.monitors.map narrowedMonitor) := by
    rw [List.mapM_map]
    exact mapM_ok fun mc hmc =>
      parseMonitorConfig_document rt (h.monitors mc hmc).1 (h.monitors mc hmc).2
  simp [parseEntityConfig, entityDocument, value_ofMembers, Json.lookup_cons, getString, h.name,
    getBool, halive, hdelay, getUInt32_unsigned, Json.items, hdeps, hmonitors, narrowed,
    bind, Except.bind, pure, Except.pure, ha, hd]

theorem parseGlobalConfig_document {c : PhmConfig} (h : Int64Range c.tickInterval)
    (entities : Json) :
    parseGlobalConfig rt (.ofMembers [("global", globalDocument c), ("supervised_entities", entities)]) =
      .ok { c with configPath := ({} : PhmConfig).configPath } := by
  obtain ⟨tick, htick, ht⟩ := getUInt64_intDocument rt h
  simp [parseGlobalConfig, Json.member_ofMembers, globalDocument, field_ofMembers, Json.lookup_cons,
    getString, getBool, htick, getUInt32_unsigned, bind, Except.bind, pure, Except.pure, ht]

theorem parseRoot_document {c : PhmConfig} {es : List SEConfig} (hc : Int64Range c.tickInterval)
    (hes : ∀ se ∈ es, Typed se) :
    parseRoot rt (document c es) =
      .ok { global := { c with configPath := ({} : PhmConfig).configPath }
            entities := es.map narrowed } := by
  have hentities : (es.map entityDocument).mapM (parseEntityConfig rt) = .ok (es.map narrowed) := by
    rw [List.mapM_map]
    exact mapM_ok fun se hse => parseEntityConfig_document rt (hes se hse)
  simp [parseRoot, document, parseGlobalConfig_document rt hc, value_ofMembers, Json.items,
    hentities, bind, Except.bind, pure, Except.pure]

end

-- the fields that the parser neither drops nor passes through a narrower type
structure Kept (c : PhmConfig) (es : List SEConfig) : Prop where
  configPath : c.configPath = ({} : PhmConfig).configPath
  aliveTimeout : ∀ se ∈ es, -2 ^ 31 ≤ se.aliveTimeout ∧ se.aliveTimeout < 2 ^ 31
  restartDelay : ∀ se ∈ es, 0 ≤ se.restartDelay ∧ se.restartDelay < 2 ^ 32
  interval : ∀ se ∈ es, ∀ mc ∈ se.monitors, 0 ≤ mc.interval ∧ mc.interval < 2 ^ 32
  timeout : ∀ se ∈ es, ∀ mc ∈ se.monitors, 0 ≤ mc.timeout ∧ mc.timeout < 2 ^ 32

theorem emod_eq_self_iff (z : Int) : z % 2 ^ 32 = z ↔ 0 ≤ z ∧ z < 2 ^ 32 := by omega

theorem bmod_eq_self_iff (z : Int) : z.bmod (2 ^ 32) = z ↔ -2 ^ 31 ≤ z ∧ z < 2 ^ 31 := by
  constructor
  · intro h
    have hlo := Int.le_bmod (x := z) (m := 2 ^ 32) (by decide)
    have hhi := Int.bmod_lt (x := z) (m := 2 ^ 32) (by decide)
    omega
  · rintro ⟨hlo, hhi⟩
    exact Int.bmod_eq_of_le (by omega) (by omega)

theorem narrowedMonitor_eq_self_iff (mc : MonitorConfig) :
    narrowedMonitor mc = mc ↔
      (0 ≤ mc.interval ∧ mc.interval < 2 ^ 32) ∧ (0 ≤ mc.timeout ∧ mc.timeout < 2 ^ 32) := by
  rw [← emod_eq_self_iff, ← emod_eq_self_iff]
  constructor
  · intro h
    exact ⟨congrArg MonitorConfig.interval h, congrArg MonitorConfig.timeout h⟩
  · rintro ⟨hinterval, htimeout⟩
    rw [narrowedMonitor, hinterval, htimeout]

theorem map_eq_self_iff {α : Type} (f : α → α) (l : List α) : l.map f = l ↔ ∀ a ∈ l, f a = a := by
  conv_lhs => rhs; rw [← List.map_id l]
  exact List.map_inj_left

theorem narrowed_eq_self_iff (se : SEConfig) :
    narrowed se = se ↔
      (-2 ^ 31 ≤ se.aliveTimeout ∧ se.aliveTimeout < 2 ^ 31) ∧
        (0 ≤ se.restartDelay ∧ se.restartDelay < 2 ^ 32) ∧
        ∀ mc ∈ se.monitors, narrowedMonitor mc = mc := by
  rw [← bmod_eq_self_iff, ← emod_eq_self_iff, ← map_eq_self_iff]
  constructor
  · intro h
    exact ⟨congrArg SEConfig.aliveTimeout h, congrArg SEConfig.restartDelay h,
      congrArg SEConfig.monitors h⟩
  · rintro ⟨halive, hdelay, hmonitors⟩
    rw [narrowed, halive, hdelay, hmonitors]

theorem parsed_eq_iff_kept (c : PhmConfig) (es : List SEConfig) :
    ({ global := { c with configPath := ({} : PhmConfig).configPath }
       entities := es.map narrowed } : ParseResult) = { global := c, entities := es } ↔
      Kept c es := by
  have hglobal : { c with configPath := ({} : PhmConfig).configPath } = c ↔
      c.configPath = ({} : PhmConfig).configPath := by
    constructor
    · intro h
      exact (congrArg PhmConfig.configPath h).symm
    · intro h
      rw [← h]
  rw [ParseResult.mk.injEq, hglobal, map_eq_self_iff]
  simp only [narrowed_eq_self_iff, narrowedMonitor_eq_self_iff]
  constructor
  · rintro ⟨hpath, h⟩
    exact ⟨hpath, fun se hse => (h se hse).1, fun se hse => (h se hse).2.1,
      fun se hse mc hmc => ((h se hse).2.2 mc hmc).1, fun se hse mc hmc => ((h se hse).2.2 mc hmc).2⟩
  · intro h
    exact ⟨h.configPath, fun se hse => ⟨h.aliveTimeout se hse, h.restartDelay se hse,
      fun mc hmc => ⟨h.interval se hse mc hmc, h.timeout se hse mc hmc⟩⟩⟩

theorem parseString_document_iff (rt : CppRuntime) (c : PhmConfig) (es : List SEConfig)
    (text : List UInt8) (lastError : String) (hc : Int64Range c.tickInterval)
    (hes : ∀ se ∈ es, Typed se) (htext : Json.parse true text = .ok (document c es)) :
    outcome (parseString rt text) lastError = some { global := c, entities := es } ↔ Kept c es := by
  have hparsed : outcome (parseString rt text) lastError = (parseRoot rt (document c es)).toOption :=
    outcome_of_parsed htext
  rw [hparsed, parseRoot_document rt hc hes, Except.toOption, Option.some.injEq]
  exact parsed_eq_iff_kept c es

def camera : SEConfig where
  name := "camera"
  dependencies := ["imu"]
  monitors := [{
    type := .alive
    params := StringMap.empty.insert "health_channel" "cam"
    warnThreshold := 3 / 2 }]

def globalText (configPath : String) : String :=
  "\x7b\"global\": \x7b\"tick_interval_ms\": 100, \"log_dir\": \"/var/log/phmd\", " ++
  "\"enable_auto_recovery\": true, \"event_queue_size\": 1024, \"app_name\": \"phmd\", " ++
  "\"version\": \"1.0.0\", \"ipc_endpoint\": \"/tmp/phmd.sock\", \"config_path\": \"" ++ configPath ++
  "\"\x7d, \"supervised_entities\": "

def cameraText : String :=
  globalText "/etc/phm/se_config.json" ++
  "[\x7b\"name\": \"camera\", \"description\": \"\", \"alive_timeout_ms\": 5000, \"auto_restart\": false, " ++
  "\"max_restart_count\": 3, \"restart_delay_s\": 5, \"enabled\": true, \"dependencies\": [\"imu\"], " ++
  "\"monitors\": [\x7b\"type\": \"alive\", \"enabled\": true, \"interval_ms\": 1000, " ++
  "\"timeout_ms\": 5000, \"debounce_count\": 3, \"warn_threshold\": 1.5, " ++
  "\"error_threshold\": 0.0, \"params\": \x7b\"health_channel\": \"cam\"\x7d\x7d]\x7d]\x7d"

theorem parseString_cameraText :
    outcome (parseString .truncating cameraText.toUTF8.data.toList) "" =
      some { global := {}, entities := [camera] } := by
  have htyped : ∀ se ∈ [camera], Typed se := by
    rintro se (_ | ⟨_, ⟨⟩⟩)
    exact ⟨by decide, by decide, by decide, by decide⟩
  have htext : Json.parse true cameraText.toUTF8.data.toList = .ok (document {} [camera]) := by
    decide +kernel
  exact (parseString_document_iff .truncating {} [camera] _ "" (by decide) htyped htext).mpr
    ⟨rfl, by decide, by decide, by decide, by decide⟩

theorem config_path_is_not_read :
    let c : PhmConfig := { configPath := "/srv/phm.json" }
    let text := (globalText "/srv/phm.json" ++ "[]\x7d").toUTF8.data.toList
    Json.parse true text = .ok (document c []) ∧
      outcome (parseString .truncating text) "" ≠ some { global := c, entities := [] } := by
  intro c text
  have htext : Json.parse true text = .ok (document c []) := by decide +kernel
  refine ⟨htext, ?_⟩
  have hparsed : outcome (parseString .truncating text) "" =
      (parseRoot .truncating (document c [])).toOption := outcome_of_parsed htext
  rw [hparsed, parseRoot_document .truncating (by decide) (by simp)]
  intro h
  exact absurd (congrArg (Option.map fun r : ParseResult => r.global.configPath) h) (by decide)

end ConfigParser

end PlatformHealth
