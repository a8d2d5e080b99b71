import PlatformHealth.Library.Json.Reader
import PlatformHealth.Types

namespace PlatformHealth

open Json (ReadError)

-- what the compiler and the JSON library leave open: a double cast out of the range of an
-- integer type, and the text of the library's read errors
structure CppRuntime where
  uint32OfDouble : ℚ → UInt32
  int32OfDouble : ℚ → Int32
  uint64OfDouble : ℚ → UInt64
  what : List UInt8 → ReadError → String
  uint32_of_range : ∀ q : ℚ, -1 < q → q < 2 ^ 32 →
    uint32OfDouble q = UInt32.ofNat q.floor.toNat
  int32_of_range : ∀ q : ℚ, -2 ^ 31 - 1 < q → q < 2 ^ 31 →
    int32OfDouble q = Int32.ofInt (if q < 0 then -(-q).floor else q.floor)
  uint64_of_range : ∀ q : ℚ, -1 < q → q < 2 ^ 64 →
    uint64OfDouble q = UInt64.ofNat q.floor.toNat

def CppRuntime.truncating : CppRuntime where
  uint32OfDouble q := UInt32.ofNat q.floor.toNat
  int32OfDouble q := Int32.ofInt (if q < 0 then -(-q).floor else q.floor)
  uint64OfDouble q := UInt64.ofNat q.floor.toNat
  what _ _ := ""
  uint32_of_range _ _ _ := rfl
  int32_of_range _ _ _ := rfl
  uint64_of_range _ _ _ := rfl

inductive CppException where
  | runtimeError (what : String)
  | readError (e : ReadError) (what : String)
  | typeError (what : String)
  | invalidIterator (what : String)

def CppException.what : CppException → String
  | runtimeError what | readError _ what | typeError what | invalidIterator what => what

def typeError302 (expected : String) (j : Json) : CppException :=
  .typeError ("[json.exception.type_error.302] type must be " ++ expected ++ ", but is " ++ j.typeName)

variable (rt : CppRuntime)

def getString : Json → Except CppException String
  | .string s => .ok s
  | j => .error (typeError302 "string" j)

def getBool : Json → Except CppException Bool
  | .boolean b => .ok b
  | j => .error (typeError302 "boolean" j)

def getDouble : Json → Except CppException ℚ
  | .unsigned n => .ok ((Binary64.round n.toNat).getD 0)
  | .integer n => .ok ((Binary64.round n.toInt).getD 0)
  | .float q => .ok q
  | j => .error (typeError302 "number" j)

def getUInt64 : Json → Except CppException UInt64
  | .unsigned n => .ok n
  | .integer n => .ok (UInt64.ofInt n.toInt)
  | .float q => .ok (rt.uint64OfDouble q)
  | j => .error (typeError302 "number" j)

-- the types that are none of the library's own numbers also convert from a boolean
def getUInt32 : Json → Except CppException UInt32
  | .unsigned n => .ok n.toUInt32
  | .integer n => .ok (UInt32.ofInt n.toInt)
  | .float q => .ok (rt.uint32OfDouble q)
  | .boolean b => .ok (if b then 1 else 0)
  | j => .error (typeError302 "number" j)

def getInt32 : Json → Except CppException Int32
  | .unsigned n => .ok (Int32.ofInt n.toNat)
  | .integer n => .ok (Int32.ofInt n.toInt)
  | .float q => .ok (rt.int32OfDouble q)
  | .boolean b => .ok (if b then 1 else 0)
  | j => .error (typeError302 "number" j)

def value {α : Type} (j : Json) (key : String) (get : Json → Except CppException α) (default : α) :
    Except CppException α :=
  match j with
  | .object members =>
    match members.lookup key with
    | some v => get v
    | none => .ok default
  | _ =>
    .error (.typeError ("[json.exception.type_error.306] cannot use value() with " ++ j.typeName))

def monitorTypeFromString (s : String) : MonitorType :=
  if s = "process_lifecycle" then .processLifecycle
  else if s = "resource" then .resource
  else if s = "deadlock" then .deadlock
  else if s = "alive" then .alive
  else if s = "custom" then .custom
  else .custom

-- the value of a parameter is converted before its key is asked for
def parseParams (params : Json) : Except CppException (StringMap String) :=
  match params with
  | .object members =>
    members.foldlM (fun result member => do return result.insert member.1 (← getString member.2)) ∅
  | _ =>
    match params.items with
    | [] => .ok ∅
    | v :: _ => do
      let _ ← getString v
      .error (.invalidIterator
        "[json.exception.invalid_iterator.207] cannot use key() for non-object iterators")

def parseMonitorConfig (j : Json) : Except CppException MonitorConfig := do
  let typeStr ← value j "type" getString ""
  let type := monitorTypeFromString typeStr
  if type = .custom ∧ typeStr ≠ "custom" then
    throw (.runtimeError ("Unknown monitor type: " ++ typeStr))
  let enabled ← value j "enabled" getBool true
  let interval ← value j "interval_ms" (getUInt32 rt) 1000
  let timeout ← value j "timeout_ms" (getUInt32 rt) 5000
  let debounceCount ← value j "debounce_count" (getUInt32 rt) 3
  let warnThreshold ← value j "warn_threshold" getDouble 0
  let errorThreshold ← value j "error_threshold" getDouble 0
  let warnCpu ← value j "warn_threshold_cpu" getDouble 0
  let errCpu ← value j "error_threshold_cpu" getDouble 0
  let params ← parseParams (← value j "params" .ok (.object []))
  return {
    type
    params
    interval := interval.toNat
    timeout := timeout.toNat
    debounceCount
    warnThreshold := if 0 < warnCpu then warnCpu else warnThreshold
    errorThreshold := if 0 < errCpu then errCpu else errorThreshold
    enabled }

def parseEntityConfig (j : Json) : Except CppException SEConfig := do
  let name ← value j "name" getString ""
  if name = "" then
    throw (.runtimeError "Entity missing required field: name")
  let description ← value j "description" getString ""
  let aliveTimeout ← value j "alive_timeout_ms" (getInt32 rt) 5000
  let autoRestart ← value j "auto_restart" getBool false
  let maxRestartCount ← value j "max_restart_count" (getUInt32 rt) 3
  let restartDelay ← value j "restart_delay_s" (getUInt32 rt) 5
  let enabled ← value j "enabled" getBool true
  let deps ← value j "dependencies" .ok (.array [])
  let dependencies ← deps.items.mapM getString
  let mons ← value j "monitors" .ok (.array [])
  let monitors ← mons.items.mapM (parseMonitorConfig rt)
  return {
    name
    description
    monitors
    dependencies
    aliveTimeout := aliveTimeout.toInt
    autoRestart
    maxRestartCount
    restartDelay := restartDelay.toNat
    enabled }

def field {α : Type} (j : Json) (key : String) (get : Json → Except CppException α) (default : α) :
    Except CppException α :=
  match j.member key with
  | some v => get v
  | none => .ok default

def parseGlobalConfig (j : Json) : Except CppException PhmConfig :=
  let config : PhmConfig := {}
  match j.member "global" with
  | none => .ok config
  | some global => do
    let tickInterval ← field global "tick_interval_ms"
      (fun v => do return (← getUInt64 rt v).toInt64.toInt) config.tickInterval
    let logDir ← field global "log_dir" getString config.logDir
    let enableAutoRecovery ← field global "enable_auto_recovery" getBool config.enableAutoRecovery
    let eventQueueSize ← field global "event_queue_size" (getUInt32 rt) config.eventQueueSize
    let appName ← field global "app_name" getString config.appName
    let version ← field global "version" getString config.version
    let ipcEndpoint ← field global "ipc_endpoint" getString config.ipcEndpoint
    return {
      config with tickInterval, logDir, enableAutoRecovery, eventQueueSize, appName, version, ipcEndpoint }

namespace ConfigParser

-- the state is s_last_error
abbrev ParserM := ExceptT CppException (StateM String)

def fail {α : Type} (error : String) : ParserM α := do
  set error
  throw (.runtimeError error)

-- a number out of range is no parse_error, and is not caught
def readJson (strict : Bool) (content : List UInt8) : ParserM Json :=
  match Json.parse strict content with
  | .ok root => return root
  | .error .syntaxError => fail ("JSON parse error: " ++ rt.what content .syntaxError)
  | .error .outOfRange => throw (.readError .outOfRange (rt.what content .outOfRange))

def parseRoot (root : Json) : Except CppException ParseResult := do
  let global ← parseGlobalConfig rt root
  let entities ← value root "supervised_entities" .ok (.array [])
  return { global, entities := ← entities.items.mapM (parseEntityConfig rt) }

-- content is none where the file cannot be opened
def parseFile (jsonPath : String) (content : Option (List UInt8)) : ParserM ParseResult :=
  match content with
  | none => fail ("Cannot open file: " ++ jsonPath)
  | some content => do
    let root ← readJson rt false content
    liftM (parseRoot rt root)

def parseString (jsonContent : List UInt8) : ParserM ParseResult := do
  let root ← readJson rt true jsonContent
  liftM (parseRoot rt root)

def checkMonitors (cfg : SEConfig) : Option String :=
  if cfg.name = "" then some "Entity name is empty"
  else if cfg.monitors.any (·.interval ≤ 0) then
    some ("Invalid interval for monitor in entity: " ++ cfg.name)
  else none

def validate (jsonPath : String) (content : Option (List UInt8)) : StateM String Bool := do
  match ← (parseFile rt jsonPath content).run with
  | .error e =>
    set e.what
    return false
  | .ok result =>
    match result.entities.findSome? checkMonitors with
    | some error =>
      set error
      return false
    | none => return true

end ConfigParser

end PlatformHealth
