import PlatformHealth.Channel.HealthChannel
import PlatformHealth.Engine.PhmEngine
import PlatformHealth.Library.ByteString

namespace PlatformHealth

open LockDiscipline ByteString

inductive Quoted where
  | missing
  | invalid
  | text (t : Bytes)

-- what the handlers ask of the engine; getEntity answers with the name and the state of the entity
structure EngineCalls (m : Type → Type) where
  getGlobalState : m SeState
  getEntity : Bytes → m (Option (Bytes × SeState))
  getEntityNames : m (List String)
  reloadConfiguration : m Bool
  getStats : m EngineStats

-- what they take out of the request, by substr and erase, which may throw
structure Search (m : Type → Type) where
  extractId : Bytes → m Bytes
  extractMethod : Bytes → m Quoted
  extractName : Bytes → m Quoted

abbrev Chunk := { bytes : Bytes // bytes ≠ [] }

namespace IpcServer

-- none is std::out_of_range
def extractId (request : Bytes) : Option Bytes :=
  match find request (utf8 "\"id\"") 0 with
  | none => some (utf8 "null")
  | some idPos =>
    match find request (utf8 ":") (idPos + 4) with
    | none => some (utf8 "null")
    | some colon =>
      match findFirstOf request (utf8 ",\x7d") (colon + 1) with
      | none => some (utf8 "null")
      | some stop => do
        let id ← substr request (colon + 1) (some (stop - colon - 1))
        let id ← erase id 0 (findFirstNotOf id (utf8 " \t"))
        erase id (next (findLastNotOf id (utf8 " \t"))) none

-- without a colon the quote is searched from the start, without a closing quote the text runs
-- to the end
def extractQuoted (request key : Bytes) : Option Quoted :=
  match find request key 0 with
  | none => some .missing
  | some pos =>
    let colon := find request (utf8 ":") (pos + key.length)
    match find request (utf8 "\"") (next colon) with
    | none => some .invalid
    | some start => do
      let stop := find request (utf8 "\"") (start + 1)
      return .text (← substr request (start + 1) (stop.map (· - (start + 1))))

def extractMethod (request : Bytes) : Option Quoted := extractQuoted request (utf8 "\"method\"")

def extractName (request : Bytes) : Option Quoted := extractQuoted request (utf8 "\"name\"")

def makeResult (id result : Bytes) : Bytes :=
  utf8 "\x7b\"jsonrpc\":\"2.0\",\"id\":" ++ id ++ utf8 ",\"result\":" ++ result ++ utf8 "\x7d\n"

def makeError (id : Bytes) (code : Int) (msg : Bytes) : Bytes :=
  utf8 "\x7b\"jsonrpc\":\"2.0\",\"id\":" ++ id ++ utf8 ",\"error\":\x7b\"code\":" ++
    utf8 (toString code) ++ utf8 ",\"message\":\"" ++ msg ++ utf8 "\"\x7d\x7d\n"

def stateToString : SeState → String
  | .init => "INIT"
  | .running => "RUNNING"
  | .suspect => "SUSPECT"
  | .warn => "WARN"
  | .error => "ERROR"
  | .fatal => "FATAL"

def joinNames : List String → Bytes
  | [] => []
  | [name] => utf8 "\"" ++ utf8 name ++ utf8 "\""
  | name :: rest => utf8 "\"" ++ utf8 name ++ utf8 "\"" ++ utf8 "," ++ joinNames rest

section
variable {m : Type → Type} [Monad m]

def handleGetGlobalState (engine : EngineCalls m) (id : Bytes) : m Bytes := do
  let state ← engine.getGlobalState
  return makeResult id
    (utf8 "\x7b\"global_state\":\"" ++ utf8 (stateToString state) ++ utf8 "\"\x7d")

def entityResult (name : Bytes) (state : SeState) : Bytes :=
  utf8 "\x7b\"name\":\"" ++ name ++ utf8 "\"," ++
    utf8 "\"state\":\"" ++ utf8 (stateToString state) ++ utf8 "\"" ++ utf8 "\x7d"

def handleGetEntity (search : Search m) (engine : EngineCalls m) (id request : Bytes) : m Bytes := do
  match ← search.extractName request with
  | .missing => return makeError id (-32602) (utf8 "Missing param: name")
  | .invalid => return makeError id (-32602) (utf8 "Invalid param: name")
  | .text name =>
    match ← engine.getEntity name with
    | none => return makeError id (-32602) (utf8 "Entity not found: " ++ name)
    | some (name, state) => return makeResult id (entityResult name state)

def handleListEntities (engine : EngineCalls m) (id : Bytes) : m Bytes := do
  let names ← engine.getEntityNames
  return makeResult id (utf8 "[" ++ joinNames names ++ utf8 "]")

def handleListEvents (id _request : Bytes) : m Bytes := return makeResult id (utf8 "[]")

def handleReloadConfig (engine : EngineCalls m) (id : Bytes) : m Bytes := do
  let ok ← engine.reloadConfiguration
  return makeResult id
    (utf8 (if ok then "\x7b\"status\":\"ok\"\x7d" else "\x7b\"status\":\"error\"\x7d"))

def statsResult (stats : EngineStats) : Bytes :=
  utf8 "\x7b" ++
    utf8 "\"total_entities\":" ++ utf8 (toString stats.totalEntities) ++ utf8 "," ++
    utf8 "\"active_entities\":" ++ utf8 (toString stats.activeEntities) ++ utf8 "," ++
    utf8 "\"total_monitors\":" ++ utf8 (toString stats.totalMonitors) ++ utf8 "," ++
    utf8 "\"pending_events\":" ++ utf8 (toString stats.pendingEvents) ++ utf8 "," ++
    utf8 "\"global_state\":\"" ++ utf8 (stateToString stats.globalState) ++ utf8 "\"," ++
    utf8 "\"uptime_ms\":" ++ utf8 (toString stats.uptimeMs) ++
    utf8 "\x7d"

def handleGetStats (engine : EngineCalls m) (id : Bytes) : m Bytes := do
  let stats ← engine.getStats
  return makeResult id (statsResult stats)

def dispatchBy (search : Search m) (engine : EngineCalls m) (request : Bytes) : m Bytes := do
  let id ← search.extractId request
  match ← search.extractMethod request with
  | .missing => return makeError id (-32600) (utf8 "Invalid Request: missing method")
  | .invalid => return makeError id (-32600) (utf8 "Invalid Request")
  | .text method =>
    if method = utf8 "get_global_state" then
      handleGetGlobalState engine id
    else if method = utf8 "get_entity" then
      handleGetEntity search engine id request
    else if method = utf8 "list_entities" then
      handleListEntities engine id
    else if method = utf8 "list_events" then
      handleListEvents id request
    else if method = utf8 "reload_config" then
      handleReloadConfig engine id
    else if method = utf8 "get_stats" then
      handleGetStats engine id
    else
      return makeError id (-32601) (utf8 "Method not found: " ++ method)

end

section
variable {μ : Type}

def orThrow {α : Type} (a : Option α) : EngineM μ α :=
  match a with
  | some a => return a
  | none => throw (.raised (.thrown "std::out_of_range"))

def search : Search (EngineM μ) where
  extractId request := orThrow (extractId request)
  extractMethod request := orThrow (extractMethod request)
  extractName request := orThrow (extractName request)

-- bytes that are not text name no entity
def findEntity (name : Bytes) : EngineM μ (Option (SupervisedEntity μ)) := do
  let ref ← match decode name with
    | some name => PhmEngine.getEntity name
    | none => withLock (return none)
  return ref.bind ((← get).objects[·]?)

-- parsed is what the parser makes of the configuration file at this moment
def engineCalls (parsed : Except String ParseResult) : EngineCalls (EngineM μ) where
  getGlobalState := PhmEngine.getGlobalState
  getEntity name := do
    let entity ← findEntity name
    return entity.map fun se => (utf8 se.config.name, se.currentState)
  getEntityNames := PhmEngine.getEntityNames
  reloadConfiguration := PhmEngine.reloadConfiguration parsed
  getStats := PhmEngine.getStats

def dispatch (parsed : Except String ParseResult) (request : Bytes) : EngineM μ Bytes :=
  dispatchBy search (engineCalls parsed) request

-- one read into 4095 bytes, then a C string; none where the client closed before it sent a byte
def handleClient (parsed : Except String ParseResult) (chunks : List Chunk) :
    EngineM μ (Option Bytes) := do
  match chunks with
  | [] => return none
  | chunk :: _ =>
    let request := cString (chunk.val.take 4095)
    return some (← dispatch parsed request)

end

end IpcServer

end PlatformHealth
