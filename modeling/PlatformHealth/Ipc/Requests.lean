import PlatformHealth.Engine.Operations
import PlatformHealth.Ipc.IpcServer

namespace PlatformHealth

open LockDiscipline ByteString

inductive IpcCall where
  | missingMethod
  | invalidRequest
  | getGlobalState
  | getEntity (name : Bytes)
  | missingName
  | invalidName
  | listEntities
  | listEvents
  | reloadConfig
  | getStats
  | unknown (method : Bytes)
deriving DecidableEq

structure Extracted where
  id : Bytes
  call : IpcCall
deriving DecidableEq

structure Extracted.Cut (x : Extracted) : Prop where
  id : ∀ c ∈ utf8 ",\x7d", c ∉ x.id
  name : ∀ name, x.call = .getEntity name → 0x22 ∉ name
  method : ∀ method, x.call = .unknown method → 0x22 ∉ method

inductive Reply where
  | result (text : Bytes)
  | error (code : Int) (msg : Bytes)

def Reply.render (id : Bytes) : Reply → Bytes
  | .result text => IpcServer.makeResult id text
  | .error code msg => IpcServer.makeError id code msg

def Reply.tail : Reply → Bytes
  | .result text => utf8 ",\"result\":" ++ text ++ utf8 "\x7d\n"
  | .error code msg => utf8 ",\"error\":\x7b\"code\":" ++ utf8 (toString code) ++
      utf8 ",\"message\":\"" ++ msg ++ utf8 "\"\x7d\x7d\n"

theorem Reply.render_eq (id : Bytes) (r : Reply) :
    r.render id = utf8 "\x7b\"jsonrpc\":\"2.0\",\"id\":" ++ id ++ r.tail := by
  cases r <;> simp [render, tail, IpcServer.makeResult, IpcServer.makeError]

namespace IpcServer

def entityCall : Quoted → IpcCall
  | .missing => .missingName
  | .invalid => .invalidName
  | .text name => .getEntity name

def methodCall (method : Bytes) (entity : IpcCall) : IpcCall :=
  if method = utf8 "get_global_state" then .getGlobalState
  else if method = utf8 "get_entity" then entity
  else if method = utf8 "list_entities" then .listEntities
  else if method = utf8 "list_events" then .listEvents
  else if method = utf8 "reload_config" then .reloadConfig
  else if method = utf8 "get_stats" then .getStats
  else .unknown method

def callOf (method name : Quoted) : IpcCall :=
  match method with
  | .missing => .missingMethod
  | .invalid => .invalidRequest
  | .text method => methodCall method (entityCall name)

def idText (request : Bytes) : Bytes :=
  match ((behind (utf8 "\"id\"") request).bind (behind (utf8 ":"))).bind (before (utf8 ",\x7d")) with
  | none => utf8 "null"
  | some text => trim (utf8 " \t") text

def quotedText (key request : Bytes) : Quoted :=
  match behind key request with
  | none => .missing
  | some rest =>
    match behind (utf8 "\"") ((behind (utf8 ":") rest).getD request) with
    | none => .invalid
    | some text => .text (text.takeWhile (· ≠ 0x22))

def extracted (request : Bytes) : Extracted where
  id := idText request
  call := callOf (quotedText (utf8 "\"method\"") request) (quotedText (utf8 "\"name\"") request)

end IpcServer

namespace EngineCalls

open IpcServer

variable {m : Type → Type} [Monad m]

def reply (engine : EngineCalls m) : IpcCall → m Reply
  | .missingMethod => return .error (-32600) (utf8 "Invalid Request: missing method")
  | .invalidRequest => return .error (-32600) (utf8 "Invalid Request")
  | .getGlobalState => do
    let state ← engine.getGlobalState
    return .result (utf8 "\x7b\"global_state\":\"" ++ utf8 (stateToString state) ++ utf8 "\"\x7d")
  | .getEntity name => do
    match ← engine.getEntity name with
    | none => return .error (-32602) (utf8 "Entity not found: " ++ name)
    | some (name, state) => return .result (entityResult name state)
  | .missingName => return .error (-32602) (utf8 "Missing param: name")
  | .invalidName => return .error (-32602) (utf8 "Invalid param: name")
  | .listEntities => do
    let names ← engine.getEntityNames
    return .result (utf8 "[" ++ joinNames names ++ utf8 "]")
  | .listEvents => return .result (utf8 "[]")
  | .reloadConfig => do
    let ok ← engine.reloadConfiguration
    return .result
      (utf8 (if ok then "\x7b\"status\":\"ok\"\x7d" else "\x7b\"status\":\"error\"\x7d"))
  | .getStats => do
    let stats ← engine.getStats
    return .result (statsResult stats)
  | .unknown method => return .error (-32601) (utf8 "Method not found: " ++ method)

def answer (engine : EngineCalls m) (x : Extracted) : m Bytes := Reply.render x.id <$> engine.reply x.call

theorem dispatchBy_eq [LawfulMonad m] (engine : EngineCalls m) {search : Search m} {request id : Bytes}
    {method name : Quoted} (hid : search.extractId request = pure id)
    (hmethod : search.extractMethod request = pure method) (hname : search.extractName request = pure name) :
    dispatchBy search engine request = engine.answer { id, call := callOf method name } := by
  simp only [dispatchBy, hid, hmethod, pure_bind, answer]
  cases method with
  | missing => simp [callOf, reply, Reply.render]
  | invalid => simp [callOf, reply, Reply.render]
  | text method =>
    simp only [callOf, methodCall]
    split_ifs
    · simp [reply, handleGetGlobalState, Reply.render]
    · simp only [handleGetEntity, hname, pure_bind]
      cases name with
      | missing => simp [entityCall, reply, Reply.render]
      | invalid => simp [entityCall, reply, Reply.render]
      | text name =>
        simp only [entityCall, reply, map_bind]
        congr 1
        funext entity
        rcases entity with _ | ⟨name, state⟩ <;> simp [Reply.render]
    · simp [reply, handleListEntities, Reply.render]
    · simp [reply, handleListEvents, Reply.render]
    · simp [reply, handleReloadConfig, Reply.render]
    · simp [reply, handleGetStats, Reply.render]
    · simp [reply, Reply.render]

end EngineCalls

namespace IpcServer

section
variable {μ : Type}

def reply (parsed : Except String ParseResult) (c : IpcCall) : EngineM μ Reply := (engineCalls parsed).reply c

def answer (parsed : Except String ParseResult) (x : Extracted) : EngineM μ Bytes := (engineCalls parsed).answer x

theorem reply_getEntity (parsed : Except String ParseResult) (name : Bytes) :
    (reply parsed (.getEntity name) : EngineM μ Reply) = do
      match ← findEntity name with
      | none => return .error (-32602) (utf8 "Entity not found: " ++ name)
      | some se => return .result (entityResult (utf8 se.config.name) se.currentState) := by
  simp only [reply, EngineCalls.reply, engineCalls, bind_assoc, pure_bind]
  congr 1
  funext found
  cases found <;> rfl

end

theorem extractId_eq (request : Bytes) : extractId request = some (idText request) := by
  unfold extractId idText
  rw [← List.drop_zero (l := request), ← find_behind request (utf8 "\"id\"") 0, List.drop_zero]
  cases hid : find request (utf8 "\"id\"") 0 with
  | none => rfl
  | some idPos =>
    have hkey : (utf8 "\"id\"").length = 4 := rfl
    rw [Option.map_some, Option.bind_some, hkey, ← find_behind request (utf8 ":")]
    cases hcolon : find request (utf8 ":") (idPos + 4) with
    | none => simp [hcolon]
    | some colon =>
      have hone : (utf8 ":").length = 1 := rfl
      rw [Option.map_some, Option.bind_some, hone]
      cases hstop : findFirstOf request (utf8 ",\x7d") (colon + 1) with
      | none => simp [hcolon, hstop, before_eq_none hstop]
      | some stop =>
        have hsub := substr_findFirstOf hstop
        rw [Nat.sub_add_eq] at hsub
        obtain ⟨text, htext⟩ := before_of_findFirstOf hstop
        simp [hcolon, hstop, hsub, htext, erase_front, erase_back, trim]

theorem extractQuoted_eq (request key : Bytes) :
    extractQuoted request key = some (quotedText key request) := by
  have hquote : utf8 "\"" = [0x22] := rfl
  have hone : (utf8 ":").length = 1 := rfl
  have hkey := find_behind request key 0
  rw [List.drop_zero] at hkey
  unfold extractQuoted quotedText
  rw [← hkey]
  cases hpos : find request key 0 with
  | none => rfl
  | some pos =>
    have hrest : ((behind (utf8 ":") (request.drop (pos + key.length))).getD request) =
        request.drop (next (find request (utf8 ":") (pos + key.length))) := by
      rw [← find_behind request (utf8 ":"), hone]
      cases find request (utf8 ":") (pos + key.length) <;> rfl
    simp only [Option.map_some, hrest]
    rw [← find_behind request (utf8 "\"")]
    cases hstart : find request (utf8 "\"") (next (find request (utf8 ":") (pos + key.length))) with
    | none => rfl
    | some start =>
      have hle : start + 1 ≤ request.length := (find_lt hstart).2
      have htext := substr_find_byte 0x22 hle
      simp [hquote, htext]

theorem cut_extracted (request : Bytes) : (extracted request).Cut := by
  have htext {key t : Bytes} (h : quotedText key request = .text t) : 0x22 ∉ t := by
    unfold quotedText at h
    split at h
    · cases h
    · split at h
      · cases h
      · cases h
        intro hmem
        simpa using List.mem_takeWhile_imp hmem
  refine ⟨?_, ?_, ?_⟩
  · intro c hc
    change c ∉ idText request
    unfold idText
    split
    · have hnull : ∀ c ∈ utf8 ",\x7d", c ∉ utf8 "null" := by decide +kernel
      exact hnull c hc
    · next text hfound =>
      obtain ⟨rest, -, hbefore⟩ := Option.bind_eq_some_iff.mp hfound
      exact fun hmem => not_mem_of_before hbefore hc (mem_of_trim hmem)
  · intro name hname
    change callOf _ _ = _ at hname
    unfold callOf methodCall entityCall at hname
    split at hname
    · cases hname
    · cases hname
    · split_ifs at hname
      split at hname
      · cases hname
      · cases hname
      · next htext' =>
        cases hname
        exact htext htext'
  · intro method hmethod
    change callOf _ _ = _ at hmethod
    unfold callOf methodCall entityCall at hmethod
    split at hmethod
    · cases hmethod
    · cases hmethod
    · next htext' =>
      split_ifs at hmethod
      · split at hmethod <;> cases hmethod
      · cases hmethod
        exact htext htext'

theorem dispatch_eq {μ : Type} (parsed : Except String ParseResult) (request : Bytes) :
    (dispatch parsed request : EngineM μ Bytes) = answer parsed (extracted request) := by
  refine EngineCalls.dispatchBy_eq _ ?_ ?_ ?_
  · simp only [search, extractId_eq, orThrow]
  · simp only [search, extractMethod, extractQuoted_eq, orThrow]
  · simp only [search, extractName, extractQuoted_eq, orThrow]

end IpcServer

end PlatformHealth
