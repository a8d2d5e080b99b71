import PlatformHealth.Engine.Steps
import PlatformHealth.Ipc.Framing
import PlatformHealth.Library.Traces

namespace PlatformHealth

open LockDiscipline ByteString

-- what the system calls of IpcServer::start come to; bound is whether bind finds nothing wrong
-- with the address but that it may be in use
structure StartAnswer where
  socket : Option Nat
  unlinked : Bool := true
  bound : Bool := true
  listening : Bool := true

-- what accept hands over: read gets the first of chunks and write at most room bytes; neither returns
-- where it is none
structure Connection where
  fd : Nat
  chunks : Option (List Chunk)
  room : Option Nat

inductive IpcOp (F μ : Type) where
  | start (answer : StartAnswer)
  | stop (unlinked : Bool)
  | acceptOne (client : Option Connection) (parsed : Except String ParseResult)
  | files (present : F → Bool)
  | engine (engine : PhmEngine μ)

-- opened and closed are the descriptors, client is the one whose request has no end, sent is what
-- write took for each connection
structure IpcServer (F μ : Type) where
  endpoint : Bytes
  engine : PhmEngine μ
  serverFd : Option Nat := none
  running : Bool := false
  present : F → Bool
  opened : List Nat := []
  closed : List Nat := []
  client : Option Nat := none
  sent : List (Nat × Bytes) := []

namespace IpcServer

-- strncpy into the 108 bytes of sun_path, the last of which stays 0
def sunPath (endpoint : Bytes) : Bytes := (cString endpoint).take 107

section
variable {F μ : Type} [DecidableEq F] (fileOf : Bytes → F)

-- a sun_path that starts with 0 is no file name
def address (endpoint : Bytes) : Option F :=
  if sunPath endpoint = [] then none else some (fileOf (sunPath endpoint))

def unlink (s : IpcServer F μ) (unlinked : Bool) : IpcServer F μ :=
  { s with present := fun f => s.present f && !(unlinked && decide (f = fileOf (cString s.endpoint))) }

def closeServer (s : IpcServer F μ) (fd : Nat) : IpcServer F μ :=
  { s with serverFd := none, closed := s.closed ++ [fd] }

def bind (s : IpcServer F μ) (bound : Bool) : Option (IpcServer F μ) :=
  match address fileOf s.endpoint with
  | none => if bound then some s else none
  | some file =>
    if bound && !s.present file then some { s with present := fun f => s.present f || decide (f = file) }
    else none

def start (s : IpcServer F μ) (answer : StartAnswer) : Bool × IpcServer F μ :=
  if s.running then (false, s)
  else
    match answer.socket with
    | none => (false, { s with serverFd := none })
    | some fd =>
      let s := { s with serverFd := some fd, opened := s.opened ++ [fd] }
      let s := s.unlink fileOf answer.unlinked
      match s.bind fileOf answer.bound with
      | none => (false, s.closeServer fd)
      | some s => if answer.listening then (true, { s with running := true }) else (false, s.closeServer fd)

def stop (s : IpcServer F μ) (unlinked : Bool) : IpcServer F μ :=
  let s := { s with running := false }
  match s.serverFd with
  | none => s
  | some fd => (s.closeServer fd).unlink fileOf unlinked

def serve (s : IpcServer F μ) (c : Connection) (parsed : Except String ParseResult) : IpcServer F μ :=
  let s := { s with opened := s.opened ++ [c.fd] }
  match c.chunks with
  | none => { s with client := some c.fd }
  | some chunks =>
    match handleClient parsed chunks s.engine with
    | .error _ => { s with client := some c.fd }
    | .ok (none, engine) => { s with engine, closed := s.closed ++ [c.fd] }
    | .ok (some response, engine) =>
      match c.room with
      | none => { s with engine, client := some c.fd }
      | some room =>
        { s with engine, closed := s.closed ++ [c.fd], sent := s.sent ++ [(c.fd, response.take room)] }

def acceptOne (s : IpcServer F μ) (client : Option Connection) (parsed : Except String ParseResult) :
    IpcServer F μ :=
  match s.serverFd, client with
  | some _, some c => s.serve c parsed
  | _, _ => s

def step (s : IpcServer F μ) : IpcOp F μ → IpcServer F μ
  | .start answer => if s.client.isSome then s else (s.start fileOf answer).2
  | .stop unlinked => if s.client.isSome then s else s.stop fileOf unlinked
  | .acceptOne client parsed => if s.client.isSome then s else s.acceptOne client parsed
  | .files present => { s with present }
  | .engine engine => { s with engine }

end

section
variable {μ ε : Type} [IMonitor μ ε] {e : PhmEngine μ}

theorem findEntity_same (hfree : e.mutex = false) (name : Bytes) :
    Ends (findEntity name) e (fun _ f => f = e) (fun _ => False) := by
  unfold findEntity
  cases hdecode : decode name with
  | none =>
    rw [ends_bind]
    exact (PhmEngine.ends_query hfree fun _ => none).mono (fun _ _ h => h) (fun _ h => h)
  | some text =>
    rw [ends_bind]
    exact (PhmEngine.ends_query hfree fun e => e.entities[text]?).mono (fun _ _ h => h) (fun _ h => h)

theorem reachable_reply (he : PhmEngine.Reachable e) {c : IpcCall} (hstats : c ≠ .getStats)
    (parsed : Except String ParseResult) :
    Ends (reply parsed c) e (fun _ f => PhmEngine.Reachable f) (fun _ => False) := by
  have hfree : e.mutex = false := he.ready.free
  have hquery {α : Type} (g : PhmEngine μ → α) :
      Ends (withLock do return g (← get) : EngineM μ α) e (fun _ f => PhmEngine.Reachable f) (fun _ => False) :=
    (PhmEngine.ends_query hfree g).mono (fun _ f hf => by rw [hf]; exact he) (fun _ h => h)
  cases c with
  | getGlobalState =>
    rw [reply, EngineCalls.reply, engineCalls, ends_bind, PhmEngine.ends_getGlobalState hfree]
    exact he
  | getEntity name =>
    rw [reply_getEntity, ends_bind]
    refine (findEntity_same hfree name).mono ?_ (fun _ h => h)
    rintro found f rfl
    cases found <;> exact he
  | listEntities =>
    rw [reply, EngineCalls.reply, ends_bind]
    exact hquery fun e => e.entities.keys
  | reloadConfig =>
    rw [reply, EngineCalls.reply, ends_bind]
    obtain ⟨ok, f, hok, -⟩ := ends_ok_iff.mp (PhmEngine.keeps_reloadConfiguration parsed e he.ready)
    refine ends_ok_iff.mpr ⟨ok, f, hok, he.step (.call (.reloadConfiguration parsed)) ?_⟩
    change (fun p => ((), p.2)) <$> PhmEngine.reloadConfiguration parsed e = _
    rw [hok]
    rfl
  | getStats => exact absurd rfl hstats
  | _ => exact he

def asksStats (chunk : Chunk) : Bool := decide ((extracted (received chunk)).call = .getStats)

theorem handleClient_of_asksStats (he : PhmEngine.Reachable e) {chunk : Chunk} (hasks : asksStats chunk = true)
    (rest : List Chunk) (parsed : Except String ParseResult) :
    handleClient parsed (chunk :: rest) e = .error .relock := by
  rw [handleClient_cons]
  change (fun p => (some p.1, p.2)) <$> answer parsed (extracted (received chunk)) e = _
  rw [answer_getStats he (of_decide_eq_true hasks)]
  rfl

theorem handleClient_of_not_asksStats (he : PhmEngine.Reachable e) {chunk : Chunk}
    (hasks : asksStats chunk = false) (rest : List Chunk) (parsed : Except String ParseResult) :
    ∃ response f, handleClient parsed (chunk :: rest) e = .ok (some response, f) ∧
      dispatch parsed (received chunk) e = .ok (response, f) ∧ PhmEngine.Reachable f := by
  obtain ⟨r, f, hreply, hf⟩ := ends_ok_iff.mp (reachable_reply he (of_decide_eq_false hasks) parsed)
  have hdispatch : dispatch parsed (received chunk) e = .ok (r.render (extracted (received chunk)).id, f) := by
    rw [dispatch_eq, answer_of_ok hreply]
  refine ⟨r.render (extracted (received chunk)).id, f, ?_, hdispatch, hf⟩
  change (fun p => (some p.1, p.2)) <$> dispatch parsed (received chunk) e = _
  rw [hdispatch]
  rfl

end

structure Visit (μ : Type) extends Connection where
  parsed : Except String ParseResult
  engine : PhmEngine μ

namespace Visit

variable {μ : Type}

def answerable (v : Visit μ) : Bool :=
  match v.chunks with
  | some (chunk :: _) => !asksStats chunk && v.room.isSome
  | _ => false

def hangs (v : Visit μ) : Bool :=
  match v.chunks with
  | none => true
  | some [] => false
  | some (chunk :: _) => asksStats chunk || v.room.isNone

def Answers (v : Visit μ) (sent : Nat × Bytes) : Prop :=
  sent.1 = v.fd ∧ ∃ chunk rest room response f, v.chunks = some (chunk :: rest) ∧ v.room = some room ∧
    dispatch v.parsed (received chunk) v.engine = .ok (response, f) ∧ sent.2 = response.take room

end Visit

section
variable {F μ : Type}

def visit (s : IpcServer F μ) : IpcOp F μ → Option (Visit μ)
  | .acceptOne (some c) parsed =>
    if s.client.isNone && s.serverFd.isSome then some { c with parsed, engine := s.engine } else none
  | _ => none

def visits [DecidableEq F] (fileOf : Bytes → F) (s : IpcServer F μ) (ops : List (IpcOp F μ)) : List (Visit μ) :=
  Runs.trace (step fileOf) visit s ops

end

-- between two calls the open descriptors are the server's and that of a request without end, and
-- the other requests have had their answers
structure Settled {F μ ε : Type} [IMonitor μ ε] (seen : List (Visit μ)) (s : IpcServer F μ) : Prop where
  reachable : PhmEngine.Reachable s.engine
  descriptors : s.opened.Perm (s.closed ++ s.serverFd.toList ++ s.client.toList)
  running : s.running = s.serverFd.isSome
  answered : List.Forall₂ Visit.Answers (seen.filter Visit.answerable) s.sent
  blocked : s.client.toList = (seen.filter Visit.hangs).map (·.fd)
  last : ∀ v ∈ seen.dropLast, v.hangs = false
  dropped : ((seen.filter fun v => !v.hangs).map (·.fd)).Sublist s.closed

section
variable {F μ ε : Type} [IMonitor μ ε] [DecidableEq F] {fileOf : Bytes → F} {s : IpcServer F μ}
  {seen : List (Visit μ)}

theorem bind_eq {bound : Bool} {t : IpcServer F μ} (h : s.bind fileOf bound = some t) :
    ∃ present, t = { s with present } := by
  unfold bind at h
  split at h
  · split at h <;> cases h
    exact ⟨s.present, rfl⟩
  · split at h <;> cases h
    exact ⟨_, rfl⟩

variable (fileOf) in
theorem start_eq (hstopped : s.running = false) (answer : StartAnswer) :
    ∃ present,
      (∃ fd, s.start fileOf answer =
        (true, { s with serverFd := some fd, running := true, present, opened := s.opened ++ [fd] })) ∨
      ∃ fds, s.start fileOf answer =
        (false, { s with serverFd := none, present, opened := s.opened ++ fds, closed := s.closed ++ fds }) := by
  unfold IpcServer.start
  rw [if_neg (by simp [hstopped])]
  cases answer.socket with
  | none => exact ⟨s.present, .inr ⟨[], by simp⟩⟩
  | some fd =>
    dsimp only
    split
    · exact ⟨_, .inr ⟨[fd], rfl⟩⟩
    · next t hbind =>
      obtain ⟨present, rfl⟩ := bind_eq hbind
      split
      · exact ⟨present, .inl ⟨fd, rfl⟩⟩
      · exact ⟨present, .inr ⟨[fd], rfl⟩⟩

theorem Settled.start (h : Settled seen s) (hclient : s.client = none) (answer : StartAnswer) :
    Settled seen (s.start fileOf answer).2 := by
  cases hrunning : s.running with
  | true =>
    have hsame : s.start fileOf answer = (false, s) := if_pos hrunning
    rw [hsame]
    exact h
  | false =>
    have hserver : s.serverFd = none := by
      have hnone := h.running.symm.trans hrunning
      simpa using hnone
    have hdescriptors : s.opened.Perm s.closed := by
      have hall := h.descriptors
      rw [hserver, hclient] at hall
      simpa using hall
    obtain ⟨present, ⟨fd, hstart⟩ | ⟨fds, hstart⟩⟩ := start_eq fileOf hrunning answer
    · rw [hstart]
      refine ⟨h.reachable, ?_, rfl, h.answered, h.blocked, h.last, h.dropped⟩
      simpa [hclient] using hdescriptors.append_right [fd]
    · rw [hstart]
      refine ⟨h.reachable, ?_, hrunning, h.answered, h.blocked, h.last,
        h.dropped.trans (List.sublist_append_left _ _)⟩
      simpa [hclient] using hdescriptors.append_right fds

theorem Settled.stop (h : Settled seen s) (hclient : s.client = none) (unlinked : Bool) :
    Settled seen (s.stop fileOf unlinked) := by
  have hall := h.descriptors
  unfold IpcServer.stop
  cases hserver : s.serverFd with
  | none =>
    refine ⟨h.reachable, ?_, ?_, h.answered, h.blocked, h.last, h.dropped⟩
    · rw [hserver] at hall
      simpa [hserver] using hall
    · simp
  | some fd =>
    rw [hserver, hclient] at hall
    have hclosed : s.opened.Perm (s.closed ++ [fd] ++ (none : Option Nat).toList ++ s.client.toList) := by
      simpa [hclient] using hall
    exact ⟨h.reachable, hclosed, rfl, h.answered, h.blocked, h.last,
      h.dropped.trans (List.sublist_append_left _ _)⟩

omit [DecidableEq F] in
theorem serve_cases (he : PhmEngine.Reachable s.engine) (c : Connection) (parsed : Except String ParseResult) :
    let v : Visit μ := { c with parsed, engine := s.engine }
    ∃ engine, PhmEngine.Reachable engine ∧
      ((v.hangs = true ∧ v.answerable = false ∧
        s.serve c parsed = { s with engine, opened := s.opened ++ [c.fd], client := some c.fd }) ∨
      v.hangs = false ∧ ∃ responses, (v.answerable = false ∧ responses = [] ∨
          v.answerable = true ∧ ∃ sent, v.Answers sent ∧ responses = [sent]) ∧
        s.serve c parsed = { s with
          engine
          opened := s.opened ++ [c.fd]
          closed := s.closed ++ [c.fd]
          sent := s.sent ++ responses }) := by
  intro v
  obtain ⟨fd, chunks, room⟩ := c
  cases chunks with
  | none => exact ⟨s.engine, he, .inl ⟨rfl, rfl, rfl⟩⟩
  | some chunks =>
    cases chunks with
    | nil => exact ⟨s.engine, he, .inr ⟨rfl, [], .inl ⟨rfl, rfl⟩, by rw [List.append_nil]; rfl⟩⟩
    | cons chunk rest =>
      cases hasks : asksStats chunk with
      | true =>
        have hcall := handleClient_of_asksStats he hasks rest parsed
        refine ⟨s.engine, he, .inl ⟨by simp [v, Visit.hangs, hasks], by simp [v, Visit.answerable, hasks], ?_⟩⟩
        simp only [serve, hcall]
      | false =>
        obtain ⟨response, f, hcall, hdispatch, hf⟩ := handleClient_of_not_asksStats he hasks rest parsed
        refine ⟨f, hf, ?_⟩
        cases room with
        | none =>
          refine .inl ⟨by simp [v, Visit.hangs], by simp [v, Visit.answerable], ?_⟩
          simp only [serve, hcall]
        | some room =>
          refine .inr ⟨by simp [v, Visit.hangs, hasks], [(fd, response.take room)], .inr ⟨?_, _, ?_, rfl⟩, ?_⟩
          · simp [v, Visit.answerable, hasks]
          · exact ⟨rfl, chunk, rest, room, response, f, rfl, rfl, hdispatch, rfl⟩
          · simp only [serve, hcall]

omit [DecidableEq F] in
theorem Settled.serve (h : Settled seen s) (hclient : s.client = none) (c : Connection)
    (parsed : Except String ParseResult) :
    Settled (seen ++ [{ c with parsed, engine := s.engine }]) (s.serve c parsed) := by
  have hall := h.descriptors
  have hblocked := h.blocked
  rw [hclient, Option.toList_none] at hall hblocked
  rw [List.append_nil] at hall
  have hheld : (s.opened ++ [c.fd]).Perm (s.closed ++ s.serverFd.toList ++ [c.fd]) := hall.append_right [c.fd]
  have hnone : ∀ v ∈ seen, v.hangs = false := by
    have hfilter := List.map_eq_nil_iff.mp hblocked.symm
    simpa [List.filter_eq_nil_iff] using hfilter
  have hlast : ∀ v ∈ (seen ++ [({ c with parsed, engine := s.engine } : Visit μ)]).dropLast, v.hangs = false := by
    rwa [List.dropLast_concat]
  obtain ⟨engine, hengine, ⟨hhangs, hquiet, hserve⟩ | ⟨hhangs, responses, hresponses, hserve⟩⟩ :=
    serve_cases h.reachable c parsed
  · rw [hserve]
    refine ⟨hengine, hheld, h.running, ?_, ?_, hlast, ?_⟩
    · simpa [hquiet] using h.answered
    · simp [hhangs, ← hblocked]
    · simpa [hhangs] using h.dropped
  · have hmore : (s.opened ++ [c.fd]).Perm (s.closed ++ [c.fd] ++ s.serverFd.toList) := by
      refine hheld.trans ?_
      rw [List.append_assoc, List.append_assoc]
      exact List.perm_append_comm.append_left s.closed
    rw [hserve]
    refine ⟨hengine, ?_, h.running, ?_, ?_, hlast, ?_⟩
    · simpa [hclient] using hmore
    · rcases hresponses with ⟨hquiet, rfl⟩ | ⟨hanswer, sent, hsent, rfl⟩
      · simpa [hquiet] using h.answered
      · rw [List.filter_append, List.filter_singleton, hanswer]
        exact List.rel_append h.answered (.cons hsent .nil)
    · simpa [hclient, hhangs] using hblocked
    · simpa [hhangs] using h.dropped

omit [DecidableEq F] in
theorem Settled.unseen {t : IpcServer F μ} {op : IpcOp F μ} (h : Settled seen t) (hop : visit s op = none) :
    Settled (seen ++ (visit s op).toList) t := by
  rwa [hop, Option.toList_none, List.append_nil]

theorem Settled.step (h : Settled seen s) {op : IpcOp F μ}
    (hop : ∀ engine, op = .engine engine → PhmEngine.Reachable engine) :
    Settled (seen ++ (visit s op).toList) (s.step fileOf op) := by
  have hfree (hblocked : ¬ s.client.isSome = true) : s.client = none := by simpa using hblocked
  cases op with
  | start answer =>
    refine Settled.unseen ?_ rfl
    rw [IpcServer.step]
    split
    · exact h
    · next hblocked => exact h.start (hfree hblocked) answer
  | stop unlinked =>
    refine Settled.unseen ?_ rfl
    rw [IpcServer.step]
    split
    · exact h
    · next hblocked => exact h.stop (hfree hblocked) unlinked
  | acceptOne client parsed =>
    cases client with
    | none =>
      refine Settled.unseen ?_ rfl
      rw [IpcServer.step]
      unfold acceptOne
      split
      · exact h
      · split
        · contradiction
        · exact h
    | some c =>
      rw [visit, IpcServer.step]
      unfold acceptOne
      cases hclient : s.client with
      | some fd => simpa using h
      | none =>
        cases hserver : s.serverFd with
        | none => simpa using h
        | some fd => exact h.serve hclient c parsed
  | files present =>
    have hsame : Settled seen { s with present } :=
      ⟨h.reachable, h.descriptors, h.running, h.answered, h.blocked, h.last, h.dropped⟩
    exact hsame.unseen rfl
  | engine engine =>
    have hsame : Settled seen { s with engine } :=
      ⟨hop engine rfl, h.descriptors, h.running, h.answered, h.blocked, h.last, h.dropped⟩
    exact hsame.unseen rfl

variable (fileOf) in
theorem settled_run (endpoint : Bytes) {engine : PhmEngine μ} (present : F → Bool) {ops : List (IpcOp F μ)}
    (he : PhmEngine.Reachable engine) (hops : ∀ e, .engine e ∈ ops → PhmEngine.Reachable e) :
    Settled (visits fileOf { endpoint, engine, present } ops)
      (Runs.run (IpcServer.step fileOf) { endpoint, engine, present } ops) := by
  refine Runs.trace_invariant_of_mem (fun seen s op hop h => h.step fun e heq => hops e (heq ▸ hop)) ?_
  exact ⟨he, by simp, rfl, .nil, rfl, by simp, by simp⟩

variable (fileOf) in
theorem connections_answered {endpoint : Bytes} {engine : PhmEngine μ} {present : F → Bool}
    {ops : List (IpcOp F μ)} (he : PhmEngine.Reachable engine)
    (hops : ∀ e, .engine e ∈ ops → PhmEngine.Reachable e) :
    let seen := visits fileOf { endpoint, engine, present } ops
    let s := Runs.run (IpcServer.step fileOf) { endpoint, engine, present } ops
    (s.opened.Perm (s.closed ++ s.serverFd.toList ++ s.client.toList) ∧ s.running = s.serverFd.isSome) ∧
      List.Forall₂ Visit.Answers (seen.filter Visit.answerable) s.sent ∧
      ((seen.filter fun v => !v.hangs).map (·.fd)).Sublist s.closed ∧
      s.client.toList = (seen.filter Visit.hangs).map (·.fd) ∧ ∀ v ∈ seen.dropLast, v.hangs = false := by
  have hsettled := settled_run fileOf endpoint present he hops
  exact ⟨⟨hsettled.descriptors, hsettled.running⟩, hsettled.answered, hsettled.dropped, hsettled.blocked,
    hsettled.last⟩

end

def granted : StartAnswer := { socket := some 3 }

def asking (method : String) : Chunk :=
  ⟨utf8 "\x7b\"id\":1,\"method\":\"" ++ utf8 method ++ utf8 "\"\x7d", by
    have hpos : (utf8 "\x7b\"id\":1,\"method\":\"").length ≠ 0 := by decide
    intro hnil
    simp only [List.append_eq_nil_iff] at hnil
    exact hpos (by rw [hnil.1.1]; rfl)⟩

def lateOps : List (IpcOp Bytes ReportingMonitor) :=
  [.start granted, .acceptOne (some ⟨4, some [], some 4096⟩) (.error ""),
    .acceptOne (some ⟨4, some [asking "list_entities"], some 4096⟩) (.error ""),
    .acceptOne (some ⟨4, some [asking "get_global_state"], some 20⟩) (.error ""),
    .acceptOne (some ⟨4, some [asking "get_stats"], some 4096⟩) (.error ""),
    .acceptOne (some ⟨5, some [asking "list_entities"], some 4096⟩) (.error ""), .stop true]

def fresh : IpcServer Bytes ReportingMonitor where
  endpoint := utf8 "/run/phmd.sock"
  engine := .new {}
  present _ := false

theorem late_connection_unanswered :
    let seen := visits id fresh lateOps
    let s := Runs.run (step id) fresh lateOps
    (s.opened = [3, 4, 4, 4, 4] ∧ s.closed = [4, 4, 4] ∧ s.sent.map (·.2.length) = [37, 20]) ∧
      (s.opened.Perm (s.closed ++ s.serverFd.toList ++ s.client.toList) ∧ s.running = s.serverFd.isSome) ∧
      List.Forall₂ Visit.Answers (seen.filter Visit.answerable) s.sent ∧
      ((seen.filter fun v => !v.hangs).map (·.fd)).Sublist s.closed ∧
      s.client.toList = (seen.filter Visit.hangs).map (·.fd) ∧ ∀ v ∈ seen.dropLast, v.hangs = false := by
  intro seen s
  have hopened : s.opened = [3, 4, 4, 4, 4] := by decide +kernel
  have hclosed : s.closed = [4, 4, 4] := by decide +kernel
  have hsent : s.sent.map (·.2.length) = [37, 20] := by decide +kernel
  exact ⟨⟨hopened, hclosed, hsent⟩, connections_answered id (.new {}) (by simp [lateOps])⟩

section
variable {F μ : Type} [DecidableEq F] {fileOf : Bytes → F} {s : IpcServer F μ}

def Reusable (fileOf : Bytes → F) (endpoint : Bytes) : Prop :=
  sunPath endpoint = [] ∨ fileOf (sunPath endpoint) = fileOf (cString endpoint)

def Granted (answer : StartAnswer) : Prop :=
  answer.socket.isSome = true ∧ answer.unlinked = true ∧ answer.bound = true ∧ answer.listening = true

def Starts (fileOf : Bytes → F) (s : IpcServer F μ) (op : IpcOp F μ) : Prop :=
  ∀ answer, op = .start answer → s.running = false → (s.start fileOf answer).1 = true

omit [DecidableEq F] in
theorem reusable_of_fits {endpoint : Bytes} (h : (cString endpoint).length ≤ 107) : Reusable fileOf endpoint := by
  right
  rw [sunPath, List.take_of_length_le h]

theorem start_of_reusable (h : Reusable fileOf s.endpoint) (hstopped : s.running = false) {answer : StartAnswer}
    (hgranted : Granted answer) : (s.start fileOf answer).1 = true := by
  obtain ⟨hsocket, hunlinked, hbound, hlistening⟩ := hgranted
  obtain ⟨fd, hfd⟩ := Option.isSome_iff_exists.mp hsocket
  unfold start
  rw [if_neg (by simp [hstopped]), hfd]
  by_cases hpath : sunPath s.endpoint = []
  · simp [unlink, bind, address, hpath, hbound, hlistening]
  · have hname := h.resolve_left hpath
    simp [unlink, bind, address, hpath, hbound, hlistening, hunlinked, hname]

theorem endpoint_step (s : IpcServer F μ) (op : IpcOp F μ) : (s.step fileOf op).endpoint = s.endpoint := by
  cases op with
  | start answer =>
    rw [step]
    split
    · rfl
    · cases hrunning : s.running with
      | true =>
        have hsame : s.start fileOf answer = (false, s) := if_pos hrunning
        rw [hsame]
      | false =>
        obtain ⟨present, ⟨fd, hstart⟩ | ⟨fds, hstart⟩⟩ := start_eq fileOf hrunning answer <;> rw [hstart]
  | stop unlinked =>
    rw [step]
    split
    · rfl
    · unfold stop
      cases s.serverFd <;> rfl
  | acceptOne client parsed =>
    rw [step]
    split
    · rfl
    · unfold acceptOne
      split
      · unfold serve
        split
        · rfl
        · dsimp only
          split
          · rfl
          · rfl
          · split <;> rfl
      · rfl
  | files present => rfl
  | engine engine => rfl

theorem starts_of_reusable (h : Reusable fileOf s.endpoint) {ops : List (IpcOp F μ)}
    (hops : ∀ answer, .start answer ∈ ops → Granted answer) : Runs.Each (step fileOf) (Starts fileOf) s ops := by
  induction ops generalizing s with
  | nil => trivial
  | cons op rest ih =>
    refine ⟨fun answer heq hstopped => start_of_reusable h hstopped (hops answer (heq ▸ List.mem_cons_self)), ?_⟩
    exact ih (by rwa [endpoint_step]) fun answer hmem => hops answer (List.mem_cons_of_mem op hmem)

theorem start_of_not_reusable (h : ¬ Reusable fileOf s.endpoint) (hstopped : s.running = false)
    (hpresent : s.present (fileOf (sunPath s.endpoint)) = true) (answer : StartAnswer) :
    (s.start fileOf answer).1 = false := by
  obtain ⟨hpath, hname⟩ := not_or.mp h
  unfold start
  rw [if_neg (by simp [hstopped])]
  cases answer.socket with
  | none => rfl
  | some fd => simp [unlink, bind, address, hpath, hpresent, hname]

variable (fileOf) in
theorem run_start_stop (endpoint : Bytes) (engine : PhmEngine μ) :
    let s : IpcServer F μ := Runs.run (step fileOf) { endpoint, engine, present := fun _ => false }
      [.start granted, .stop true]
    s.endpoint = endpoint ∧ s.running = false ∧
      ∀ f, s.present f = (decide (sunPath endpoint ≠ []) && decide (f = fileOf (sunPath endpoint)) &&
        !decide (f = fileOf (cString endpoint))) := by
  by_cases hpath : sunPath endpoint = []
  · simp [Runs.run, step, start, granted, unlink, bind, address, hpath, stop, closeServer]
  · simp [Runs.run, step, start, granted, unlink, bind, address, hpath, stop, closeServer]
    exact fun _ => rfl

theorem start_again_iff (endpoint : Bytes) (engine : PhmEngine μ) :
    List.TFAE [Reusable fileOf endpoint,
      ∀ (present : F → Bool) (ops : List (IpcOp F μ)), (∀ answer, .start answer ∈ ops → Granted answer) →
        Runs.Each (step fileOf) (Starts fileOf) { endpoint, engine, present } ops,
      Runs.Each (step fileOf) (Starts fileOf) ({ endpoint, engine, present := fun _ => false } : IpcServer F μ)
        [.start granted, .stop true, .start granted],
      ∀ f, (Runs.run (step fileOf) ({ endpoint, engine, present := fun _ => false } : IpcServer F μ)
        [.start granted, .stop true]).present f = false] := by
  have hgranted : Granted granted := ⟨rfl, rfl, rfl, rfl⟩
  tfae_have 1 → 2 := fun h present ops hops => starts_of_reusable h hops
  tfae_have 2 → 3 := fun h => h _ _ (by simp [hgranted])
  obtain ⟨hendpoint, hstopped, hpresent⟩ := run_start_stop fileOf endpoint engine
  tfae_have 3 → 1 := by
    rintro ⟨-, -, hstarts, -⟩
    by_contra hnot
    have hkept := hpresent (fileOf (sunPath endpoint))
    obtain ⟨hpath, hname⟩ := not_or.mp hnot
    rw [decide_eq_true hpath, decide_eq_true rfl, decide_eq_false hname] at hkept
    have hfails := start_of_not_reusable (by rwa [hendpoint]) hstopped (by rw [hendpoint]; exact hkept) granted
    exact Bool.false_ne_true (hfails.symm.trans (hstarts granted rfl hstopped))
  tfae_have 1 → 4 := by
    rintro h f
    rw [hpresent f]
    rcases h with hpath | hname
    · simp [hpath]
    · simp [hname]
  tfae_have 4 → 1 := by
    intro h
    by_contra hnot
    obtain ⟨hpath, hname⟩ := not_or.mp hnot
    have hkept := hpresent (fileOf (sunPath endpoint))
    rw [h, decide_eq_true hpath, decide_eq_true rfl, decide_eq_false hname] at hkept
    cases hkept
  tfae_finish

end

end IpcServer

end PlatformHealth
