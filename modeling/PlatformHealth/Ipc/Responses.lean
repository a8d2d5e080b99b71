import PlatformHealth.Ipc.Answers
import PlatformHealth.Library.Json.Quoted

namespace PlatformHealth

open LockDiscipline ByteString
open Json (Reads Quotable)
open Json.Reader (atToken inString)

def IsResponse (text : Bytes) : Prop :=
  ∃ body members, text = body ++ utf8 "\n" ∧
    ({} : Json.Reader).read body = .ok (.object members, []) ∧
    (members.map Prod.fst = ["id", "jsonrpc", "result"] ∨
      members.map Prod.fst = ["error", "id", "jsonrpc"])

namespace Reply

def keyText : Reply → Bytes
  | .result _ => utf8 "\"result\":"
  | .error _ _ => utf8 "\"error\":"

def keyName : Reply → String
  | .result _ => "result"
  | .error _ _ => "error"

def errorFront (code : Int) : Bytes :=
  utf8 "\x7b\"code\":" ++ utf8 (toString code) ++ utf8 ",\"message\":\""

def value : Reply → Bytes
  | .result text => text
  | .error code msg => errorFront code ++ (msg ++ utf8 "\"\x7d")

def head : Bytes := utf8 "\x7b\"jsonrpc\":\"2.0\",\"id\":"

def body (r : Reply) (id : Bytes) : Bytes :=
  head ++ (id ++ (0x2C :: r.keyText ++ (r.value ++ [0x7D])))

theorem render_eq_body (r : Reply) (id : Bytes) : r.render id = r.body id ++ utf8 "\n" := by
  have hresult : utf8 ",\"result\":" = 0x2C :: utf8 "\"result\":" := rfl
  have herror : utf8 ",\"error\":\x7b\"code\":" =
      0x2C :: utf8 "\"error\":" ++ utf8 "\x7b\"code\":" := rfl
  have hclose : utf8 "\x7d\n" = 0x7D :: utf8 "\n" := rfl
  have hclose' : utf8 "\"\x7d\x7d\n" = utf8 "\"\x7d" ++ 0x7D :: utf8 "\n" := rfl
  rw [render_eq]
  cases r with
  | result text => simp [tail, body, head, keyText, value, hresult, hclose]
  | error code msg => simp [tail, body, head, keyText, value, errorFront, herror, hclose']

theorem keyText_spec (r : Reply) : Json.Reader.KeyText r.keyText r.keyName := by
  cases r with
  | result text => exact ⟨⟨0x72, _, rfl, rfl, rfl⟩, fun _ _ _ => rfl, fun _ _ => rfl⟩
  | error code msg => exact ⟨⟨0x65, _, rfl, rfl, rfl⟩, fun _ _ _ => rfl, fun _ _ => rfl⟩

def headMembers : List (String × Json) := [("jsonrpc", .string "2.0")]

theorem feed_head : ({} : Json.Reader).feed head =
    .ok (atToken [.object headMembers "id"] .value) := rfl

theorem feed_errorFront {code : Int} (h : code ∈ [-32600, -32601, -32602]) :
    ∃ members, ({} : Json.Reader).feed (errorFront code) =
      .ok (inString [.object members "message"] .value .plain []) := by
  simp only [List.mem_cons, List.not_mem_nil, or_false] at h
  rcases h with rfl | rfl | rfl <;> exact ⟨_, rfl⟩

section
variable {r : Reply} {id : Bytes} {v w : Json} {members : List (String × Json)}
  {stack : List Json.Frame} {R : Json.Reader}

theorem feed_close (h : Reads r.value w) :
    (atToken (.object members r.keyName :: stack) .value).feed (r.value ++ [0x7D]) =
      .ok { state := Json.deliver (.object (Json.setMember members r.keyName w)) stack } := by
  rw [Json.Reader.feed_value h (by simp) (by decide)]
  rfl

theorem read_body (hid : Reads id v) (h : Reads r.value w) :
    ({} : Json.Reader).read (r.body id) = .ok (.object (Json.setMember
      (Json.setMember headMembers "id" v) r.keyName w), []) := by
  have hcomma : (Json.Reader.resume [.object headMembers "id"] v).consume 0x2C =
      .ok (atToken [.object (Json.setMember headMembers "id" v) ""] .key) := rfl
  have hfeed : ({} : Json.Reader).feed (r.body id) = .ok { state := .done (.object (Json.setMember
      (Json.setMember headMembers "id" v) r.keyName w)) } := by
    rw [body, Json.Reader.feed_append_of_ok feed_head, List.cons_append,
      Json.Reader.feed_value hid (by simp) (by decide)]
    refine Json.Reader.feed_cons_iff.mpr ⟨_, hcomma, ?_⟩
    rw [Json.Reader.feed_append_of_ok (r.keyText_spec.key _ _ _), feed_close h]
    rfl
  rw [← List.append_nil (r.body id), Json.Reader.read_append hfeed]
  rfl

-- the reply is JSON where P holds, and a reader that comes to its end, whatever was open
-- around it, tells that P holds or that luck has helped
structure Hinges (r : Reply) (P Luck : Prop) : Prop where
  reads : P → ∃ v, Reads r.value v
  tells : ∀ (base : List Json.Frame) (R : Json.Reader) (v : Json),
    (atToken base .value).feed (r.value ++ [0x7D]) = .ok R → R.finish = .ok v → P ∨ Luck

section
variable {P Q Luck : Prop}

theorem hinges_true (h : Reads r.value w) : r.Hinges True Luck :=
  ⟨fun _ => ⟨w, h⟩, fun _ _ _ _ _ => .inl trivial⟩

theorem Hinges.congr (h : r.Hinges P Luck) (hPQ : P ↔ Q) : r.Hinges Q Luck :=
  ⟨fun hQ => h.reads (hPQ.mpr hQ), fun base R v hfeed hR => (h.tells base R v hfeed hR).imp_left hPQ.mp⟩

theorem hinges_error {code : Int} {msg : Bytes} (hcode : code ∈ [-32600, -32601, -32602])
    (hmsg : 0x22 ∉ msg) : (error code msg).Hinges (Quotable msg) Luck := by
  obtain ⟨members, hfront⟩ := feed_errorFront hcode
  refine ⟨fun h => Json.Reader.reads_quoted hfront h fun _ => ⟨_, rfl⟩, ?_⟩
  intro base R v hfeed hR
  have hclose : utf8 "\"\x7d" ++ [0x7D] = 0x22 :: [0x7D, 0x7D] := rfl
  rw [value, List.append_assoc, List.append_assoc, hclose] at hfeed
  exact .inl (Json.Reader.quotable_of_feed hfront hmsg (.inl (by decide)) hfeed hR)

def entityBack (state : SeState) : Bytes :=
  utf8 "\",\"state\":\"" ++ utf8 (IpcServer.stateToString state) ++ utf8 "\"\x7d"

theorem entityResult_eq (name : Bytes) (state : SeState) :
    IpcServer.entityResult name state = utf8 "\x7b\"name\":\"" ++ (name ++ entityBack state) := by
  have hback : utf8 "\",\"state\":\"" = utf8 "\"," ++ utf8 "\"state\":\"" := rfl
  have hclose : utf8 "\"\x7d" = utf8 "\"" ++ utf8 "\x7d" := rfl
  simp [IpcServer.entityResult, entityBack, hback, hclose]

theorem hinges_entity {name : Bytes} (hname : 0x22 ∉ name) (state : SeState) :
    (result (IpcServer.entityResult name state)).Hinges (Quotable name) Luck := by
  have hfront : ({} : Json.Reader).feed (utf8 "\x7b\"name\":\"") =
      .ok (inString [.object [] "name"] .value .plain []) := rfl
  rw [entityResult_eq]
  refine ⟨fun h => Json.Reader.reads_quoted hfront h fun _ => ?_, ?_⟩
  · cases state <;> exact ⟨_, rfl⟩
  · intro base R v hfeed hR
    obtain ⟨rest, hback⟩ : ∃ rest,
        entityBack state ++ [0x7D] = 0x22 :: 0x2C :: 0x22 :: 0x73 :: rest := ⟨_, rfl⟩
    rw [value, List.append_assoc, List.append_assoc, hback] at hfeed
    exact .inl
      (Json.Reader.quotable_of_feed hfront hname (.inr ⟨0x73, rest, rfl, rfl, rfl⟩) hfeed hR)

end

theorem isResponse_of_reads (hid : Reads id v) (h : Reads r.value w) : IsResponse (r.render id) := by
  refine ⟨_, _, r.render_eq_body id, read_body hid h, ?_⟩
  have hlt : "id" < "jsonrpc" := by decide
  have herror : "error" < "id" := by decide
  have hresult : ¬ "result" < "id" ∧ ¬ "result" < "jsonrpc" := by decide
  cases r with
  | result text => simp [Json.setMember, headMembers, keyName, hlt, hresult]
  | error code msg => simp [Json.setMember, headMembers, keyName, hlt, herror]

theorem cases_of_isResponse {P Luck : Prop} (hr : r.Hinges P Luck)
    (hcut : ∀ b ∈ id, b ≠ 0x2C ∧ b ≠ 0x7D) (h : IsResponse (r.render id)) :
    ((∃ v, Reads id v) ∧ P) ∨ Luck := by
  obtain ⟨body, members, heq, hread, -⟩ := h
  rw [render_eq_body] at heq
  obtain rfl : r.body id = body := List.append_cancel_right heq
  obtain ⟨front, R, hbody, hfeed, n, hn, hdone⟩ := Json.Reader.read_cases hread
  rw [List.append_nil] at hbody
  subst hbody
  have hR : R.finish = .ok (.object members) := Json.Reader.finish_iff.mpr ⟨n, hn, hdone⟩
  rw [Reply.body, Json.Reader.feed_append_of_ok feed_head] at hfeed
  rcases Json.Reader.feed_spliced r.keyText_spec hcut hfeed with
    ⟨v, hid, hrest⟩ | ⟨members', stack, hstack, hrest⟩
  · exact (hr.tells _ _ _ hrest hR).imp_left fun hP => ⟨⟨v, hid⟩, hP⟩
  · refine (hr.tells _ _ _ hrest hR).imp_left fun hP => ?_
    obtain ⟨w, hw⟩ := hr.reads hP
    rw [feed_close hw] at hrest
    obtain ⟨frame, stack, rfl⟩ := List.exists_cons_of_ne_nil hstack
    cases hrest
    cases frame <;> cases hR

end

end Reply

def IpcCall.Quoted (names : List String) : IpcCall → Prop
  | .getEntity name => Quotable name
  | .listEntities => ∀ name ∈ names, Quotable (utf8 name)
  | .unknown method => Quotable method
  | _ => True

-- the id is one JSON value; get_stats never returns
structure Extracted.Printable (names : List String) (x : Extracted) : Prop where
  id : ∃ v, Reads x.id v
  text : x.call.Quoted names
  returns : x.call ≠ .getStats

-- a name with a quote in it may happen to close what it opens
def IpcCall.ListsQuote (names : List String) (c : IpcCall) : Prop :=
  c = .listEntities ∧ ∃ name ∈ names, 0x22 ∈ utf8 name

namespace IpcServer

section
variable {μ ε : Type} [IMonitor μ ε] {e : PhmEngine μ}

theorem findEntity_name (he : e.Ready) (name : Bytes) :
    Ends (findEntity name) e
      (fun found _ => ∀ entity, found = some entity → utf8 entity.config.name = name)
      (fun _ => False) := by
  have hfree : Lockable.held e = false := he.free
  unfold findEntity
  cases hdecode : decode name with
  | none => simp [ends_withLock_of_free hfree]
  | some text =>
    obtain rfl := eq_utf8_of_decode hdecode
    simp only [PhmEngine.getEntity, ends_bind, ends_withLock_of_free hfree, ends_get, ends_pure]
    intro entity hentity
    obtain ⟨ref, href, hobject⟩ := Option.bind_eq_some_iff.mp hentity
    obtain ⟨se, hse, hname, -⟩ := he.registered text ref href
    have hobject' : e.objects[ref]? = some entity := hobject
    rw [hse] at hobject'
    cases hobject'
    rw [hname]

def joinTail : List String → Bytes
  | [] => []
  | name :: rest => 0x2C :: joinNames (name :: rest)

theorem joinNames_cons (name : String) (rest : List String) :
    joinNames (name :: rest) = 0x22 :: (utf8 name ++ 0x22 :: joinTail rest) := by
  have hquote : utf8 "\"" = [0x22] := rfl
  have hcomma : utf8 "," = [0x2C] := rfl
  cases rest <;> simp [joinNames, joinTail, hquote, hcomma]

section
variable {names : List String} {elements : List Json} {base : List Json.Frame} {mode : Json.Mode}
  {chars : List Char} {w : Bytes} {R : Json.Reader} {v : Json}

theorem feed_joinNames (hne : names ≠ []) (h : ∀ name ∈ names, Quotable (utf8 name))
    (elements : List Json) (hmode : mode = .value ∨ mode = .first) :
    ∃ elements', (atToken [.array elements] mode).feed (joinNames names) =
      .ok (atToken [.array elements'] .separator) := by
  induction names generalizing elements mode with
  | nil => exact absurd rfl hne
  | cons name rest ih =>
    obtain ⟨v, hv⟩ := Json.Reader.feed_quoted [] elements hmode (h name (by simp))
    have hsplit : joinNames (name :: rest) = (0x22 :: (utf8 name ++ [0x22])) ++ joinTail rest := by
      simp [joinNames_cons]
    rw [hsplit, Json.Reader.feed_append_of_ok hv]
    cases rest with
    | nil => exact ⟨_, rfl⟩
    | cons next rest =>
      obtain ⟨elements', hrest⟩ := ih (by simp) (fun n hn => h n (by simp [hn])) (elements ++ [v])
        (.inl rfl)
      have hcomma : (atToken [.array (elements ++ [v])] .separator).consume 0x2C =
          .ok (atToken [.array (elements ++ [v])] .value) := rfl
      exact ⟨elements', Json.Reader.feed_cons_iff.mpr ⟨_, hcomma, hrest⟩⟩

theorem finish_joinTail {stack : List Json.Frame} (hnames : ∀ name ∈ names, 0x22 ∉ utf8 name)
    (hw : 0x22 ∉ w) (h : (inString stack mode .plain chars).feed (joinTail names ++ w) = .ok R) :
    R.finish ≠ .ok v := by
  induction names generalizing stack mode chars with
  | nil =>
    obtain ⟨state, chars', -, rfl⟩ := Json.Reader.inside_of_feed hw h
    exact Json.Reader.finish_inString stack mode state chars' v
  | cons name rest ih =>
    have hsplit : joinTail (name :: rest) ++ w =
        0x2C :: 0x22 :: (utf8 name ++ 0x22 :: (joinTail rest ++ w)) := by
      rw [joinTail, joinNames_cons]
      simp
    rw [hsplit] at h
    obtain ⟨stack, mode, h⟩ := Json.Reader.feed_flipped (hnames name (by simp)) h
    exact ih (fun n hn => hnames n (by simp [hn])) h

theorem quotable_joinNames (hnames : ∀ name ∈ names, 0x22 ∉ utf8 name) (hw : 0x22 ∉ w)
    (hmode : mode = .value ∨ mode = .first)
    (h : (atToken (.array elements :: base) mode).feed (joinNames names ++ 0x5D :: w) = .ok R)
    (hR : R.finish = .ok v) : ∀ name ∈ names, Quotable (utf8 name) := by
  induction names generalizing elements mode with
  | nil => simp
  | cons name rest ih =>
    have hopen : (atToken (.array elements :: base) mode).consume 0x22 =
        .ok (inString (.array elements :: base) mode .plain []) := rfl
    have hrest : ∀ n ∈ rest, 0x22 ∉ utf8 n := fun n hn => hnames n (by simp [hn])
    rw [joinNames_cons, List.cons_append, List.append_assoc, List.cons_append,
      Json.Reader.feed_cons, hopen] at h
    obtain ⟨m, hm, h⟩ := Json.Reader.feed_append_iff.mp h
    obtain ⟨state, chars, hinside, rfl⟩ := Json.Reader.inside_of_feed (hnames name (by simp)) hm
    by_cases hplain : state = .plain
    · subst hplain
      have hclose : (inString (.array elements :: base) mode .plain chars).consume 0x22 =
          .ok (atToken (.array (elements ++ [.string (String.ofList chars)]) :: base) .separator) := by
        rcases hmode with rfl | rfl <;> rfl
      obtain ⟨m, hm, h⟩ := Json.Reader.feed_cons_iff.mp h
      rw [hclose] at hm
      cases hm
      cases rest with
      | nil =>
        intro n hn
        obtain rfl : n = name := by simpa using hn
        exact hinside
      | cons next rest =>
        have hcomma : (atToken (.array (elements ++ [.string (String.ofList chars)]) :: base)
            .separator).consume 0x2C =
            .ok (atToken (.array (elements ++ [.string (String.ofList chars)]) :: base) .value) := rfl
        obtain ⟨m, hm, h⟩ := Json.Reader.feed_cons_iff.mp h
        rw [hcomma] at hm
        cases hm
        intro n hn
        rcases List.mem_cons.mp hn with rfl | hn
        · exact hinside
        · exact ih hrest (.inl rfl) h n hn
    · -- the closing quote belongs to the name, and all that follow are flipped
      obtain ⟨c, tail, hc, hsplit⟩ : ∃ c tail, c < 0x80 ∧ joinTail rest ++ 0x5D :: w = c :: tail := by
        cases rest <;> exact ⟨_, _, by decide, rfl⟩
      rw [hsplit] at h
      obtain ⟨chars', hflipped⟩ := Json.Reader.feed_escaped hplain hc h
      rw [← hsplit] at hflipped
      exact absurd hR (finish_joinTail hrest (by simpa using hw) hflipped)

end

theorem reads_joinNames {names : List String} (h : ∀ name ∈ names, Quotable (utf8 name)) :
    ∃ v, Reads (utf8 "[" ++ joinNames names ++ utf8 "]") v := by
  have hopen : ({} : Json.Reader).feed (utf8 "[") = .ok (atToken [.array []] .first) := rfl
  cases names with
  | nil => exact ⟨_, [], rfl, by simp⟩
  | cons name rest =>
    obtain ⟨elements, hfeed⟩ := feed_joinNames (by simp) h [] (.inr rfl)
    refine ⟨.array elements, [], ?_, by simp⟩
    rw [List.append_assoc, Json.Reader.read_append hopen, Json.Reader.read_append hfeed]
    rfl

theorem hinges_names (names : List String) :
    (Reply.result (utf8 "[" ++ joinNames names ++ utf8 "]")).Hinges
      (∀ name ∈ names, Quotable (utf8 name)) (∃ name ∈ names, 0x22 ∈ utf8 name) := by
  refine ⟨reads_joinNames, ?_⟩
  intro base R v hfeed hR
  by_cases hquote : ∃ name ∈ names, 0x22 ∈ utf8 name
  · exact .inr hquote
  · have hnames : ∀ name ∈ names, 0x22 ∉ utf8 name := fun name hname hmem => hquote ⟨name, hname, hmem⟩
    have hopen : (atToken base .value).consume 0x5B = .ok (atToken (.array [] :: base) .first) := rfl
    have hsplit : (Reply.result (utf8 "[" ++ joinNames names ++ utf8 "]")).value ++ [0x7D] =
        0x5B :: (joinNames names ++ 0x5D :: [0x7D]) := by
      have hbracket : utf8 "[" = [0x5B] ∧ utf8 "]" = [0x5D] := ⟨rfl, rfl⟩
      simp [Reply.value, hbracket]
    rw [hsplit] at hfeed
    obtain ⟨m, hm, hrest⟩ := Json.Reader.feed_cons_iff.mp hfeed
    rw [hopen] at hm
    cases hm
    exact .inl (quotable_joinNames hnames (by decide) (.inr rfl) hrest hR)

section
variable {code : Int} {msg text : Bytes} {Luck : Prop}

theorem hinges_message (hcode : code ∈ [-32600, -32601, -32602]) (hquote : 0x22 ∉ msg)
    (hmsg : Quotable msg) (htext : 0x22 ∉ text) :
    (Reply.error code (msg ++ text)).Hinges (Quotable text) Luck :=
  (Reply.hinges_error hcode (by simp [hquote, htext])).congr (Json.quotable_append hmsg text)

theorem hinges_literal (hcode : code ∈ [-32600, -32601, -32602]) (hquote : 0x22 ∉ msg)
    (hmsg : Quotable msg) : (Reply.error code msg).Hinges True Luck :=
  (Reply.hinges_error hcode hquote).congr (iff_true_intro hmsg)

end

theorem reply_hinges (he : e.Ready) {c : IpcCall} (hstats : c ≠ .getStats)
    (hentity : ∀ name, c = .getEntity name → 0x22 ∉ name)
    (hunknown : ∀ method, c = .unknown method → 0x22 ∉ method)
    (parsed : Except String ParseResult) :
    Ends (reply parsed c) e
      (fun r _ => r.Hinges (c.Quoted e.entities.keys) (c.ListsQuote e.entities.keys))
      (fun _ => False) := by
  have hfree : Lockable.held e = false := he.free
  cases c with
  | missingMethod => exact hinges_literal (by decide) (by decide) (by decide)
  | invalidRequest => exact hinges_literal (by decide) (by decide) (by decide)
  | missingName => exact hinges_literal (by decide) (by decide) (by decide)
  | invalidName => exact hinges_literal (by decide) (by decide) (by decide)
  | getGlobalState =>
    rw [reply, EngineCalls.reply, engineCalls, ends_bind, PhmEngine.ends_getGlobalState he.free, ends_pure]
    cases e.worst <;> exact Reply.hinges_true ⟨[], rfl, by simp⟩
  | getEntity name =>
    have hname := hentity name rfl
    rw [reply_getEntity, ends_bind]
    refine (findEntity_name he name).mono ?_ (fun _ h => h)
    intro found f hfound
    cases found with
    | none => exact hinges_message (by decide) (by decide) (by decide) hname
    | some entity =>
      have heq := hfound entity rfl
      subst heq
      exact Reply.hinges_entity hname entity.currentState
  | listEntities =>
    rw [reply, EngineCalls.reply, engineCalls, ends_bind, PhmEngine.getEntityNames, ends_withLock_of_free hfree,
      ends_bind, ends_get]
    obtain ⟨hreads, htells⟩ := hinges_names e.entities.keys
    exact ⟨hreads, fun base R v hfeed hR => (htells base R v hfeed hR).imp_right fun h => ⟨rfl, h⟩⟩
  | listEvents => exact Reply.hinges_true ⟨[], rfl, by simp⟩
  | reloadConfig =>
    rw [reply, EngineCalls.reply, ends_bind]
    refine (PhmEngine.keeps_reloadConfiguration parsed e he).mono ?_ (fun _ h => h)
    intro ok f _
    cases ok <;> exact Reply.hinges_true ⟨[], rfl, by simp⟩
  | getStats => exact absurd rfl hstats
  | unknown method => exact hinges_message (by decide) (by decide) (by decide) (hunknown method rfl)

def Responds (parsed : Except String ParseResult) (request : Bytes) (e : PhmEngine μ) : Prop :=
  ∃ text f, dispatch parsed request e = .ok (text, f) ∧ IsResponse text

theorem dispatch_responds (he : PhmEngine.Reachable e) (parsed : Except String ParseResult)
    (request : Bytes) :
    ((extracted request).Printable e.entities.keys → Responds parsed request e) ∧
      (Responds parsed request e → (extracted request).Printable e.entities.keys ∨
        (extracted request).call.ListsQuote e.entities.keys) := by
  have hcut := cut_extracted request
  rw [Responds, dispatch_eq]
  by_cases hstats : (extracted request).call = .getStats
  · refine ⟨fun h => absurd hstats h.returns, ?_⟩
    rintro ⟨text, f, hanswer, -⟩
    rw [answer_getStats he hstats] at hanswer
    cases hanswer
  · obtain ⟨r, f, hreply, hr⟩ := ends_ok_iff.mp
      (reply_hinges he.ready hstats hcut.name hcut.method parsed)
    have hid : ∀ b ∈ (extracted request).id, b ≠ 0x2C ∧ b ≠ 0x7D := fun b hb =>
      ⟨fun heq => hcut.id 0x2C (by decide) (heq ▸ hb), fun heq => hcut.id 0x7D (by decide) (heq ▸ hb)⟩
    rw [answer_of_ok hreply]
    constructor
    · intro h
      obtain ⟨v, hv⟩ := h.id
      obtain ⟨w, hw⟩ := hr.reads h.text
      exact ⟨_, f, rfl, Reply.isResponse_of_reads hv hw⟩
    · rintro ⟨text, g, heq, htext⟩
      cases heq
      refine (Reply.cases_of_isResponse hr hid htext).imp_left ?_
      rintro ⟨hreads, hquoted⟩
      exact ⟨hreads, hquoted, hstats⟩

end

theorem list_entities_responds :
    Responds (.error "") (utf8 "\x7b\"method\":\"list_entities\",\"id\":7\x7d")
      (.new {} : PhmEngine ReportingMonitor) := by
  refine (dispatch_responds (.new {}) (.error "") _).1 ⟨⟨.unsigned 7, [], rfl, by simp⟩, ?_, by decide⟩
  intro name hname
  simp [PhmEngine.new] at hname

theorem quoted_method_breaks_response :
    let request := utf8 "\x7b\"method\":\"a\\\"b\",\"id\":1\x7d"
    Json.parse true request = .ok (.object [("id", .unsigned 1), ("method", .string "a\"b")]) ∧
      ¬ Responds (.error "") request (.new {} : PhmEngine ReportingMonitor) := by
  intro request
  refine ⟨by decide +kernel, ?_⟩
  rintro ⟨text, f, hdispatch, body, members, rfl, hread, -⟩
  have hrun : dispatch (.error "") request (.new {} : PhmEngine ReportingMonitor) =
      .ok ((Reply.error (-32601) (utf8 "Method not found: a\\")).render (utf8 "1"), .new {}) := rfl
  rw [hrun, Reply.render_eq_body] at hdispatch
  obtain rfl := List.append_cancel_right (congrArg Prod.fst (Except.ok.inj hdispatch))
  have hfail : (({} : Json.Reader).read
      ((Reply.error (-32601) (utf8 "Method not found: a\\")).body (utf8 "1"))).toOption = none := by
    decide +kernel
  rw [hread] at hfail
  cases hfail

end IpcServer

end PlatformHealth
