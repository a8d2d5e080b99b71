import PlatformHealth.Ipc.Answers
import PlatformHealth.Library.Json.Completeness
import PlatformHealth.Library.Json.Scalar

namespace PlatformHealth

open LockDiscipline ByteString

structure Request where
  id : Bytes
  method : String
  params : Option Json
deriving DecidableEq

def isRequestId : Json → Bool
  | .null | .string _ | .unsigned _ | .integer _ | .float _ => true
  | _ => false

namespace Request

def read (s : Bytes) : Option Request := do
  let fields ← Json.objectFields s
  let id ← Json.lastField fields "id"
  let method ← Json.lastField fields "method"
  match isRequestId id.value, method.value with
  | true, .string name =>
    return {
      id := id.text
      method := name
      params := (Json.lastField fields "params").map (·.value) }
  | _, _ => none

def name (r : Request) : Quoted :=
  match r.params.bind (·.member "name") with
  | none => .missing
  | some (.string name) => .text (utf8 name)
  | some _ => .invalid

def meant (r : Request) : Extracted where
  id := r.id
  call := IpcServer.methodCall (utf8 r.method) (IpcServer.entityCall r.name)

section
variable {s : Bytes} {r : Request}

theorem read_parse (h : read s = some r) : ∃ document id, Json.parse true s = .ok document ∧
    document.member "id" = some id ∧ isRequestId id = true ∧
    document.member "method" = some (.string r.method) ∧ document.member "params" = r.params := by
  obtain ⟨fields, hfields, h⟩ := Option.bind_eq_some_iff.mp h
  obtain ⟨id, hid, h⟩ := Option.bind_eq_some_iff.mp h
  obtain ⟨method, hmethod, h⟩ := Option.bind_eq_some_iff.mp h
  split at h
  · next name hisId hname =>
    cases h
    refine ⟨_, id.value, Json.parse_of_objectFields hfields, ?_, hisId, ?_, ?_⟩
    · rw [Json.member_lastField, hid]
      rfl
    · rw [Json.member_lastField, hmethod, ← hname]
      rfl
    · rw [Json.member_lastField]
  · cases h

theorem exists_read_iff : (∃ r, read s = some r) ↔
    (∃ front, Json.takeByte 0x7B s = some front) ∧ ∃ document id name, Json.Reads s document ∧
      document.member "id" = some id ∧ isRequestId id = true ∧
      document.member "method" = some (.string name) := by
  constructor
  · rintro ⟨r, h⟩
    obtain ⟨fields, hfields, h⟩ := Option.bind_eq_some_iff.mp h
    obtain ⟨front, hfront, -⟩ := Option.bind_eq_some_iff.mp hfields
    obtain ⟨id, hid, h⟩ := Option.bind_eq_some_iff.mp h
    obtain ⟨method, hmethod, h⟩ := Option.bind_eq_some_iff.mp h
    split at h
    · next name hisId hname =>
      refine ⟨⟨front, hfront⟩, _, id.value, name, Json.reads_of_objectFields hfields, ?_, hisId, ?_⟩
      · rw [Json.member_lastField, hid]
        rfl
      · rw [Json.member_lastField, hmethod, ← hname]
        rfl
    · cases h
  · rintro ⟨⟨front, hfront⟩, document, id, name, hreads, hid, hisId, hname⟩
    rcases Json.objectFields_of_reads hfront hreads with rfl | ⟨fields, hfields⟩
    · cases hid
    · obtain rfl := hreads.unique (Json.reads_of_objectFields hfields)
      rw [Json.member_lastField, Option.map_eq_some_iff] at hid hname
      obtain ⟨idField, hid, rfl⟩ := hid
      obtain ⟨methodField, hmethod, hname⟩ := hname
      simp [read, hfields, hid, hmethod, hisId, hname]

theorem closing_id (h : read s = some r) : Closing r.id := by
  obtain ⟨fields, hfields, h⟩ := Option.bind_eq_some_iff.mp h
  obtain ⟨id, hid, h⟩ := Option.bind_eq_some_iff.mp h
  obtain ⟨method, hmethod, h⟩ := Option.bind_eq_some_iff.mp h
  obtain ⟨front, -, hfields⟩ := Option.bind_eq_some_iff.mp hfields
  split at h
  · next name hisId hname =>
    cases h
    have hmem : id ∈ fields := by simpa using List.mem_of_find?_eq_some hid
    obtain ⟨rest, hread⟩ := Json.read_text hfields id hmem
    have hscalar : id.value.isScalar = true := by
      cases hvalue : id.value <;> simp_all [isRequestId, Json.isScalar]
    intro u v huv
    have hcut : id.text = u ++ 0x2C :: 0x22 :: v := huv
    rw [hcut] at hread
    exact Json.eq_nil_of_comma_quote hscalar hread
  · cases h

end

end Request

namespace IpcServer

def reference {μ : Type} (parsed : Except String ParseResult) (r : Request) : EngineM μ Bytes :=
  answer parsed r.meant

theorem dispatch_eq_reference_iff {μ ε : Type} [IMonitor μ ε] {s : Bytes} {r : Request}
    (h : Request.read s = some r) :
    (∀ (parsed : Except String ParseResult) (e : PhmEngine μ), PhmEngine.Reachable e →
        dispatch parsed s e = reference parsed r e) ↔ (extracted s).Alike r.meant := by
  simp only [dispatch_eq, reference]
  exact answer_eq_iff (closing_extracted s) (Request.closing_id h)

theorem list_entities_eq_reference :
    let request := utf8 "\x7b\"method\": \"list_entities\", \"id\": \"a\"\x7d"
    let r : Request := { id := utf8 "\"a\"", method := "list_entities", params := none }
    Request.read request = some r ∧
      ∀ (parsed : Except String ParseResult) (e : PhmEngine ReportingMonitor), PhmEngine.Reachable e →
        dispatch parsed request e = reference parsed r e := by
  intro request r
  have hread : Request.read request = some r := by decide +kernel
  refine ⟨hread, (dispatch_eq_reference_iff hread).mpr ⟨?_, fun _ => ?_⟩⟩
  · decide +kernel
  · decide +kernel

theorem nested_id_echoed :
    let request := utf8 "\x7b\"params\":\x7b\"id\":7\x7d,\"method\":\"list_events\",\"id\":1\x7d"
    ∃ r, Request.read request = some r ∧
      dispatch (.error "") request (.new {} : PhmEngine ReportingMonitor) ≠
        reference (.error "") r (.new {}) := by
  intro request
  let params : Json := .object [("id", .unsigned 7)]
  refine ⟨{ id := utf8 "1", method := "list_events", params := some params }, by decide +kernel, ?_⟩
  have hcode : dispatch (.error "") request (.new {} : PhmEngine ReportingMonitor) =
      .ok ((Reply.result (utf8 "[]")).render (utf8 "7"), .new {}) := rfl
  have hreference : reference (.error "")
      { id := utf8 "1", method := "list_events", params := some params }
      (.new {} : PhmEngine ReportingMonitor) =
      .ok ((Reply.result (utf8 "[]")).render (utf8 "1"), .new {}) := rfl
  rw [hcode, hreference]
  intro h
  exact absurd (congrArg Prod.fst (Except.ok.inj h)) (by decide)

end IpcServer

end PlatformHealth
