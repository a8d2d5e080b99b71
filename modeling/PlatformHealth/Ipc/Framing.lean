import PlatformHealth.Ipc.Answers
import PlatformHealth.Library.Json.Reader

namespace PlatformHealth

open LockDiscipline ByteString

namespace IpcServer

def wholeText (chunks : List Chunk) : Bytes := (chunks.map (·.val)).flatten

def received (chunk : Chunk) : Bytes := cString (chunk.val.take 4095)

section
variable {μ ε : Type} [IMonitor μ ε]

theorem some_map_inj {α : Type} {x y : EngineM μ α} {e f : PhmEngine μ} :
    (some <$> x) e = (some <$> y) f ↔ x e = y f := by
  have hmap (z : EngineM μ α) (e : PhmEngine μ) :
      (some <$> z) e = (fun p => (some p.1, p.2)) <$> z e := rfl
  rw [hmap, hmap]
  cases x e <;> cases y f <;> simp [Functor.map, Except.map, Prod.ext_iff]

theorem handleClient_cons (parsed : Except String ParseResult) (chunk : Chunk)
    (rest : List Chunk) :
    (handleClient parsed (chunk :: rest) : EngineM μ (Option Bytes)) =
      some <$> answer parsed (extracted (received chunk)) := by
  rw [← dispatch_eq]
  rfl

theorem handleClient_eq_dispatch_iff (chunk : Chunk) (rest : List Chunk) :
    (∀ (parsed : Except String ParseResult) (e : PhmEngine μ), PhmEngine.Reachable e →
        handleClient parsed (chunk :: rest) e =
          (some <$> dispatch parsed (wholeText (chunk :: rest))) e) ↔
      (extracted (received chunk)).Alike (extracted (wholeText (chunk :: rest))) := by
  simp only [handleClient_cons, dispatch_eq, some_map_inj]
  exact answer_eq_iff (closing_extracted _) (closing_extracted _)

theorem handleClient_of_fits (parsed : Except String ParseResult) {chunk : Chunk}
    (hsize : chunk.val.length ≤ 4095) (hzero : 0 ∉ chunk.val) :
    (handleClient parsed [chunk] : EngineM μ (Option Bytes)) = some <$> dispatch parsed chunk.val := by
  have hreceived : received chunk = chunk.val := by
    rw [received, List.take_of_length_le hsize, cString_of_notMem hzero]
  rw [handleClient_cons, hreceived, dispatch_eq]

end

theorem split_request_refused :
    let front : Chunk := ⟨utf8 "\x7b\"id\":1,", by decide⟩
    let back : Chunk := ⟨utf8 "\"method\":\"list_events\"\x7d", by decide⟩
    Json.parse true (wholeText [front, back]) =
        .ok (.object [("id", .unsigned 1), ("method", .string "list_events")]) ∧
      handleClient (.error "") [front, back] (.new {} : PhmEngine ReportingMonitor) ≠
        (some <$> dispatch (.error "") (wholeText [front, back])) (.new {}) := by
  intro front back
  have hrefused : handleClient (.error "") [front, back] (.new {} : PhmEngine ReportingMonitor) =
      .ok (some ((Reply.error (-32600) (utf8 "Invalid Request: missing method")).render
        (utf8 "1")), .new {}) := rfl
  have hanswered : (some <$> dispatch (.error "") (wholeText [front, back]))
      (.new {} : PhmEngine ReportingMonitor) =
      .ok (some ((Reply.result (utf8 "[]")).render (utf8 "1")), .new {}) := rfl
  refine ⟨by decide +kernel, ?_⟩
  rw [hrefused, hanswered]
  intro h
  exact absurd (congrArg Prod.fst (Except.ok.inj h)) (by decide)

end IpcServer

end PlatformHealth
