import PlatformHealth.Engine.LockFreedom
import PlatformHealth.Ipc.Requests

namespace PlatformHealth

open LockDiscipline ByteString

def Closing (id : Bytes) : Prop := ∀ u v, id = u ++ 0x2C :: 0x22 :: v → v = []

theorem closing_of_not_mem {id : Bytes} (h : 0x2C ∉ id) : Closing id := by
  rintro u v rfl
  simp at h

namespace Reply

theorem tail_eq_cons (r : Reply) : ∃ b rest, r.tail = 0x2C :: 0x22 :: b :: rest ∧ b ≠ 0x2C := by
  cases r with
  | result text => exact ⟨0x72, _, rfl, by decide⟩
  | error code msg => exact ⟨0x65, _, rfl, by decide⟩

theorem eq_nil_of_tail_eq {id a : Bytes} {r s : Reply} (hid : Closing (id ++ a))
    (h : r.tail = a ++ s.tail) : a = [] := by
  obtain ⟨b, rest, hr, hb⟩ := r.tail_eq_cons
  obtain ⟨c, rest', hs, -⟩ := s.tail_eq_cons
  rw [hr, hs] at h
  match a with
  | [] => rfl
  | [x] => simp at h
  | x :: y :: a =>
    simp only [List.cons_append, List.cons.injEq] at h
    obtain ⟨rfl, rfl, htail⟩ := h
    obtain rfl : a = [] := hid id a rfl
    exact absurd (List.cons.inj htail).1 hb

theorem render_inj {i j : Bytes} {r s : Reply} (hi : Closing i) (hj : Closing j)
    (h : r.render i = s.render j) : i = j ∧ r.tail = s.tail := by
  rw [render_eq, render_eq, List.append_assoc, List.append_assoc, List.append_cancel_left_eq,
    List.append_eq_append_iff] at h
  rcases h with ⟨a, rfl, htail⟩ | ⟨a, rfl, htail⟩
  · obtain rfl := eq_nil_of_tail_eq hj htail
    simpa using htail
  · obtain rfl := eq_nil_of_tail_eq hi htail
    simpa using htail.symm

end Reply

namespace IpcCall

def shape : IpcCall → IpcCall
  | .getEntity _ => .getEntity []
  | .unknown _ => .unknown []
  | c => c

def shapes : List IpcCall :=
  [.missingMethod, .invalidRequest, .getGlobalState, .getEntity [], .missingName, .invalidName,
    .listEntities, .listEvents, .reloadConfig, .getStats, .unknown []]

theorem shape_mem (c : IpcCall) : c.shape ∈ shapes := by
  cases c <;> simp [shape, shapes]

def freshReply : IpcCall → Reply
  | .missingMethod => .error (-32600) (utf8 "Invalid Request: missing method")
  | .invalidRequest => .error (-32600) (utf8 "Invalid Request")
  | .getGlobalState => .result (utf8 "\x7b\"global_state\":\"RUNNING\"\x7d")
  | .getEntity name => .error (-32602) (utf8 "Entity not found: " ++ name)
  | .missingName => .error (-32602) (utf8 "Missing param: name")
  | .invalidName => .error (-32602) (utf8 "Invalid param: name")
  | .listEntities => .result (utf8 "[]")
  | .listEvents => .result (utf8 "[]")
  | .reloadConfig => .result (utf8 "\x7b\"status\":\"error\"\x7d")
  | .getStats => .result []
  | .unknown method => .error (-32601) (utf8 "Method not found: " ++ method)

def mark (c : IpcCall) : Bytes := c.freshReply.tail.take 51

theorem mark_shape (c : IpcCall) : c.mark = c.shape.mark := by
  cases c <;> rfl

theorem shape_eq_of_mark : ∀ c ∈ shapes, ∀ d ∈ shapes, c.mark = d.mark →
    c = d ∨ (c = .listEntities ∧ d = .listEvents) ∨ (c = .listEvents ∧ d = .listEntities) := by
  decide +kernel

theorem eq_of_freshReply {c d : IpcCall} (h : c.freshReply.tail = d.freshReply.tail) :
    c = d ∨ (c = .listEntities ∧ d = .listEvents) ∨ (c = .listEvents ∧ d = .listEntities) := by
  have hmark : c.shape.mark = d.shape.mark := by
    rw [← mark_shape, ← mark_shape, mark, mark, h]
  have hshape := shape_eq_of_mark _ c.shape_mem _ d.shape_mem hmark
  cases c with
  | getEntity name =>
    cases d with
    | getEntity name' => simpa [freshReply, Reply.tail] using h
    | _ => simp [shape] at hshape
  | unknown method =>
    cases d with
    | unknown method' => simpa [freshReply, Reply.tail] using h
    | _ => simp [shape] at hshape
  | _ => cases d <;> simp_all [shape]

end IpcCall

namespace Extracted

-- get_stats never returns, whatever the id
structure Alike (x y : Extracted) : Prop where
  call : x.call = y.call
  id : x.call ≠ .getStats → x.id = y.id

end Extracted

namespace IpcServer

variable {μ ε : Type} [IMonitor μ ε]

theorem reply_new {c : IpcCall} (h : c ≠ .getStats) :
    reply (.error "") c (.new {} : PhmEngine μ) = .ok (c.freshReply, .new {}) := by
  cases c with
  | getStats => exact absurd rfl h
  | getEntity name =>
    have hnone : findEntity name (.new {} : PhmEngine μ) = .ok (none, .new {}) := by
      unfold findEntity
      cases decode name <;> rfl
    rw [reply_getEntity]
    change (findEntity name (.new {} : PhmEngine μ) >>= _) = _
    rw [hnone]
    rfl
  | _ => rfl

def single : PhmEngine μ :=
  { (.new {} : PhmEngine μ) with
    objects := [{ SupervisedEntity.new { name := "se" } with stateCb := true }]
    entities := (∅ : StringMap Nat).insert "se" 0 }

theorem reachable_single : PhmEngine.Reachable (single : PhmEngine μ) :=
  .step (.call (.addSupervisedEntity { name := "se" })) (.new {}) rfl

theorem reply_single_ne :
    (reply (.error "") .listEntities (single : PhmEngine μ)).toOption.map (·.1.tail) ≠
      (reply (.error "") .listEvents (single : PhmEngine μ)).toOption.map (·.1.tail) := by
  have hentities : (reply (.error "") .listEntities (single : PhmEngine μ)).toOption.map
      (·.1.tail) = some (Reply.result (utf8 "[\"se\"]")).tail := rfl
  have hevents : (reply (.error "") .listEvents (single : PhmEngine μ)).toOption.map
      (·.1.tail) = some (Reply.result (utf8 "[]")).tail := rfl
  rw [hentities, hevents]
  decide

section
variable {parsed : Except String ParseResult} {x y : Extracted} {e f g : PhmEngine μ}

theorem answer_of_ok {r : Reply} (h : reply parsed x.call e = .ok (r, f)) :
    answer parsed x e = .ok (r.render x.id, f) := by
  change ((fun p => (Reply.render x.id p.1, p.2)) <$> reply parsed x.call e : Except _ _) = _
  rw [h]
  rfl

theorem answer_of_error {fault : LockDiscipline.Fault CheckFault} (h : reply parsed x.call e = .error fault) :
    answer parsed x e = .error fault := by
  change ((fun p => (Reply.render x.id p.1, p.2)) <$> reply parsed x.call e : Except _ _) = _
  rw [h]
  rfl

theorem answer_getStats (he : PhmEngine.Reachable e) (hx : x.call = .getStats) :
    answer parsed x e = .error .relock := by
  refine answer_of_error ?_
  rw [hx]
  have hrelock : Ends (reply parsed .getStats) e (fun _ _ => False) (· = .relock) := by
    rw [reply, EngineCalls.reply, ends_bind]
    exact (PhmEngine.getStats_relocks he.ready).mono (fun _ _ h => h.elim) (fun _ h => h)
  exact ends_relock_iff.mp hrelock

theorem tail_eq_of_answer {r s : Reply} (hx : Closing x.id) (hy : Closing y.id)
    (hr : reply parsed x.call e = .ok (r, f)) (hs : reply parsed y.call e = .ok (s, g))
    (h : answer parsed x e = answer parsed y e) : x.id = y.id ∧ r.tail = s.tail := by
  rw [answer_of_ok hr, answer_of_ok hs] at h
  exact Reply.render_inj hx hy (congrArg Prod.fst (Except.ok.inj h))

end

theorem call_ne_events {x y : Extracted} (hx : Closing x.id) (hy : Closing y.id)
    (hentities : x.call = .listEntities) (hevents : y.call = .listEvents) :
    answer (.error "") x (single : PhmEngine μ) ≠ answer (.error "") y single := by
  intro h
  have hne := reply_single_ne (μ := μ)
  cases hr : reply (.error "") .listEntities (single : PhmEngine μ) with
  | error fault => cases hr
  | ok p =>
    cases hs : reply (.error "") .listEvents (single : PhmEngine μ) with
    | error fault => cases hs
    | ok q =>
      have htail := (tail_eq_of_answer hx hy (hentities ▸ hr) (hevents ▸ hs) h).2
      rw [hr, hs] at hne
      exact hne (congrArg some htail)

theorem closing_extracted (request : Bytes) : Closing (extracted request).id :=
  closing_of_not_mem ((cut_extracted request).id 0x2C (by decide))

theorem answer_eq_iff {x y : Extracted} (hx : Closing x.id) (hy : Closing y.id) :
    (∀ (parsed : Except String ParseResult) (e : PhmEngine μ), PhmEngine.Reachable e →
        answer parsed x e = answer parsed y e) ↔ x.Alike y := by
  constructor
  · intro h
    have hfresh := h (.error "") _ (.new {})
    by_cases hxs : x.call = .getStats
    · rw [answer_getStats (.new {}) hxs] at hfresh
      by_cases hys : y.call = .getStats
      · exact ⟨hxs.trans hys.symm, fun hne => absurd hxs hne⟩
      · rw [answer_of_ok (reply_new hys)] at hfresh
        cases hfresh
    · by_cases hys : y.call = .getStats
      · rw [answer_getStats (.new {}) hys, answer_of_ok (reply_new hxs)] at hfresh
        cases hfresh
      · obtain ⟨hid, htail⟩ := tail_eq_of_answer hx hy (reply_new hxs) (reply_new hys) hfresh
        refine ⟨?_, fun _ => hid⟩
        rcases IpcCall.eq_of_freshReply htail with heq | ⟨hxc, hyc⟩ | ⟨hxc, hyc⟩
        · exact heq
        · exact absurd (h (.error "") _ reachable_single) (call_ne_events hx hy hxc hyc)
        · exact absurd (h (.error "") _ reachable_single).symm (call_ne_events hy hx hyc hxc)
  · rintro ⟨hcall, hid⟩ parsed e he
    by_cases hxs : x.call = .getStats
    · rw [answer_getStats he hxs, answer_getStats he (hcall ▸ hxs)]
    · rw [answer, answer, EngineCalls.answer, EngineCalls.answer, hcall, hid hxs]

end IpcServer

end PlatformHealth
