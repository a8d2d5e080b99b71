import PlatformHealth.Library.ByteString
import PlatformHealth.Library.Json.Reader
import PlatformHealth.Library.Yields

namespace Json

open Yields (bind_eq_ok_iff map_eq_ok_iff)

namespace State

def Valid : State → Prop
  | .reading [] mode => mode = .value
  | _ => True

def embed (base : List Frame) : State → State
  | .reading stack mode => .reading (stack ++ base) mode
  | .done v => deliver v base

section
variable (base : List Frame)

theorem embed_deliver (v : Json) (stack : List Frame) :
    (deliver v stack).embed base = deliver v (stack ++ base) := by
  cases stack with
  | nil => rfl
  | cons frame stack => cases frame <;> rfl

theorem valid_deliver (v : Json) (stack : List Frame) : (deliver v stack).Valid := by
  cases stack with
  | nil => trivial
  | cons frame stack => cases frame <;> trivial

theorem step_embed {stack : List Frame} {mode : Mode} (h : (reading stack mode).Valid) (t : Token) :
    ((reading stack mode).embed base).step t = embed base <$> (reading stack mode).step t := by
  have hdeliver (v : Json) (stack : List Frame) :
      (Except.ok (deliver v (stack ++ base)) : Except ReadError State) =
        embed base <$> Except.ok (deliver v stack) :=
    congrArg Except.ok (embed_deliver base v stack).symm
  cases stack with
  | nil =>
    obtain rfl : mode = .value := h
    cases t <;> rfl
  | cons frame stack =>
    cases mode with
    | value =>
      cases t with
      | value v => exact hdeliver v (frame :: stack)
      | _ => rfl
    | first =>
      cases t with
      | value v => exact hdeliver v (frame :: stack)
      | endArray =>
        cases frame with
        | array elements => exact hdeliver (.array elements) stack
        | object members key => rfl
      | _ => rfl
    | firstKey =>
      cases t with
      | value v => cases frame <;> cases v <;> rfl
      | endObject =>
        cases frame with
        | array elements => rfl
        | object members key => exact hdeliver (.object members) stack
      | _ => rfl
    | key =>
      cases t with
      | value v => cases frame <;> cases v <;> rfl
      | _ => rfl
    | colon => cases t <;> rfl
    | separator =>
      cases t with
      | valueSeparator => cases frame <;> rfl
      | endArray =>
        cases frame with
        | array elements => exact hdeliver (.array elements) stack
        | object members key => rfl
      | endObject =>
        cases frame with
        | array elements => rfl
        | object members key => exact hdeliver (.object members) stack
      | _ => rfl

theorem valid_value (stack : List Frame) : (reading stack .value).Valid := by
  cases stack with
  | nil => rfl
  | cons frame stack => trivial

theorem valid_step {s s' : State} {t : Token} (h : s.step t = .ok s') : s'.Valid := by
  unfold step at h
  split at h
  · cases h
  · split at h <;> cases h <;>
      first | trivial | exact valid_deliver _ _ | exact valid_value _

end

end State

def Lexer.Spells (l : Lexer) : Prop :=
  ∀ expected v, l = .literal expected v →
    0x2C ∉ expected ∧ 0x22 ∉ expected ∧ ∀ text, v ≠ .string text

def Scanned.spells : Scanned → Bool
  | .lexer (.literal expected v) =>
    0x2C ∉ expected ∧ 0x22 ∉ expected ∧ v ∈ [.boolean true, .boolean false, .null]
  | _ => true

theorem spells_scan {b : UInt8} {l : Lexer} (h : scan b = .lexer l) : l.Spells := by
  have hall : (scan b).spells = true :=
    ByteString.byte_forall (p := fun b => (scan b).spells) (by decide +kernel) b
  rintro expected v rfl
  simp only [h, Scanned.spells, decide_eq_true_eq] at hall
  refine ⟨hall.1, hall.2.1, ?_⟩
  rintro text rfl
  simp at hall

theorem spells_next {l l' : Lexer} {b : UInt8} (hl : l.Spells) (h : l.next b = .lexer l') :
    l'.Spells := by
  cases l with
  | between =>
    simp only [Lexer.next] at h
    split at h
    · cases h
      rintro _ _ ⟨⟩
    · exact spells_scan h
  | literal expected v =>
    simp only [Lexer.next] at h
    split at h
    · cases h
    · split at h <;> cases h
    · split at h
      · cases h
        rintro _ _ ⟨⟩
        obtain ⟨hcomma, hquote, hstring⟩ := hl _ _ rfl
        exact ⟨fun hmem => hcomma (by simp [hmem]), fun hmem => hquote (by simp [hmem]), hstring⟩
      · cases h
  | number state n =>
    simp only [Lexer.next] at h
    split at h
    · cases h
      rintro _ _ ⟨⟩
    · cases h
  | string state chars =>
    simp only [Lexer.next] at h
    split at h
    · cases h
    · split at h
      · cases h
        rintro _ _ ⟨⟩
      · cases h

namespace Reader

def embed (base : List Frame) (r : Reader) : Reader := { r with state := r.state.embed base }

structure Valid (r : Reader) : Prop where
  state : r.state.Valid
  done : ∀ v, r.state = .done v → r.lexer = .between
  lexer : r.lexer.Spells

def consume (r : Reader) (b : UInt8) : Except ReadError Reader := do
  let r ← r.settle (some b)
  match r.state with
  | .done _ => .error .syntaxError
  | .reading _ _ => r.advance b

def feed (r : Reader) (s : List UInt8) : Except ReadError Reader := s.foldlM consume r

def finish (r : Reader) : Except ReadError Json := do
  let r ← r.settle none
  match r.state with
  | .done v => .ok v
  | .reading _ _ => .error .syntaxError

section
variable {r r' : Reader} {b : UInt8} {s t : List UInt8} {v : Json}

@[simp] theorem feed_nil (r : Reader) : r.feed [] = .ok r := rfl

@[simp] theorem feed_cons (r : Reader) (b : UInt8) (s : List UInt8) :
    r.feed (b :: s) = r.consume b >>= (·.feed s) := List.foldlM_cons

@[simp] theorem feed_append (r : Reader) (s t : List UInt8) :
    r.feed (s ++ t) = r.feed s >>= (·.feed t) := List.foldlM_append

theorem feed_append_of_ok (h : r.feed s = .ok r') (t : List UInt8) :
    r.feed (s ++ t) = r'.feed t := by
  rw [feed_append, h]
  rfl

theorem feed_append_iff : r.feed (s ++ t) = .ok r' ↔ ∃ m, r.feed s = .ok m ∧ m.feed t = .ok r' := by
  rw [feed_append, bind_eq_ok_iff]

theorem feed_cons_iff : r.feed (b :: s) = .ok r' ↔ ∃ m, r.consume b = .ok m ∧ m.feed s = .ok r' := by
  rw [feed_cons, bind_eq_ok_iff]

theorem consume_iff : r.consume b = .ok r' ↔ ∃ m, r.settle (some b) = .ok m ∧
    (∃ stack mode, m.state = .reading stack mode) ∧ m.advance b = .ok r' := by
  rw [consume, bind_eq_ok_iff]
  refine exists_congr fun m => and_congr_right fun _ => ?_
  cases m.state <;> simp

theorem finish_iff : r.finish = .ok v ↔ ∃ m, r.settle none = .ok m ∧ m.state = .done v := by
  rw [finish, bind_eq_ok_iff]
  refine exists_congr fun m => and_congr_right fun _ => ?_
  cases m.state <;> simp

theorem read_nil (r : Reader) : r.read [] = (·, []) <$> r.finish := by
  rw [read, finish]
  cases r.settle none with
  | error e => rfl
  | ok m => cases hm : m.state <;> simp [hm, bind, Except.bind, Functor.map, Except.map]

theorem read_cons_of_consume (h : r.consume b = .ok r') (s : List UInt8) :
    r.read (b :: s) = r'.read s := by
  obtain ⟨m, hm, ⟨stack, mode, hstate⟩, hadvance⟩ := consume_iff.mp h
  rw [read, hm]
  simp [hstate, hadvance, bind, Except.bind]

theorem read_cons_cases (h : r.read (b :: s) = .ok (v, t)) :
    (∃ r', r.consume b = .ok r' ∧ r'.read s = .ok (v, t)) ∨
      ∃ n, r.settle (some b) = .ok n ∧ n.state = .done v ∧ t = b :: s := by
  rw [read, bind_eq_ok_iff] at h
  obtain ⟨n, hn, h⟩ := h
  cases hstate : n.state with
  | done w =>
    simp only [hstate] at h
    obtain ⟨rfl, rfl⟩ := Prod.mk.inj (Except.ok.inj h)
    exact .inr ⟨n, hn, hstate, rfl⟩
  | reading stack mode =>
    simp only [hstate] at h
    obtain ⟨m, hm, hrest⟩ := bind_eq_ok_iff.mp h
    exact .inl ⟨m, consume_iff.mpr ⟨n, hn, ⟨stack, mode, hstate⟩, hm⟩, hrest⟩

theorem read_append (h : r.feed s = .ok r') (t : List UInt8) : r.read (s ++ t) = r'.read t := by
  induction s generalizing r with
  | nil => cases h; rfl
  | cons b s ih =>
    obtain ⟨m, hm, hrest⟩ := feed_cons_iff.mp h
    rw [List.cons_append, read_cons_of_consume hm]
    exact ih hrest

theorem read_cases (h : r.read s = .ok (v, t)) : ∃ front m, s = front ++ t ∧ r.feed front = .ok m ∧
    ∃ n, m.settle t.head? = .ok n ∧ n.state = .done v := by
  induction s generalizing r with
  | nil =>
    rw [read_nil, map_eq_ok_iff] at h
    obtain ⟨_, hfinish, hpair⟩ := h
    obtain ⟨rfl, rfl⟩ := Prod.mk.inj hpair
    exact ⟨[], r, rfl, rfl, finish_iff.mp hfinish⟩
  | cons b s ih =>
    rcases read_cons_cases h with ⟨m, hconsume, hrest⟩ | ⟨n, hn, hstate, rfl⟩
    · obtain ⟨front, k, rfl, hfeed, hend⟩ := ih hrest
      exact ⟨b :: front, k, rfl, feed_cons_iff.mpr ⟨m, hconsume, hfeed⟩, hend⟩
    · exact ⟨[], r, rfl, rfl, n, hn, hstate⟩

theorem valid_settle (hr : r.Valid) {b : Option UInt8} (h : r.settle b = .ok r') : r'.Valid := by
  unfold settle at h
  split at h
  · split at h
    · cases h
      exact hr
    · obtain ⟨state, hstate, h⟩ := bind_eq_ok_iff.mp h
      cases h
      exact ⟨State.valid_step hstate, fun _ _ => rfl, by rintro _ _ ⟨⟩⟩
    · cases h
  · cases h
    exact hr

theorem valid_advance (hr : r.Valid) (h : r.advance b = .ok r')
    (hstate : ∀ v, r.state ≠ .done v) : r'.Valid := by
  unfold advance at h
  split at h
  · next l hl =>
    cases h
    exact ⟨hr.state, fun v hv => absurd hv (hstate v), spells_next hr.lexer hl⟩
  · obtain ⟨state, hstep, h⟩ := bind_eq_ok_iff.mp h
    cases h
    exact ⟨State.valid_step hstep, fun _ _ => rfl, by rintro _ _ ⟨⟩⟩
  · cases h

theorem valid_consume (hr : r.Valid) (h : r.consume b = .ok r') : r'.Valid := by
  obtain ⟨m, hm, ⟨stack, mode, hstate⟩, hadvance⟩ := consume_iff.mp h
  exact valid_advance (valid_settle hr hm) hadvance (by simp [hstate])

theorem valid_feed (hr : r.Valid) (h : r.feed s = .ok r') : r'.Valid := by
  induction s generalizing r with
  | nil => cases h; exact hr
  | cons b s ih =>
    obtain ⟨m, hm, hrest⟩ := feed_cons_iff.mp h
    exact ih (valid_consume hr hm) hrest

theorem valid_start : ({} : Reader).Valid := ⟨rfl, fun _ _ => rfl, by rintro _ _ ⟨⟩⟩

end

section
variable {r r' : Reader} {b : UInt8} {s t : List UInt8} {v : Json} (base : List Frame)

theorem embed_step (hr : r.Valid) (hstate : ∀ v, r.state ≠ .done v) (t : Token) :
    (do return ({ state := ← (r.embed base).state.step t } : Reader)) =
      embed base <$> (do return ({ state := ← r.state.step t } : Reader) : Except ReadError Reader) := by
  have hvalid := hr.state
  cases hs : r.state with
  | done v => exact absurd hs (hstate v)
  | reading stack mode =>
    rw [hs] at hvalid
    rw [embed, hs, State.step_embed base hvalid]
    cases (State.reading stack mode).step t <;> rfl

theorem settle_embed (hr : r.Valid) (b : Option UInt8) :
    (r.embed base).settle b = embed base <$> r.settle b := by
  have hlexer : (r.embed base).lexer = r.lexer := rfl
  unfold settle
  rw [hlexer]
  cases hl : r.lexer with
  | number state n =>
    have hstate : ∀ v, r.state ≠ .done v := by
      intro v hv
      simpa [hl] using hr.done v hv
    dsimp only
    cases scanNumber state n b with
    | more state n => rfl
    | done => exact embed_step base hr hstate n.token
    | invalid => rfl
  | _ => rfl

theorem advance_embed (hr : r.Valid) (hstate : ∀ v, r.state ≠ .done v) (b : UInt8) :
    (r.embed base).advance b = embed base <$> r.advance b := by
  have hlexer : (r.embed base).lexer = r.lexer := rfl
  unfold advance
  rw [hlexer]
  cases r.lexer.next b with
  | lexer l => rfl
  | token t => exact embed_step base hr hstate t
  | invalid => rfl

theorem valid_embed {base : List Frame} (hbase : base ≠ []) (hr : r.Valid) :
    (r.embed base).Valid := by
  obtain ⟨frame, rest, rfl⟩ := List.exists_cons_of_ne_nil hbase
  obtain ⟨state, lexer⟩ := r
  cases state with
  | reading stack mode => cases stack <;> exact ⟨trivial, by rintro _ ⟨⟩, hr.lexer⟩
  | done v => cases frame <;> exact ⟨trivial, by rintro _ ⟨⟩, hr.lexer⟩

theorem consume_embed (hr : r.Valid) (h : r.consume b = .ok r') :
    (r.embed base).consume b = .ok (r'.embed base) := by
  obtain ⟨m, hm, ⟨stack, mode, hstate⟩, hadvance⟩ := consume_iff.mp h
  have hm' : (r.embed base).settle (some b) = .ok (m.embed base) := by
    rw [settle_embed base hr, hm]
    rfl
  have hadvance' : (m.embed base).advance b = .ok (r'.embed base) := by
    rw [advance_embed base (valid_settle hr hm) (by simp [hstate]), hadvance]
    rfl
  exact consume_iff.mpr ⟨_, hm', ⟨stack ++ base, mode, by rw [embed, hstate]; rfl⟩, hadvance'⟩

theorem feed_embed (hr : r.Valid) (h : r.feed s = .ok r') :
    (r.embed base).feed s = .ok (r'.embed base) := by
  induction s generalizing r with
  | nil => cases h; rfl
  | cons b s ih =>
    obtain ⟨m, hm, hrest⟩ := feed_cons_iff.mp h
    exact feed_cons_iff.mpr ⟨_, consume_embed base hr hm, ih (valid_consume hr hm) hrest⟩

def resume (v : Json) : Reader := { state := deliver v base }

theorem consume_resume {n : Reader} (hr : r.Valid) (hn : r.settle (some b) = .ok n)
    (hv : n.state = .done v) : (r.embed base).consume b = (resume base v).consume b := by
  have hembed : n.embed base = resume base v := by
    rw [embed, hv, (valid_settle hr hn).done v hv]
    rfl
  have hsettle : (r.embed base).settle (some b) = .ok (resume base v) := by
    rw [settle_embed base hr, hn, ← hembed]
    rfl
  rw [consume, hsettle]
  rfl

theorem feed_embed_cases {R : Reader} (hr : r.Valid) (h : (r.embed base).feed s = .ok R) :
    (∃ r', r.feed s = .ok r' ∧ R = r'.embed base) ∨
      ∃ v t, t ≠ [] ∧ r.read s = .ok (v, t) ∧ (resume base v).feed t = .ok R := by
  induction s generalizing r with
  | nil =>
    cases h
    exact .inl ⟨r, rfl, rfl⟩
  | cons b s ih =>
    cases hn : r.settle (some b) with
    | error e =>
      obtain ⟨m, hm, -⟩ := feed_cons_iff.mp h
      obtain ⟨n, hn', -⟩ := consume_iff.mp hm
      rw [settle_embed base hr, hn] at hn'
      cases hn'
    | ok n =>
      cases hstate : n.state with
      | done v =>
        refine .inr ⟨v, b :: s, by simp, ?_, ?_⟩
        · simp [read, hn, hstate, bind, Except.bind]
        · rw [feed_cons, ← consume_resume base hr hn hstate, ← feed_cons, h]
      | reading stack mode =>
        obtain ⟨M, hM, hrest⟩ := feed_cons_iff.mp h
        obtain ⟨N, hN, -, hadvance⟩ := consume_iff.mp hM
        rw [settle_embed base hr, hn] at hN
        cases hN
        rw [advance_embed base (valid_settle hr hn) (by simp [hstate])] at hadvance
        obtain ⟨m, hm, rfl⟩ := map_eq_ok_iff.mp hadvance
        have hconsume : r.consume b = .ok m := consume_iff.mpr ⟨n, hn, ⟨stack, mode, hstate⟩, hm⟩
        rcases ih (valid_consume hr hconsume) hrest with ⟨r', hr', rfl⟩ | ⟨v, t, ht, hread, hfeed⟩
        · exact .inl ⟨r', feed_cons_iff.mpr ⟨m, hconsume, hr'⟩, rfl⟩
        · exact .inr ⟨v, t, ht, by rw [read_cons_of_consume hconsume, hread], hfeed⟩

end

def Terminates (c : UInt8) : Prop := digit c = none ∧ c ∉ [0x2E, 0x65, 0x45, 0x2B, 0x2D]

instance : DecidablePred Terminates := fun c =>
  inferInstanceAs (Decidable (digit c = none ∧ c ∉ [0x2E, 0x65, 0x45, 0x2B, 0x2D]))

section
variable {r r' : Reader} {c : UInt8} {s t : List UInt8} {v : Json}

theorem scanNumber_of_terminates (hc : Terminates c) (state : NumberState) (n : Numeral) :
    scanNumber state n (some c) = scanNumber state n none := by
  obtain ⟨hdigit, hne⟩ := hc
  simp only [List.mem_cons, List.not_mem_nil, or_false, not_or] at hne
  cases state <;> simp [scanNumber, hdigit, hne]

theorem settle_of_terminates (hc : Terminates c) (r : Reader) :
    r.settle (some c) = r.settle none := by
  unfold settle
  split
  · rw [scanNumber_of_terminates hc]
  · rfl

theorem feed_resume (base : List Frame) (hr : r.Valid) (h : r.read s = .ok (v, t))
    (hc : Terminates c) (w : List UInt8) :
    (r.embed base).feed (s ++ c :: w) = (resume base v).feed (t ++ c :: w) := by
  obtain ⟨front, m, rfl, hfront, n, hn, hdone⟩ := read_cases h
  have hm := valid_feed hr hfront
  rw [List.append_assoc, feed_append_of_ok (feed_embed base hr hfront)]
  cases t with
  | nil =>
    rw [List.head?_nil, ← settle_of_terminates hc] at hn
    rw [List.nil_append, feed_cons, feed_cons, consume_resume base hm hn hdone]
  | cons b t =>
    rw [List.cons_append, feed_cons, feed_cons, consume_resume base hm hn hdone]

end

end Reader

end Json
