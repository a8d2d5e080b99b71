import PlatformHealth.Library.Json.Embedding

namespace Json

open Yields (bind_eq_ok_iff map_eq_ok_iff)

theorem Numeral.token_cases (n : Numeral) :
    (∃ v, n.token = .value v ∧ ∀ text, v ≠ .string text) ∨ n.token = .overflow := by
  have hfloat : (∃ v, n.floatToken = .value v ∧ ∀ text, v ≠ .string text) ∨
      n.floatToken = .overflow := by
    rw [Numeral.floatToken]
    split
    · exact .inl ⟨_, rfl, nofun⟩
    · exact .inr rfl
  unfold Numeral.token
  split
  · exact hfloat
  · split
    · split
      · exact .inl ⟨_, rfl, nofun⟩
      · exact hfloat
    · split
      · exact .inl ⟨_, rfl, nofun⟩
      · exact hfloat

def Lexer.Mute (l : Lexer) : Prop := ∀ state chars, l ≠ .string state chars

theorem next_of_begun {l : Lexer} (hl : l ≠ .between) (hspells : l.Spells) (b : UInt8) :
    (∃ l', l.next b = .lexer l' ∧ l' ≠ .between ∧ (l.Mute → l'.Mute)) ∨
      (∃ v, l.next b = .token (.value v) ∧ (l.Mute → ∀ text, v ≠ .string text)) ∨
      l.next b = .invalid := by
  cases l with
  | between => exact absurd rfl hl
  | literal expected v =>
    simp only [Lexer.next]
    split
    · exact .inr (.inr rfl)
    · split
      · exact .inr (.inl ⟨_, rfl, fun _ => (hspells _ _ rfl).2.2⟩)
      · exact .inr (.inr rfl)
    · split
      · exact .inl ⟨_, rfl, by simp, fun _ _ _ => by simp⟩
      · exact .inr (.inr rfl)
  | number state n =>
    simp only [Lexer.next]
    split
    · exact .inl ⟨_, rfl, by simp, fun _ _ _ => by simp⟩
    · exact .inr (.inr rfl)
  | string state chars =>
    simp only [Lexer.next]
    split
    · exact .inr (.inl ⟨_, rfl, fun hmute => absurd rfl (hmute _ _)⟩)
    · split
      · exact .inl ⟨_, rfl, by simp, fun hmute => absurd rfl (hmute _ _)⟩
      · exact .inr (.inr rfl)

def Lexer.Barred (l : Lexer) : Mode → Prop
  | .separator | .colon => True
  | .key | .firstKey => l.Mute
  | .value | .first => False

theorem step_barred {stack : List Frame} {mode : Mode} {l : Lexer} {v : Json} (h : l.Barred mode)
    (hv : l.Mute → ∀ text, v ≠ .string text) :
    (State.reading stack mode).step (.value v) = .error .syntaxError := by
  cases mode with
  | value => exact h.elim
  | first => exact h.elim
  | separator => cases stack <;> rfl
  | colon => rfl
  | key =>
    cases v with
    | string text => exact absurd rfl (hv h text)
    | _ => rfl
  | firstKey =>
    cases v with
    | string text => exact absurd rfl (hv h text)
    | _ => rfl

theorem step_barred_overflow {stack : List Frame} {mode : Mode} {l : Lexer} (h : l.Barred mode) :
    (State.reading stack mode).step .overflow = .error .syntaxError := by
  cases mode with
  | value => exact h.elim
  | first => exact h.elim
  | _ => rfl

theorem Lexer.Barred.mono {l l' : Lexer} {mode : Mode} (h : l.Barred mode) (hmute : l.Mute → l'.Mute) :
    l'.Barred mode := by
  cases mode with
  | key => exact hmute h
  | firstKey => exact hmute h
  | _ => exact h

def Scanned.fits : Scanned → Bool
  | .lexer .between | .token (.value _) | .token .valueSeparator | .token .endObject | .token .overflow => false
  | _ => true

namespace Reader

structure Stuck (r : Reader) : Prop where
  state : ∃ stack mode, r.state = .reading stack mode ∧ r.lexer.Barred mode
  lexer : r.lexer ≠ .between
  spells : r.lexer.Spells

section
variable {r r' : Reader} {b : UInt8} {s : List UInt8} {v : Json}

theorem Stuck.settle (h : r.Stuck) {b : Option UInt8} (hr : r.settle b = .ok r') : r' = r := by
  obtain ⟨stack, mode, hstate, hbarred⟩ := h.state
  unfold Reader.settle at hr
  split at hr
  · next state n hlexer =>
    split at hr
    · cases hr
      rfl
    · obtain ⟨state, hstep, -⟩ := bind_eq_ok_iff.mp hr
      rw [hstate] at hstep
      rcases n.token_cases with ⟨v, hv, hstring⟩ | hv
      · rw [hv, step_barred hbarred fun _ => hstring] at hstep
        cases hstep
      · rw [hv, step_barred_overflow hbarred] at hstep
        cases hstep
    · cases hr
  · cases hr
    rfl

theorem Stuck.consume (h : r.Stuck) (hr : r.consume b = .ok r') : r'.Stuck := by
  obtain ⟨m, hm, -, hadvance⟩ := consume_iff.mp hr
  obtain rfl := h.settle hm
  obtain ⟨stack, mode, hstate, hbarred⟩ := h.state
  unfold advance at hadvance
  rcases next_of_begun h.lexer h.spells b with ⟨l, hl, hne, hmute⟩ | ⟨v, hv, hmute⟩ | hinvalid
  · rw [hl] at hadvance
    cases hadvance
    exact ⟨⟨stack, mode, hstate, hbarred.mono hmute⟩, hne, spells_next h.spells hl⟩
  · rw [hv, hstate] at hadvance
    obtain ⟨state, hstep, -⟩ := bind_eq_ok_iff.mp hadvance
    rw [step_barred hbarred hmute] at hstep
    cases hstep
  · simp [hinvalid] at hadvance

theorem Stuck.feed (h : r.Stuck) (hr : r.feed s = .ok r') : r'.Stuck := by
  induction s generalizing r with
  | nil => cases hr; exact h
  | cons b s ih =>
    obtain ⟨m, hm, hrest⟩ := feed_cons_iff.mp hr
    exact ih (h.consume hm) hrest

theorem Stuck.read (h : r.Stuck) {t : List UInt8} : r.read s ≠ .ok (v, t) := by
  intro hread
  obtain ⟨front, m, -, hfeed, n, hn, hdone⟩ := read_cases hread
  have hm := h.feed hfeed
  obtain rfl := hm.settle hn
  obtain ⟨stack, mode, hstate, -⟩ := hm.state
  rw [hdone] at hstate
  cases hstate

end

section
variable {stack : List Frame} {mode : Mode} {b : UInt8} {s : List UInt8}

def atToken (stack : List Frame) (mode : Mode) : Reader := { state := .reading stack mode }

theorem consume_atToken (stack : List Frame) (mode : Mode) (b : UInt8) :
    (atToken stack mode).consume b = (atToken stack mode).advance b := rfl

theorem consume_whitespace (hb : isWhitespace b = true) :
    (atToken stack mode).consume b = .ok (atToken stack mode) := by
  rw [consume_atToken, advance]
  simp [atToken, Lexer.next, hb]

theorem feed_whitespace (hs : ∀ b ∈ s, isWhitespace b = true) :
    (atToken stack mode).feed s = .ok (atToken stack mode) := by
  induction s with
  | nil => rfl
  | cons b s ih =>
    exact feed_cons_iff.mpr ⟨_, consume_whitespace (hs b (by simp)),
      ih fun c hc => hs c (by simp [hc])⟩

theorem feed_separator {members : List (String × Json)} {key : String} {r : Reader}
    (h : (atToken (.object members key :: stack) .separator).feed s = .ok r)
    (hs : ∀ b ∈ s, b ≠ 0x2C ∧ b ≠ 0x7D) :
    ((∀ b ∈ s, isWhitespace b = true) ∧ r = atToken (.object members key :: stack) .separator) ∨
      r.Stuck := by
  induction s with
  | nil =>
    cases h
    exact .inl ⟨by simp, rfl⟩
  | cons b s ih =>
    have hb := hs b (by simp)
    obtain ⟨m, hm, hrest⟩ := feed_cons_iff.mp h
    by_cases hspace : isWhitespace b = true
    · rw [consume_whitespace hspace] at hm
      cases hm
      rcases ih hrest fun c hc => hs c (by simp [hc]) with ⟨hall, hr⟩ | hstuck
      · exact .inl ⟨by simpa [hspace] using hall, hr⟩
      · exact .inr hstuck
    · refine .inr (Stuck.feed ?_ hrest)
      have hscan : (b = 0x2C || b = 0x7D || (scan b).fits) = true :=
        ByteString.byte_forall (p := fun b => b = 0x2C || b = 0x7D || (scan b).fits)
          (by decide +kernel) b
      simp only [hb, decide_false, Bool.false_or] at hscan
      rw [consume_atToken, advance, atToken] at hm
      simp only [Lexer.next, hspace, Bool.false_eq_true, if_false] at hm
      split at hm
      · next l hl =>
        cases hm
        refine ⟨⟨_, _, rfl, trivial⟩, ?_, spells_scan hl⟩
        rintro rfl
        simp [hl, Scanned.fits] at hscan
      · next t ht =>
        rw [ht] at hscan
        cases t <;> simp [State.step, Scanned.fits, bind, Except.bind] at hm hscan
      · cases hm

end

structure KeyText (text : List UInt8) (name : String) : Prop where
  shape : ∃ c rest, text = 0x22 :: c :: rest ∧ isWhitespace c = false ∧ scan c = .invalid
  key : ∀ members key stack, (atToken (.object members key :: stack) .key).feed text =
    .ok (atToken (.object members name :: stack) .value)
  array : ∀ elements stack, (atToken (.array elements :: stack) .value).feed text =
    .error .syntaxError

section
variable {r R : Reader} {c : UInt8} {s w text : List UInt8} {name : String}

theorem scanString_ascii {state state' : StringState} {read : List Char} (hc : c = 0x2C ∨ c = 0x22)
    (h : scanString state c = some (state', read)) :
    state' = .plain ∨ ∃ missing code, state' = .continuation missing 0x80 0xBF code := by
  cases state with
  | plain =>
    rcases hc with rfl | rfl <;> cases h <;> exact .inl rfl
  | escape =>
    rcases hc with rfl | rfl <;> cases h
    exact .inl rfl
  | continuation missing low high code =>
    simp only [scanString] at h
    split at h
    · split at h
      · cases h
        exact .inl rfl
      · cases h
        exact .inr ⟨_, _, rfl⟩
    · cases h
  | _ => rcases hc with rfl | rfl <;> cases h

theorem scanNumber_ne_more (hc : Terminates c) (state state' : NumberState) (n n' : Numeral) :
    scanNumber state n (some c) ≠ .more state' n' := by
  obtain ⟨hdigit, hne⟩ := hc
  simp only [List.mem_cons, List.not_mem_nil, or_false, not_or] at hne
  cases state <;> simp [scanNumber, hdigit, hne]

theorem next_number (hc : Terminates c) (state : NumberState) (n : Numeral) :
    (Lexer.number state n).next c = .invalid := by
  simp only [Lexer.next]
  split
  · next hmore => exact absurd hmore (scanNumber_ne_more hc _ _ _ _)
  · rfl

theorem next_literal {expected : List UInt8} (hc : c ∉ expected) (v : Json) :
    (Lexer.literal expected v).next c = .invalid := by
  cases expected with
  | nil => rfl
  | cons b rest =>
    simp only [List.mem_cons, not_or] at hc
    cases rest <;> simp [Lexer.next, hc.1]

theorem next_comma {l : Lexer} (hl : l.Spells) (hne : l ≠ .between) :
    (∃ chars, l.next 0x2C = .lexer (.string .plain chars)) ∨
      (∃ chars missing code,
        l.next 0x2C = .lexer (.string (.continuation missing 0x80 0xBF code) chars)) ∨
      l.next 0x2C = .invalid := by
  cases l with
  | between => exact absurd rfl hne
  | literal expected v => exact .inr (.inr (next_literal (hl expected v rfl).1 v))
  | number state n => exact .inr (.inr (next_number (by decide) state n))
  | string state chars =>
    simp only [Lexer.next]
    rw [if_neg (by simp)]
    split
    · next state' read hread =>
      rcases scanString_ascii (.inl rfl) hread with rfl | ⟨missing, code, rfl⟩
      · exact .inl ⟨_, rfl⟩
      · exact .inr (.inl ⟨_, _, _, rfl⟩)
    · exact .inr (.inr rfl)

theorem advance_comma_begun {m : Reader} (hlexer : m.lexer.Spells) (hne : m.lexer ≠ .between)
    (hspace : isWhitespace c = false) (hc : scan c = .invalid) (hadvance : m.advance 0x2C = .ok r) :
    r.feed (0x22 :: c :: w) ≠ .ok R := by
  intro h
  obtain ⟨r₂, hquote, h⟩ := feed_cons_iff.mp h
  obtain ⟨r₃, hlast, -⟩ := feed_cons_iff.mp h
  unfold advance at hadvance
  rcases next_comma hlexer hne with ⟨chars, hnext⟩ | ⟨chars, missing, code, hnext⟩ | hnext
  · simp only [hnext] at hadvance
    cases hadvance
    obtain ⟨n, hn, -, hquote⟩ := consume_iff.mp hquote
    cases hn
    obtain ⟨state, -, heq⟩ := bind_eq_ok_iff.mp hquote
    cases heq
    obtain ⟨n, hn, -, hlast⟩ := consume_iff.mp hlast
    cases hn
    simp [advance, Lexer.next, hspace, hc] at hlast
  · simp only [hnext] at hadvance
    cases hadvance
    obtain ⟨n, hn, -, hquote⟩ := consume_iff.mp hquote
    cases hn
    cases hquote
  · simp only [hnext] at hadvance
    cases hadvance

theorem feed_comma (hr : r.Valid) (hspace : isWhitespace c = false) (hc : scan c = .invalid)
    (h : r.feed (0x2C :: 0x22 :: c :: w) = .ok R) :
    (∃ members key stack,
        r.settle (some 0x2C) = .ok (atToken (.object members key :: stack) .separator) ∧
        (atToken (.object members key :: stack) .key).feed (0x22 :: c :: w) = .ok R) ∨
      ∃ elements stack, (atToken (.array elements :: stack) .value).feed (0x22 :: c :: w) = .ok R := by
  obtain ⟨r₁, hcomma, h⟩ := feed_cons_iff.mp h
  obtain ⟨m, hm, ⟨stack, mode, hstate⟩, hadvance⟩ := consume_iff.mp hcomma
  have hvalid := valid_settle hr hm
  have hlexer : m.lexer = .between := by
    by_contra hne
    exact advance_comma_begun hvalid.lexer hne hspace hc hadvance h
  obtain ⟨state, lexer⟩ := m
  obtain rfl : state = .reading stack mode := hstate
  obtain rfl : lexer = .between := hlexer
  have hnext : Lexer.between.next 0x2C = .token .valueSeparator := rfl
  unfold advance at hadvance
  simp only [hnext] at hadvance
  obtain ⟨state, hstep, heq⟩ := bind_eq_ok_iff.mp hadvance
  cases heq
  cases mode with
  | separator =>
    cases stack with
    | nil => cases hstep
    | cons frame stack =>
      cases frame with
      | array elements =>
        cases hstep
        exact .inr ⟨elements, stack, h⟩
      | object members key =>
        cases hstep
        exact .inl ⟨members, key, stack, hm, h⟩
  | _ => cases stack <;> cases hstep

theorem feed_key (ht : KeyText text name) (hr : r.Valid) (h : r.feed (0x2C :: text ++ w) = .ok R) :
    ∃ members key stack,
      r.settle (some 0x2C) = .ok (atToken (.object members key :: stack) .separator) ∧
      (atToken (.object members name :: stack) .value).feed w = .ok R := by
  obtain ⟨c, rest, htext, hspace, hc⟩ := ht.shape
  have htext' : text ++ w = 0x22 :: c :: (rest ++ w) := by rw [htext]; rfl
  rw [List.cons_append, htext'] at h
  rcases feed_comma hr hspace hc h with ⟨members, key, stack, hsettle, hfeed⟩ | ⟨es, stack, hfeed⟩
  · rw [← htext', feed_append_of_ok (ht.key members key stack)] at hfeed
    exact ⟨members, key, stack, hsettle, hfeed⟩
  · rw [← htext', feed_append, ht.array] at hfeed
    cases hfeed

end

end Reader

def Reads (s : List UInt8) (v : Json) : Prop :=
  ∃ rest, ({} : Reader).read s = .ok (v, rest) ∧ ∀ b ∈ rest, isWhitespace b = true

theorem Reads.unique {s : List UInt8} {v w : Json} (hv : Reads s v) (hw : Reads s w) : v = w := by
  obtain ⟨rest, hread, -⟩ := hv
  obtain ⟨rest', hread', -⟩ := hw
  rw [hread] at hread'
  cases hread'
  rfl

namespace Reader

section
variable {R : Reader} {s w text : List UInt8} {name : String} {members : List (String × Json)}
  {key : String} {stack base : List Frame} {v : Json} {c : UInt8}

theorem valid_atToken (frame : Frame) (stack : List Frame) (mode : Mode) :
    (atToken (frame :: stack) mode).Valid :=
  ⟨trivial, by rintro _ ⟨⟩, by rintro _ _ ⟨⟩⟩

theorem feed_value (hs : Reads s v) (hbase : base ≠ []) (hc : Terminates c) (w : List UInt8) :
    (atToken base .value).feed (s ++ c :: w) = (resume base v).feed (c :: w) := by
  obtain ⟨rest, hread, hrest⟩ := hs
  obtain ⟨frame, base, rfl⟩ := List.exists_cons_of_ne_nil hbase
  have hresume : ∃ stack mode, resume (frame :: base) v = atToken stack mode := by
    cases frame <;> exact ⟨_, _, rfl⟩
  obtain ⟨stack, mode, hresume⟩ := hresume
  have hspace : (resume (frame :: base) v).feed (rest ++ c :: w) =
      (resume (frame :: base) v).feed (c :: w) := by
    rw [hresume, feed_append_of_ok (feed_whitespace hrest)]
  exact (feed_resume (frame :: base) valid_start hread hc w).trans hspace

theorem feed_spliced (ht : KeyText text name) (hs : ∀ b ∈ s, b ≠ 0x2C ∧ b ≠ 0x7D)
    (h : (atToken (.object members key :: stack) .value).feed (s ++ (0x2C :: text ++ w)) = .ok R) :
    (∃ v, Reads s v ∧
        (atToken (.object (setMember members key v) name :: stack) .value).feed w = .ok R) ∨
      ∃ members stack, stack ≠ [] ∧
        (atToken (.object members name :: stack) .value).feed w = .ok R := by
  obtain ⟨m, hm, hrun⟩ := feed_append_iff.mp h
  rcases feed_embed_cases (.object members key :: stack) valid_start hm with
    ⟨r, hr, rfl⟩ | ⟨v, t, -, hread, hfeed⟩
  · have hvalid := valid_feed valid_start hr
    obtain ⟨members', key', stack', hsettle, hrest⟩ := feed_key ht (valid_embed (by simp) hvalid) hrun
    rw [settle_embed _ hvalid] at hsettle
    obtain ⟨n, hn, hembed⟩ := map_eq_ok_iff.mp hsettle
    have hn' := valid_settle hvalid hn
    obtain ⟨state, lexer⟩ := n
    cases state with
    | done v =>
      cases hembed
      refine .inl ⟨v, ⟨[], ?_, by simp⟩, hrest⟩
      rw [settle_of_terminates (by decide)] at hn
      rw [← List.append_nil s, read_append hr, read_nil, finish_iff.mpr ⟨_, hn, rfl⟩]
      rfl
    | reading open_ mode =>
      cases open_ with
      | nil =>
        obtain rfl : mode = .value := hn'.state
        cases hembed
      | cons frame open_ =>
        cases hembed
        exact .inr ⟨_, _, by simp, hrest⟩
  · obtain ⟨front, -, rfl, -⟩ := read_cases hread
    have hvalid := valid_feed (valid_atToken _ _ _) hfeed
    obtain ⟨members', key', stack', hsettle, hrest⟩ := feed_key ht hvalid hrun
    rcases feed_separator hfeed fun b hb => hs b (by simp [hb]) with ⟨hspace, rfl⟩ | hstuck
    · cases hsettle
      exact .inl ⟨v, ⟨t, hread, hspace⟩, hrest⟩
    · refine absurd ?_ hstuck.lexer
      rw [← hstuck.settle hsettle]
      rfl

end

end Reader

end Json
