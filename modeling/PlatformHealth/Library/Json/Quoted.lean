import PlatformHealth.Library.Json.Splice

namespace Json

open Yields (bind_eq_ok_iff)

-- what the text leaves the reader of a string in, none where it closes the string or breaks it
def inside (state : StringState) (s : List UInt8) : Option StringState :=
  s.foldlM
    (fun state b =>
      if state = .plain ∧ b = 0x22 then none else (scanString state b).map Prod.fst) state

def Quotable (s : List UInt8) : Prop := inside .plain s = some .plain

instance : DecidablePred Quotable := fun s =>
  inferInstanceAs (Decidable (inside .plain s = some .plain))

theorem inside_append (state : StringState) (s t : List UInt8) :
    inside state (s ++ t) = (inside state s).bind (inside · t) := List.foldlM_append

theorem quotable_append {s : List UInt8} (hs : Quotable s) (t : List UInt8) :
    Quotable (s ++ t) ↔ Quotable t := by
  rw [Quotable, inside_append, hs]
  rfl

def Scanned.mute : Scanned → Bool
  | .lexer (.string _ _) => false
  | _ => true

namespace Reader

def inString (stack : List Frame) (mode : Mode) (state : StringState) (chars : List Char) : Reader :=
  { state := .reading stack mode, lexer := .string state chars }

section
variable {R : Reader} {stack : List Frame} {mode : Mode} {state state' : StringState}
  {chars : List Char} {s w : List UInt8} {b c : UInt8} {v : Json}

theorem consume_inString (h : ¬ (state = .plain ∧ b = 0x22)) :
    (inString stack mode state chars).consume b =
      match scanString state b with
      | some (state, read) => .ok (inString stack mode state (chars ++ read))
      | none => .error .syntaxError := by
  change (inString stack mode state chars).advance b = _
  rw [advance, inString]
  simp only [Lexer.next, if_neg h]
  cases scanString state b <;> rfl

theorem feed_inside (stack : List Frame) (mode : Mode) (chars : List Char)
    (h : inside state s = some state') :
    ∃ chars', (inString stack mode state chars).feed s = .ok (inString stack mode state' chars') := by
  induction s generalizing state chars with
  | nil =>
    cases h
    exact ⟨chars, rfl⟩
  | cons b s ih =>
    rw [inside, List.foldlM_cons] at h
    split at h
    · cases h
    · next hopen =>
      cases hscan : scanString state b with
      | none =>
        rw [hscan] at h
        cases h
      | some p =>
        rw [hscan] at h
        obtain ⟨chars', hfeed⟩ := ih (chars ++ p.2) h
        refine ⟨chars', feed_cons_iff.mpr ⟨_, ?_, hfeed⟩⟩
        rw [consume_inString hopen, hscan]

theorem inside_of_feed (hs : 0x22 ∉ s) (h : (inString stack mode state chars).feed s = .ok R) :
    ∃ state' chars', inside state s = some state' ∧ R = inString stack mode state' chars' := by
  induction s generalizing state chars with
  | nil =>
    cases h
    exact ⟨state, chars, rfl, rfl⟩
  | cons b s ih =>
    simp only [List.mem_cons, not_or] at hs
    have hopen : ¬ (state = .plain ∧ b = 0x22) := fun hb => hs.1 hb.2.symm
    obtain ⟨m, hm, hrest⟩ := feed_cons_iff.mp h
    rw [consume_inString hopen] at hm
    cases hscan : scanString state b with
    | none => simp [hscan] at hm
    | some p =>
      simp only [hscan] at hm
      cases hm
      obtain ⟨state', chars', hinside, hR⟩ := ih hs.2 hrest
      refine ⟨state', chars', ?_, hR⟩
      rw [inside, List.foldlM_cons, if_neg hopen, hscan]
      exact hinside

theorem finish_inString (stack : List Frame) (mode : Mode) (state : StringState)
    (chars : List Char) (v : Json) : (inString stack mode state chars).finish ≠ .ok v := by
  intro h
  cases h

def ClosesNone (w : List UInt8) : Prop :=
  0x22 ∉ w ∨ ∃ c rest, w = 0x2C :: 0x22 :: c :: rest ∧ isWhitespace c = false ∧ scan c = .invalid

theorem plain_of_finish (hw : ClosesNone w)
    (h : (inString stack mode state chars).feed (0x22 :: w) = .ok R) (hR : R.finish = .ok v) :
    state = .plain := by
  by_contra hne
  obtain ⟨m, hm, hrest⟩ := feed_cons_iff.mp h
  rw [consume_inString fun hclosed => hne hclosed.1] at hm
  cases hscan : scanString state 0x22 with
  | none => simp [hscan] at hm
  | some p =>
    simp only [hscan] at hm
    cases hm
    rcases hw with hw | ⟨c, rest, rfl, hspace, hc⟩
    · obtain ⟨state', chars', -, rfl⟩ := inside_of_feed hw hrest
      exact finish_inString _ _ _ _ _ hR
    · obtain ⟨m, hm, hrest⟩ := feed_cons_iff.mp hrest
      obtain ⟨n, hn, -, hadvance⟩ := consume_iff.mp hm
      cases hn
      exact advance_comma_begun (by rintro _ _ ⟨⟩) (by rintro ⟨⟩) hspace hc hadvance hrest

section
variable {front back : List UInt8}
  (hfront : ({} : Reader).feed front = .ok (inString stack mode .plain chars))
include hfront

theorem quotable_of_feed {base : List Frame} (hs : 0x22 ∉ s) (hw : ClosesNone w)
    (h : (atToken base .value).feed (front ++ (s ++ 0x22 :: w)) = .ok R) (hR : R.finish = .ok v) :
    Quotable s := by
  have hembed : (atToken base .value).feed front =
      .ok (inString (stack ++ base) mode .plain chars) := feed_embed base valid_start hfront
  rw [feed_append_of_ok hembed] at h
  obtain ⟨m, hm, hrest⟩ := feed_append_iff.mp h
  obtain ⟨state', chars', hinside, rfl⟩ := inside_of_feed hs hm
  obtain rfl := plain_of_finish hw hrest hR
  exact hinside

theorem reads_quoted (hs : Quotable s)
    (hback : ∀ chars, ∃ v, (inString stack mode .plain chars).read back = .ok (v, [])) :
    ∃ v, Reads (front ++ (s ++ back)) v := by
  obtain ⟨chars', hfeed⟩ := feed_inside stack mode chars hs
  obtain ⟨v, hv⟩ := hback chars'
  exact ⟨v, [], by rw [read_append hfront, read_append hfeed, hv], by simp⟩

end

theorem feed_quoted (stack : List Frame) (elements : List Json) (hmode : mode = .value ∨ mode = .first)
    (hs : Quotable s) :
    ∃ v, (atToken (.array elements :: stack) mode).feed (0x22 :: (s ++ [0x22])) =
      .ok (atToken (.array (elements ++ [v]) :: stack) .separator) := by
  have hopen : (atToken (.array elements :: stack) mode).consume 0x22 =
      .ok (inString (.array elements :: stack) mode .plain []) := rfl
  obtain ⟨chars', hfeed⟩ := feed_inside (.array elements :: stack) mode [] hs
  refine ⟨.string (String.ofList chars'), ?_⟩
  refine feed_cons_iff.mpr ⟨_, hopen, feed_append_iff.mpr ⟨_, hfeed, ?_⟩⟩
  rcases hmode with rfl | rfl <;> rfl

end

section
variable {r r' R : Reader} {stack : List Frame} {mode : Mode} {state : StringState}
  {chars : List Char} {s w : List UInt8} {b c : UInt8}

theorem mute_next {l l' : Lexer} (hl : l.Mute) (hb : b ≠ 0x22) (h : l.next b = .lexer l') :
    l'.Mute := by
  have hscan : (b = 0x22 || (scan b).mute) = true :=
    ByteString.byte_forall (p := fun b => b = 0x22 || (scan b).mute) (by decide +kernel) b
  simp only [hb, decide_false, Bool.false_or] at hscan
  rintro state chars rfl
  cases l with
  | between =>
    simp only [Lexer.next] at h
    split at h
    · cases h
    · simp [h, Scanned.mute] at hscan
  | literal expected v =>
    simp only [Lexer.next] at h
    split at h
    · cases h
    · split at h <;> cases h
    · split at h <;> cases h
  | number state n =>
    simp only [Lexer.next] at h
    split at h <;> cases h
  | string state chars => exact hl _ _ rfl

theorem mute_settle (h : r.lexer.Mute) {b : Option UInt8} (hr : r.settle b = .ok r') :
    r'.lexer.Mute := by
  unfold settle at hr
  split at hr
  · split at hr
    · cases hr
      exact h
    · obtain ⟨state, -, heq⟩ := bind_eq_ok_iff.mp hr
      cases heq
      exact nofun
    · cases hr
  · cases hr
    exact h

theorem mute_consume (h : r.lexer.Mute) (hb : b ≠ 0x22) (hr : r.consume b = .ok r') :
    r'.lexer.Mute := by
  obtain ⟨m, hm, -, hadvance⟩ := consume_iff.mp hr
  unfold advance at hadvance
  split at hadvance
  · next l hl =>
    cases hadvance
    exact mute_next (mute_settle h hm) hb hl
  · obtain ⟨state, -, heq⟩ := bind_eq_ok_iff.mp hadvance
    cases heq
    exact nofun
  · cases hadvance

theorem mute_feed (h : r.lexer.Mute) (hs : 0x22 ∉ s) (hr : r.feed s = .ok r') : r'.lexer.Mute := by
  induction s generalizing r with
  | nil => cases hr; exact h
  | cons b s ih =>
    simp only [List.mem_cons, not_or] at hs
    obtain ⟨m, hm, hrest⟩ := feed_cons_iff.mp hr
    exact ih (mute_consume h (Ne.symm hs.1) hm) hs.2 hrest

theorem consume_quote (hr : r.Valid) (h : r.lexer.Mute) (hquote : r.consume 0x22 = .ok R) :
    ∃ stack mode, R = inString stack mode .plain [] := by
  obtain ⟨m, hm, ⟨stack, mode, hstate⟩, hadvance⟩ := consume_iff.mp hquote
  have hmute := mute_settle h hm
  have hvalid := valid_settle hr hm
  obtain ⟨state, lexer⟩ := m
  obtain rfl : state = .reading stack mode := hstate
  unfold advance at hadvance
  cases lexer with
  | between =>
    cases hadvance
    exact ⟨stack, mode, rfl⟩
  | literal expected v =>
    rw [next_literal (hvalid.lexer expected v rfl).2.1 v] at hadvance
    cases hadvance
  | number state n =>
    rw [next_number (by decide) state n] at hadvance
    cases hadvance
  | string state chars => exact absurd rfl (hmute state chars)

theorem feed_flipped (hs : 0x22 ∉ s)
    (h : (inString stack mode .plain chars).feed (0x2C :: 0x22 :: (s ++ 0x22 :: w)) = .ok R) :
    ∃ stack mode, (inString stack mode .plain []).feed w = .ok R := by
  obtain ⟨r₁, hcomma, h⟩ := feed_cons_iff.mp h
  obtain ⟨r₂, hclose, h⟩ := feed_cons_iff.mp h
  obtain ⟨r₃, htext, h⟩ := feed_append_iff.mp h
  obtain ⟨r₄, hopen, h⟩ := feed_cons_iff.mp h
  cases hcomma
  obtain ⟨m, hm, -, hadvance⟩ := consume_iff.mp hclose
  cases hm
  obtain ⟨state, hstep, heq⟩ := bind_eq_ok_iff.mp hadvance
  cases heq
  have hvalid : ({ state } : Reader).Valid :=
    ⟨State.valid_step hstep, fun _ _ => rfl, by rintro _ _ ⟨⟩⟩
  have hmute : Lexer.between.Mute := by
    rintro state chars ⟨⟩
  obtain ⟨stack, mode, rfl⟩ :=
    consume_quote (valid_feed hvalid htext) (mute_feed hmute hs htext) hopen
  exact ⟨stack, mode, h⟩

theorem feed_escaped (hne : state ≠ .plain) (hc : c < 0x80)
    (h : (inString stack mode state chars).feed (0x22 :: c :: w) = .ok R) :
    ∃ chars', (inString stack mode .plain chars').feed (c :: w) = .ok R := by
  obtain ⟨r₁, hquote, hrest⟩ := feed_cons_iff.mp h
  rw [consume_inString fun hclosed => hne hclosed.1] at hquote
  cases hscan : scanString state 0x22 with
  | none => simp [hscan] at hquote
  | some p =>
    simp only [hscan] at hquote
    cases hquote
    rcases scanString_ascii (.inr rfl) hscan with hplain | ⟨missing, code, hcontinued⟩
    · rw [hplain] at hrest
      exact ⟨_, hrest⟩
    · obtain ⟨r₂, hc', -⟩ := feed_cons_iff.mp hrest
      have hlow : between 0x80 0xBF c = false := by
        rw [between, decide_eq_false (UInt8.not_le.mpr hc), Bool.false_and]
      rw [hcontinued, consume_inString (by simp)] at hc'
      simp [scanString, hlow] at hc'

end

end Reader

end Json
