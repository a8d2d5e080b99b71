import PlatformHealth.Library.Json.Splice

namespace Json

open Yields (bind_eq_ok_iff)

def isScalar : Json → Bool
  | .array _ | .object _ => false
  | _ => true

def State.Compound : State → Prop
  | .reading stack _ => stack ≠ []
  | .done v => v.isScalar = false

theorem compound_deliver {v : Json} (hv : v.isScalar = false) (stack : List Frame) :
    (deliver v stack).Compound := by
  cases stack with
  | nil => exact hv
  | cons frame stack => cases frame <;> exact List.cons_ne_nil _ _

theorem compound_deliver_cons (v : Json) (frame : Frame) (stack : List Frame) :
    (deliver v (frame :: stack)).Compound := by
  cases frame <;> exact List.cons_ne_nil _ _

theorem State.Compound.step {st st' : State} {t : Token} (h : st.Compound)
    (hstep : st.step t = .ok st') : st'.Compound := by
  unfold State.step at hstep
  split at hstep
  · cases hstep
  · next stack mode =>
    obtain ⟨frame, stack, rfl⟩ := List.exists_cons_of_ne_nil h
    split at hstep <;> cases hstep <;>
      first | exact List.cons_ne_nil _ _ | exact compound_deliver_cons _ _ _ | exact compound_deliver rfl _

namespace Reader

section
variable {r r' : Reader} {b : UInt8} {s : List UInt8}

theorem compound_settle (h : r.state.Compound) {b : Option UInt8} (hr : r.settle b = .ok r') :
    r'.state.Compound := by
  unfold settle at hr
  split at hr
  · split at hr
    · cases hr
      exact h
    · obtain ⟨state, hstep, heq⟩ := bind_eq_ok_iff.mp hr
      cases heq
      exact h.step hstep
    · cases hr
  · cases hr
    exact h

theorem compound_advance (h : r.state.Compound) (hr : r.advance b = .ok r') :
    r'.state.Compound := by
  unfold advance at hr
  split at hr
  · cases hr
    exact h
  · obtain ⟨state, hstep, heq⟩ := bind_eq_ok_iff.mp hr
    cases heq
    exact h.step hstep
  · cases hr

theorem compound_consume (h : r.state.Compound) (hr : r.consume b = .ok r') :
    r'.state.Compound := by
  obtain ⟨m, hm, -, hadvance⟩ := consume_iff.mp hr
  exact compound_advance (compound_settle h hm) hadvance

theorem compound_feed (h : r.state.Compound) (hr : r.feed s = .ok r') : r'.state.Compound := by
  induction s generalizing r with
  | nil => cases hr; exact h
  | cons b s ih =>
    obtain ⟨m, hm, hrest⟩ := feed_cons_iff.mp hr
    exact ih (compound_consume h hm) hrest

end

end Reader

theorem eq_nil_of_comma_quote {u w rest : List UInt8} {v : Json} (hv : v.isScalar = true)
    (h : ({} : Reader).read ((u ++ 0x2C :: 0x22 :: w) ++ rest) = .ok (v, rest)) : w = [] := by
  obtain ⟨front, m, hfront, hfeed, n, hn, hdone⟩ := Reader.read_cases h
  obtain rfl := List.append_cancel_right hfront
  have hscalar : ¬ m.state.Compound := by
    intro hm
    have hcompound := Reader.compound_settle hm hn
    rw [hdone] at hcompound
    exact Bool.false_ne_true (hcompound.symm.trans hv)
  obtain ⟨r₁, hu, hcut⟩ := Reader.feed_append_iff.mp hfeed
  obtain ⟨r₂, hcomma, hcut⟩ := Reader.feed_cons_iff.mp hcut
  obtain ⟨r₃, hquote, hw⟩ := Reader.feed_cons_iff.mp hcut
  obtain ⟨n₁, hn₁, ⟨stack, mode, hstate⟩, hadvance⟩ := Reader.consume_iff.mp hcomma
  have hvalid := Reader.valid_settle (Reader.valid_feed Reader.valid_start hu) hn₁
  obtain ⟨state, lexer⟩ := n₁
  obtain rfl : state = .reading stack mode := hstate
  obtain rfl : stack = [] := by
    by_contra hne
    have hopen : State.Compound (.reading stack mode) := hne
    have hr₂ : r₂.state.Compound := Reader.compound_advance hopen hadvance
    exact hscalar (Reader.compound_feed (Reader.compound_consume hr₂ hquote) hw)
  obtain rfl : mode = .value := hvalid.state
  unfold Reader.advance at hadvance
  by_cases hlexer : lexer = .between
  · subst hlexer
    cases hadvance
  · rcases Reader.next_comma hvalid.lexer hlexer with ⟨chars, hnext⟩ | ⟨chars, missing, code, hnext⟩ | hnext
    · simp only [hnext] at hadvance
      cases hadvance
      cases hquote
      cases w with
      | nil => rfl
      | cons b w =>
        obtain ⟨_, hb, -⟩ := Reader.feed_cons_iff.mp hw
        obtain ⟨_, hsettle, ⟨_, _, hreading⟩, -⟩ := Reader.consume_iff.mp hb
        cases hsettle
        cases hreading
    · simp only [hnext] at hadvance
      cases hadvance
      cases hquote
    · simp only [hnext] at hadvance
      cases hadvance

end Json
