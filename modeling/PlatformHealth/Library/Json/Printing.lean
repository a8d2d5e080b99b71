import PlatformHealth.Library.Json.Numerals
import PlatformHealth.Library.Json.Sorted
import Mathlib.Algebra.Order.AbsoluteValue.Basic

namespace Json

open Decimal (isDigit value)
open Yields (bind_eq_ok_iff map_eq_ok_iff)
open Reader (atToken inNumber resume)

-- what is documented of grisu2() at a positive double
structure Shortest (grisu2 : Grisu2) (q : ℚ) : Prop where
  significant : Significant (grisu2 q).1
  exponent : (((grisu2 q).1.length : Int) + (grisu2 q).2 - 1).natAbs < 1000
  recovers : Binary64.round (value (grisu2 q).1 * 10 ^ (grisu2 q).2) = some q

section
variable (grisu2 : Grisu2)

mutual

-- members by ascending key, and no double that grisu2() gets wrong
def Printable : Json → Prop
  | .float q => q = 0 ∨ Shortest grisu2 |q|
  | .array elements => PrintableElements elements
  | .object members => (members.Pairwise fun m n => m.1 < n.1) ∧ PrintableMembers members
  | _ => True

def PrintableElements : List Json → Prop
  | [] => True
  | v :: rest => Printable v ∧ PrintableElements rest

def PrintableMembers : List (String × Json) → Prop
  | [] => True
  | m :: rest => PrintableMember m ∧ PrintableMembers rest

def PrintableMember : String × Json → Prop
  | (_, v) => Printable v

end

end

def settledScalar : Json → Json
  | .integer n => if 0 ≤ n.toInt then .unsigned (UInt64.ofNat n.toInt.toNat) else .integer n
  | v => v

-- a number without a sign is read back as an unsigned one
def settled (v : Json) : Json := v.mapScalars settledScalar

theorem settled_integer (n : Int64) : (Json.integer n).settled =
    if 0 ≤ n.toInt then .unsigned (UInt64.ofNat n.toInt.toNat) else .integer n := rfl

section
variable {grisu2 : Grisu2} {text s : List UInt8} {state : NumberState} {n : Numeral} {v : Json} {q : ℚ}

theorem reads_number (hfeed : ({} : Reader).feed text = .ok (inNumber [] .value state n))
    (hdone : scanNumber state n none = .done) (hv : n.token = .value v) : Reads text v := by
  refine ⟨[], ?_, by simp⟩
  have hread : (inNumber [] .value state n).read [] = .ok (v, []) := by
    simp [Reader.read, Reader.settle, inNumber, hdone, hv, State.step, deliver, bind, Except.bind, pure, Except.pure]
  rw [← List.append_nil text, Reader.read_append hfeed, hread]

theorem round_neg {m : ℚ} (hm : 0 ≤ m) : Binary64.round (-m) = (Binary64.round m).map (- ·) := by
  rcases hm.eq_or_lt with rfl | hpos
  · simp [Binary64.round, Binary64.roundAbs]
  · rw [Binary64.round, Binary64.round, if_pos (by simpa using hpos), if_neg hm.not_gt, neg_neg]

theorem reads_double {negative : Bool} {r : ℚ} (h : Reader.ReadsDouble text negative q)
    (hround : Binary64.round (if negative then -q else q) = some r) : Reads text (.float r) := by
  obtain ⟨state, n, hfeed, hdone, hfloat, hneg, hmag⟩ := h.feed [] .value
  refine reads_number hfeed hdone ?_
  rw [Numeral.token, if_pos hfloat, Numeral.floatToken, hneg, hmag, hround]

theorem reads_toChars (h : q = 0 ∨ Shortest grisu2 |q|) : Reads (toChars grisu2 q) (.float q) := by
  unfold toChars
  split_ifs with hzero hneg
  · subst hzero
    exact ⟨[], by decide +kernel, by simp⟩
  · have hs := h.resolve_left hzero
    rw [abs_of_neg hneg] at hs
    refine reads_double (readsDouble_formatBuffer true hs.significant hs.exponent) ?_
    rw [if_pos rfl, round_neg (mul_nonneg (Nat.cast_nonneg _) (zpow_nonneg (by norm_num) _)), hs.recovers]
    simp
  · have hs := h.resolve_left hzero
    rw [abs_of_nonneg (not_lt.mp hneg)] at hs
    exact reads_double (readsDouble_formatBuffer false hs.significant hs.exponent) hs.recovers

theorem head_print {m : Nat} (hm : m ≠ 0) : (Decimal.print m).head? ≠ some 0x30 := by
  induction m using Nat.strong_induction_on with
  | _ m ih =>
    by_cases hlt : m < 10
    · have hall : ∀ d < 10, d ≠ 0 → [UInt8.ofNat (0x30 + d)].head? ≠ some 0x30 := by decide
      rw [print_of_lt hlt]
      exact hall m hlt hm
    · rw [print_of_base_le (by omega), List.head?_append_of_ne_nil _ (Decimal.print_ne_nil _)]
      exact ih (m / 10) (by omega) (by omega)

theorem integral_print (m : Nat) : Integral (Decimal.print m) where
  digits _ hb := Decimal.isDigit_of_mem_print hb
  ne_nil := Decimal.print_ne_nil m
  lead := by
    by_cases hm : m = 0
    · subst hm
      exact .inl rfl
    · exact .inr (head_print hm)

theorem reads_dumpInteger {z : Int} (hv : (Numeral.token { negative := z < 0, mantissa := z.natAbs }) = .value v) :
    Reads (dumpInteger z) v := by
  have htext : Decimal.printInt z = signText (decide (z < 0)) ++ Decimal.print z.natAbs := by
    by_cases hz : z < 0 <;> simp [Decimal.printInt, signText, hz]
  obtain ⟨state, hstate, hfeed⟩ := Reader.feed_integral [] .value (decide (z < 0)) (integral_print z.natAbs)
  rw [Decimal.value_print, ← htext, ← dumpInteger_eq_printInt] at hfeed
  exact reads_number hfeed (by rcases hstate with rfl | rfl <;> rfl) hv

theorem reads_unsigned (m : UInt64) : Reads (dumpInteger m.toNat) (.unsigned m) := by
  have hneg : ¬ (m.toNat : Int) < 0 := by omega
  refine reads_dumpInteger ?_
  simp [Numeral.token, hneg, m.toNat_lt]

theorem reads_integer (m : Int64) : Reads (dumpInteger m.toInt) (Json.integer m).settled := by
  have hlow : -2 ^ 63 ≤ m.toInt := m.le_toInt
  have hhigh : m.toInt < 2 ^ 63 := m.toInt_lt
  refine reads_dumpInteger ?_
  by_cases hneg : m.toInt < 0
  · have hfits : m.toInt.natAbs ≤ 2 ^ 63 := by omega
    have habs : -(m.toInt.natAbs : Int) = m.toInt := by omega
    have hpos : ¬ 0 ≤ m.toInt := by omega
    simp only [Numeral.token, settled_integer, hneg, hfits, hpos, habs, decide_true, if_true, if_false,
      Bool.false_eq_true, Int64.ofInt_toInt]
  · have hfits : m.toInt.natAbs < 2 ^ 64 := by omega
    have habs : m.toInt.natAbs = m.toInt.toNat := by omega
    have hpos : 0 ≤ m.toInt := by omega
    rw [habs] at hfits ⊢
    simp only [Numeral.token, settled_integer, hneg, hfits, hpos, decide_false, if_true, if_false, Bool.false_eq_true]

namespace Reader

theorem step_first {stack : List Frame} {t : Token} {st : State} (h : (State.reading stack .value).step t = .ok st) :
    (State.reading stack .first).step t = .ok st := by
  cases t <;> first | exact h | cases h

theorem settle_first {stack : List Frame} {l : Lexer} {b : Option UInt8} {k : Reader}
    (h : ({ state := .reading stack .value, lexer := l } : Reader).settle b = .ok k) :
    ({ state := .reading stack .first, lexer := l } : Reader).settle b = .ok k ∨
      k = { state := .reading stack .value, lexer := l } ∧
        ({ state := .reading stack .first, lexer := l } : Reader).settle b =
          .ok { state := .reading stack .first, lexer := l } := by
  cases l with
  | number state n =>
    simp only [settle] at h ⊢
    cases hscan : scanNumber state n b with
    | more next m =>
      rw [hscan] at h
      cases h
      exact .inr ⟨rfl, rfl⟩
    | done =>
      rw [hscan] at h
      obtain ⟨st, hst, heq⟩ := bind_eq_ok_iff.mp h
      cases heq
      refine .inl ?_
      rw [step_first hst]
      rfl
    | invalid =>
      rw [hscan] at h
      cases h
  | _ =>
    cases h
    exact .inr ⟨rfl, rfl⟩

theorem consume_first {stack : List Frame} {l : Lexer} {b : UInt8} {m : Reader}
    (h : ({ state := .reading stack .value, lexer := l } : Reader).consume b = .ok m) :
    ({ state := .reading stack .first, lexer := l } : Reader).consume b = .ok m ∨
      ∃ next, m = { state := .reading stack .value, lexer := next } ∧
        ({ state := .reading stack .first, lexer := l } : Reader).consume b =
          .ok { state := .reading stack .first, lexer := next } := by
  obtain ⟨k, hk, hreading, hadvance⟩ := consume_iff.mp h
  rcases settle_first hk with hfirst | ⟨rfl, hfirst⟩
  · exact .inl (consume_iff.mpr ⟨k, hfirst, hreading, hadvance⟩)
  · unfold advance at hadvance
    dsimp only at hadvance
    cases hnext : l.next b with
    | lexer next =>
      rw [hnext] at hadvance
      cases hadvance
      refine .inr ⟨next, rfl, consume_iff.mpr ⟨_, hfirst, ⟨_, _, rfl⟩, ?_⟩⟩
      simp [advance, hnext]
    | token t =>
      rw [hnext] at hadvance
      obtain ⟨st, hst, heq⟩ := bind_eq_ok_iff.mp hadvance
      cases heq
      refine .inl (consume_iff.mpr ⟨_, hfirst, ⟨_, _, rfl⟩, ?_⟩)
      simp [advance, hnext, step_first hst, bind, Except.bind, pure, Except.pure]
    | invalid =>
      rw [hnext] at hadvance
      cases hadvance

theorem feed_first {stack : List Frame} {l : Lexer} {s : List UInt8} {r : Reader}
    (h : ({ state := .reading stack .value, lexer := l } : Reader).feed s = .ok r)
    (hr : ∀ next, r ≠ { state := .reading stack .value, lexer := next }) :
    ({ state := .reading stack .first, lexer := l } : Reader).feed s = .ok r := by
  induction s generalizing l with
  | nil =>
    cases h
    exact absurd rfl (hr l)
  | cons b s ih =>
    obtain ⟨m, hm, hrest⟩ := feed_cons_iff.mp h
    rcases consume_first hm with hfirst | ⟨next, rfl, hfirst⟩
    · exact feed_cons_iff.mpr ⟨m, hfirst, hrest⟩
    · exact feed_cons_iff.mpr ⟨_, hfirst, ih hrest⟩

end Reader

theorem reads_of_feed (h : ({} : Reader).feed text = .ok { state := .done v }) : Reads text v := by
  refine ⟨[], ?_, by simp⟩
  rw [← List.append_nil text, Reader.read_append h]
  rfl

section
variable {elements : List Json} {members entries : List (String × Json)} {stack : List Frame} {mode : Mode}
  {key name : String}

theorem feed_element (hs : Reads text v) (w : List UInt8) :
    (atToken (.array elements :: stack) .value).feed (text ++ 0x2C :: w) =
      (atToken (.array (elements ++ [v]) :: stack) .value).feed w := by
  rw [Reader.feed_value hs (by simp) (by decide)]
  rfl

theorem feed_last (hs : Reads text v) (w : List UInt8) :
    (atToken (.array elements :: stack) .value).feed (text ++ 0x5D :: w) =
      ({ state := deliver (.array (elements ++ [v])) stack } : Reader).feed w := by
  rw [Reader.feed_value hs (by simp) (by decide)]
  rfl

theorem feed_key_colon (hmode : mode = .key ∨ mode = .firstKey) (w : List UInt8) :
    (atToken (.object entries name :: stack) mode).feed (quote key ++ 0x3A :: w) =
      (atToken (.object entries key :: stack) .value).feed w := by
  rw [Reader.feed_append, Reader.feed_quote]
  rcases hmode with rfl | rfl <;> rfl

theorem feed_member (hs : Reads text v) (hmode : mode = .key ∨ mode = .firstKey) (w : List UInt8) :
    (atToken (.object entries name :: stack) mode).feed (quote key ++ 0x3A :: text ++ 0x2C :: w) =
      (atToken (.object (setMember entries key v) "" :: stack) .key).feed w := by
  rw [List.append_assoc, List.cons_append, feed_key_colon hmode, Reader.feed_value hs (by simp) (by decide)]
  rfl

theorem feed_lastMember (hs : Reads text v) (hmode : mode = .key ∨ mode = .firstKey) (w : List UInt8) :
    (atToken (.object entries name :: stack) mode).feed (quote key ++ 0x3A :: text ++ 0x7D :: w) =
      ({ state := deliver (.object (setMember entries key v)) stack } : Reader).feed w := by
  rw [List.append_assoc, List.cons_append, feed_key_colon hmode, Reader.feed_value hs (by simp) (by decide)]
  rfl

end

theorem setMembers_settled {members : List (String × Json)} (h : members.Pairwise fun m n => m.1 < n.1) :
    setMembers [] (mapMembers settledScalar members) = mapMembers settledScalar members := by
  refine setMembers_of_sorted ?_
  rw [← List.pairwise_map (f := Prod.fst) (R := (· < ·))] at h
  rw [List.nil_append, ← List.pairwise_map (f := Prod.fst) (R := (· < ·)), map_mapMembers]
  exact h

mutual

theorem reads_dump : ∀ {v : Json}, Printable grisu2 v → Reads (dump grisu2 v) v.settled
  | .null, _ => ⟨[], rfl, by simp⟩
  | .boolean true, _ => ⟨[], rfl, by simp⟩
  | .boolean false, _ => ⟨[], rfl, by simp⟩
  | .unsigned m, _ => reads_unsigned m
  | .integer m, _ => reads_integer m
  | .float q, h => reads_toChars h
  | .string s, _ => reads_of_feed (Reader.feed_quote [] .value s)
  | .array [], _ => ⟨[], rfl, by simp⟩
  | .array (v :: rest), h => by
    have helements := feed_dumpElements (show PrintableElements grisu2 (v :: rest) from h) (by simp) [] [] []
    have hfirst := Reader.feed_first (helements.trans (Reader.feed_nil _)) (by rintro next ⟨⟩)
    exact reads_of_feed (Reader.feed_cons_iff.mpr ⟨_, rfl, hfirst⟩)
  | .object [], _ => ⟨[], rfl, by simp⟩
  | .object (m :: rest), h => by
    have hmembers := feed_dumpMembers (show PrintableMembers grisu2 (m :: rest) from h.2) (by simp) [] "" []
      (.inr rfl) []
    rw [setMembers_settled h.1] at hmembers
    exact reads_of_feed (Reader.feed_cons_iff.mpr ⟨_, rfl, hmembers⟩)

theorem feed_dumpElements : ∀ {elements : List Json}, PrintableElements grisu2 elements → elements ≠ [] →
    ∀ (before : List Json) (stack : List Frame) (w : List UInt8),
      (atToken (.array before :: stack) .value).feed (dumpElements grisu2 elements ++ 0x5D :: w) =
        ({ state := deliver (.array (before ++ mapElements settledScalar elements)) stack } : Reader).feed w
  | [], _, hne, _, _, _ => absurd rfl hne
  | [v], h, _, before, stack, w => feed_last (reads_dump h.1) w
  | v :: u :: rest, h, _, before, stack, w => by
    have hrest := feed_dumpElements (show PrintableElements grisu2 (u :: rest) from h.2) (by simp)
      (before ++ [v.settled]) stack w
    rw [dumpElements_cons_cons, List.append_assoc, List.cons_append, feed_element (reads_dump h.1), hrest,
      List.append_assoc]
    rfl

theorem feed_dumpMembers : ∀ {members : List (String × Json)}, PrintableMembers grisu2 members → members ≠ [] →
    ∀ (entries : List (String × Json)) (name : String) (stack : List Frame) {mode : Mode},
      mode = .key ∨ mode = .firstKey → ∀ w : List UInt8,
      (atToken (.object entries name :: stack) mode).feed (dumpMembers grisu2 members ++ 0x7D :: w) =
        ({ state := deliver (.object (setMembers entries (mapMembers settledScalar members))) stack } : Reader).feed w
  | [], _, hne, _, _, _, _, _, _ => absurd rfl hne
  | [(key, v)], h, _, entries, name, stack, _, hmode, w => feed_lastMember (reads_dump h.1) hmode w
  | (key, v) :: n :: rest, h, _, entries, name, stack, _, hmode, w => by
    have hrest := feed_dumpMembers (show PrintableMembers grisu2 (n :: rest) from h.2) (by simp)
      (setMember entries key v.settled) "" stack (.inl rfl) w
    rw [dumpMembers_cons_cons, List.append_assoc, List.cons_append]
    exact (feed_member (reads_dump h.1) hmode _).trans hrest

end

def Visible (s : List UInt8) : Prop := ∀ b ∈ s, 0x20 ≤ b

instance : DecidablePred Visible := fun s => List.decidableBAll (0x20 ≤ ·) s

@[simp] theorem visible_nil : Visible [] := by simp [Visible]

@[simp] theorem visible_cons {b : UInt8} {s : List UInt8} : Visible (b :: s) ↔ 0x20 ≤ b ∧ Visible s := by
  simp [Visible]

@[simp] theorem visible_append {s t : List UInt8} : Visible (s ++ t) ↔ Visible s ∧ Visible t := by
  simp [Visible, or_imp, forall_and]

theorem visible_of_digits {ds : List UInt8} (h : ∀ b ∈ ds, isDigit b = true) : Visible ds := by
  intro b hb
  obtain ⟨d, hd, rfl, -⟩ := exists_of_isDigit (h b hb)
  interval_cases d <;> decide

theorem visible_utf8 {c : Char} (hc : 0x20 ≤ c.toNat) : Visible (String.utf8EncodeChar c) := by
  have hlow {n : Nat} (hn : n < 256) (h : 0x20 ≤ n) : 0x20 ≤ UInt8.ofNat n := by
    rw [UInt8.le_iff_toNat_le, UInt8.toNat_ofNat_of_lt' hn]
    exact h
  have hval : c.val.toNat = c.toNat := rfl
  simp only [String.utf8EncodeChar, hval]
  split_ifs <;> simp only [visible_cons, visible_nil, and_true]
  · exact hlow (by omega) hc
  · exact ⟨hlow (by omega) (by omega), hlow (by omega) (by omega)⟩
  · exact ⟨hlow (by omega) (by omega), hlow (by omega) (by omega), hlow (by omega) (by omega)⟩
  · exact ⟨hlow (by omega) (by omega), hlow (by omega) (by omega), hlow (by omega) (by omega),
      hlow (by omega) (by omega)⟩

theorem visible_escape (c : Char) : Visible (escape c) := by
  by_cases hcontrol : c.toNat < 0x20
  · have hall : ∀ n < 0x20, Visible (escape (Char.ofNat n)) := by decide +kernel
    have hc := hall c.toNat hcontrol
    rwa [Char.ofNat_toNat] at hc
  · by_cases hspecial : c.toNat = 0x22 ∨ c.toNat = 0x5C
    · have hall : ∀ n ∈ [0x22, 0x5C], Visible (escape (Char.ofNat n)) := by decide +kernel
      have hc := hall c.toNat (by simpa using hspecial)
      rwa [Char.ofNat_toNat] at hc
    · have hplain : escape c = String.utf8EncodeChar c := by
        unfold escape
        repeat' rw [if_neg (by omega)]
      rw [hplain]
      exact visible_utf8 (by omega)

theorem visible_quote (s : String) : Visible (quote s) := by
  have hescaped : Visible (dumpEscaped s) := by
    intro b hb
    obtain ⟨c, -, hb⟩ := List.mem_flatMap.mp hb
    exact visible_escape c b hb
  simp [quote, hescaped]

theorem visible_dumpInteger (z : Int) : Visible (dumpInteger z) := by
  have hdigits : Visible (Decimal.print z.natAbs) :=
    visible_of_digits fun _ hb => Decimal.isDigit_of_mem_print hb
  rw [dumpInteger_eq_printInt, Decimal.printInt]
  split_ifs
  · exact visible_cons.mpr ⟨by decide, hdigits⟩
  · exact hdigits

theorem visible_formatBuffer {ds : List UInt8} {e : Int} (h : Significant ds)
    (he : ((ds.length : Int) + e - 1).natAbs < 1000) : Visible (formatBuffer ds e (-4) 15) := by
  have hds := visible_of_digits h.digits
  have hzeros (n : Nat) : Visible (List.replicate n 0x30) := visible_of_digits (isDigit_replicate n)
  have htake (n : Nat) : Visible (ds.take n) := fun b hb => hds b (List.mem_of_mem_take hb)
  have hdrop (n : Nat) : Visible (ds.drop n) := fun b hb => hds b (List.mem_of_mem_drop hb)
  have hexp : Visible (appendExponent ((ds.length : Int) + e - 1)) := by
    refine visible_cons.mpr ⟨?_, visible_of_digits (exponentDigits_spec _ he).1⟩
    split_ifs <;> decide
  have hpoint : (0x20 : UInt8) ≤ 0x2E := by decide
  unfold formatBuffer
  simp only
  split_ifs
  · exact visible_append.mpr ⟨hds, visible_append.mpr ⟨hzeros _, by decide⟩⟩
  · exact visible_append.mpr ⟨htake _, visible_cons.mpr ⟨hpoint, hdrop _⟩⟩
  · exact visible_cons.mpr ⟨by decide, visible_cons.mpr ⟨hpoint, visible_append.mpr ⟨hzeros _, hds⟩⟩⟩
  · exact visible_append.mpr ⟨hds, visible_cons.mpr ⟨by decide, hexp⟩⟩
  · exact visible_append.mpr ⟨visible_append.mpr ⟨htake _, visible_cons.mpr ⟨hpoint, hdrop _⟩⟩,
      visible_cons.mpr ⟨by decide, hexp⟩⟩

theorem visible_toChars {q : ℚ} (h : q = 0 ∨ Shortest grisu2 |q|) : Visible (toChars grisu2 q) := by
  unfold toChars
  split_ifs with hzero hneg
  · decide
  · have hs := h.resolve_left hzero
    rw [abs_of_neg hneg] at hs
    exact visible_cons.mpr ⟨by decide, visible_formatBuffer hs.significant hs.exponent⟩
  · have hs := h.resolve_left hzero
    rw [abs_of_nonneg (not_lt.mp hneg)] at hs
    exact visible_formatBuffer hs.significant hs.exponent

mutual

theorem visible_dump : ∀ {v : Json}, Printable grisu2 v → Visible (dump grisu2 v)
  | .null, _ | .boolean true, _ | .boolean false, _ => by
    rw [dump]
    decide +kernel
  | .unsigned m, _ => visible_dumpInteger m.toNat
  | .integer m, _ => visible_dumpInteger m.toInt
  | .float q, h => visible_toChars h
  | .string s, _ => visible_quote s
  | .array elements, h => by
    have helements := visible_dumpElements (show PrintableElements grisu2 elements from h)
    simp [dump, helements]
  | .object members, h => by
    have hmembers := visible_dumpMembers (show PrintableMembers grisu2 members from h.2)
    simp [dump, hmembers]

theorem visible_dumpElements : ∀ {elements : List Json}, PrintableElements grisu2 elements →
    Visible (dumpElements grisu2 elements)
  | [], _ => visible_nil
  | [v], h => visible_dump h.1
  | v :: u :: rest, h => by
    have hrest := visible_dumpElements (show PrintableElements grisu2 (u :: rest) from h.2)
    rw [dumpElements_cons_cons, visible_append, visible_cons]
    exact ⟨visible_dump h.1, by decide, hrest⟩

theorem visible_dumpMembers : ∀ {members : List (String × Json)}, PrintableMembers grisu2 members →
    Visible (dumpMembers grisu2 members)
  | [], _ => visible_nil
  | [m], h => visible_dumpMember h.1
  | m :: n :: rest, h => by
    have hrest := visible_dumpMembers (show PrintableMembers grisu2 (n :: rest) from h.2)
    rw [dumpMembers_cons_cons, visible_append, visible_cons]
    exact ⟨visible_dumpMember h.1, by decide, hrest⟩

theorem visible_dumpMember : ∀ {m : String × Json}, PrintableMember grisu2 m →
    Visible (dumpMember grisu2 m)
  | (key, v), h => by
    rw [dumpMember, visible_append, visible_cons]
    exact ⟨visible_quote key, by decide, visible_dump h⟩

end

theorem Reads.head (h : Reads text v) : text.head? ≠ some 0xEF := by
  obtain ⟨rest, hread, -⟩ := h
  cases text with
  | nil => simp
  | cons b s =>
    simp only [List.head?_cons, ne_eq, Option.some.injEq]
    rintro rfl
    cases hread

theorem parse_of_reads (h : Reads text v) : parse true text = .ok v := by
  have hskip : skipBom text = .ok text := by
    unfold skipBom
    split
    · exact absurd rfl h.head
    · rfl
  obtain ⟨rest, hread, hspace⟩ := h
  have hfirst : readFirst text = .ok (v, rest) := by
    rw [readFirst, hskip]
    exact hread
  have hend : endOfInput rest = true := by
    rw [endOfInput, List.dropWhile_eq_nil_iff.mpr hspace]
  rw [parse_eq, hfirst]
  simp [hend]

theorem parse_dump (h : Printable grisu2 v) : parse true (dump grisu2 v) = .ok v.settled :=
  parse_of_reads (reads_dump h)

theorem newline_notMem_dump (h : Printable grisu2 v) : 0x0A ∉ dump grisu2 v :=
  fun hmem => absurd (visible_dump h 0x0A hmem) (by decide)

theorem printable_setMember {members : List (String × Json)} (key : String) (hv : Printable grisu2 v)
    (h : PrintableMembers grisu2 members) : PrintableMembers grisu2 (setMember members key v) := by
  induction members with
  | nil => exact ⟨hv, trivial⟩
  | cons entry rest ih =>
    obtain ⟨k, w⟩ := entry
    rw [setMember]
    split_ifs
    · exact ⟨hv, h.2⟩
    · exact ⟨hv, h⟩
    · exact ⟨h.1, ih h.2⟩

theorem printable_ofMembers {entries : List (String × Json)} (h : ∀ m ∈ entries, Printable grisu2 m.2) :
    Printable grisu2 (.ofMembers entries) := by
  have hfold (members : List (String × Json)) (hsorted : members.Pairwise fun m n => m.1 < n.1)
      (hmembers : PrintableMembers grisu2 members) :
      Printable grisu2 (.object (setMembers members entries)) := by
    induction entries generalizing members with
    | nil => exact ⟨hsorted, hmembers⟩
    | cons m rest ih =>
      exact ih (fun n hn => h n (by simp [hn])) _ (sorted_setMember m.1 m.2 hsorted)
        (printable_setMember m.1 (h m (by simp)) hmembers)
  exact hfold [] .nil trivial

theorem member_settled (v : Json) (key : String) : v.settled.member key = (v.member key).map settled := by
  refine member_mapScalars settledScalar (fun w hw => ?_) v
  cases w with
  | integer n =>
    rw [settledScalar]
    split_ifs <;> rfl
  | _ => exact hw

end

end Json
