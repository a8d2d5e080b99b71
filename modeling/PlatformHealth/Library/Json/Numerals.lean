import PlatformHealth.Library.Json.Writer
import Mathlib.Tactic.FieldSimp
import Mathlib.Tactic.IntervalCases
import Mathlib.Tactic.Ring

namespace Json

open Decimal (isDigit value)

section
variable {n : Nat}

theorem print_of_base_le (h : 10 ≤ n) :
    Decimal.print n = Decimal.print (n / 10) ++ [UInt8.ofNat (0x30 + n % 10)] := by
  have hdigit : ∀ d < 10, (Nat.digitChar d).toUInt8 = UInt8.ofNat (0x30 + d) := by decide
  rw [Decimal.print, Nat.toDigits_of_base_le (by decide) h, List.map_append, List.map_singleton,
    hdigit _ (Nat.mod_lt _ (by decide))]
  rfl

theorem print_of_lt (h : n < 10) : Decimal.print n = [UInt8.ofNat (0x30 + n)] := by
  have hdigit : ∀ d < 10, (Nat.digitChar d).toUInt8 = UInt8.ofNat (0x30 + d) := by decide
  rw [Decimal.print, Nat.toDigits_of_lt_base h, List.map_singleton, hdigit _ h]

theorem print_of_hundred_le (h : 100 ≤ n) :
    Decimal.print n = Decimal.print (n / 100) ++ digitsTo99 (n % 100) := by
  have htens : n / 10 % 10 = n % 100 / 10 := by omega
  have hones : n % 10 = n % 100 % 10 := by omega
  rw [print_of_base_le (by omega), print_of_base_le (by omega), Nat.div_div_eq_div_mul, htens, hones,
    List.append_assoc]
  rfl

theorem dumpDigits_eq_print (n : Nat) : dumpDigits n = Decimal.print n := by
  induction n using dumpDigits.induct with
  | case1 n hn ih => rw [dumpDigits, if_pos hn, ih, print_of_hundred_le hn]
  | case2 n hn hten =>
    rw [dumpDigits, if_neg hn, if_pos hten, print_of_base_le hten, print_of_lt (by omega)]
    rfl
  | case3 n hn hten => rw [dumpDigits, if_neg hn, if_neg hten, print_of_lt (by omega)]

theorem dumpInteger_eq_printInt (z : Int) : dumpInteger z = Decimal.printInt z := by
  by_cases hzero : z = 0
  · subst hzero
    rfl
  · rw [dumpInteger, if_neg hzero, dumpDigits_eq_print]
    rfl

end

def Reader.inNumber (stack : List Frame) (mode : Mode) (state : NumberState) (n : Numeral) : Reader :=
  { state := .reading stack mode, lexer := .number state n }

def numbers (state : NumberState) (n : Numeral) : List UInt8 → Option (NumberState × Numeral)
  | [] => some (state, n)
  | b :: s =>
    match scanNumber state n (some b) with
    | .more state n => numbers state n s
    | _ => none

section
variable {state state' mid : NumberState} {n n' m : Numeral} {s t ds : List UInt8} {b : UInt8}

theorem Reader.feed_numbers (stack : List Frame) (mode : Mode) (h : numbers state n s = some (state', n')) :
    (inNumber stack mode state n).feed s = .ok (inNumber stack mode state' n') := by
  induction s generalizing state n with
  | nil =>
    cases h
    rfl
  | cons b s ih =>
    rw [numbers] at h
    split at h
    · next next m hmore =>
      have hstep : (inNumber stack mode state n).consume b = .ok (inNumber stack mode next m) := by
        simp [consume, settle, inNumber, hmore, advance, Lexer.next, bind, Except.bind]
      exact feed_cons_iff.mpr ⟨_, hstep, ih h⟩
    · cases h

theorem digit_of_isDigit (h : isDigit b = true) : digit b = some (b.toNat - 48) := by
  rw [isDigit, Bool.and_eq_true, decide_eq_true_eq, decide_eq_true_eq] at h
  exact if_pos h

theorem value_foldl (init : Nat) (ds : List UInt8) :
    ds.foldl (fun n b => 10 * n + (b.toNat - 48)) init = init * 10 ^ ds.length + value ds := by
  induction ds generalizing init with
  | nil => simp [value]
  | cons b ds ih =>
    rw [value, List.foldl_cons, List.foldl_cons, ih, ih, List.length_cons]
    ring

theorem value_append (ds es : List UInt8) : value (ds ++ es) = value ds * 10 ^ es.length + value es := by
  rw [value, List.foldl_append, value_foldl]
  rfl

theorem numbers_any1 (h : ∀ b ∈ ds, isDigit b = true) (n : Numeral) :
    numbers .any1 n ds = some (.any1, { n with mantissa := n.mantissa * 10 ^ ds.length + value ds }) := by
  rw [← value_foldl]
  induction ds generalizing n with
  | nil => rfl
  | cons b ds ih =>
    have hb := digit_of_isDigit (h b (by simp))
    rw [numbers]
    simp only [scanNumber, Option.bind_some, hb]
    exact ih (fun c hc => h c (by simp [hc])) _

theorem numbers_decimal2 (h : ∀ b ∈ ds, isDigit b = true) (n : Numeral) :
    numbers .decimal2 n ds = some (.decimal2,
      { n with
        mantissa := n.mantissa * 10 ^ ds.length + value ds
        places := n.places + ds.length }) := by
  rw [← value_foldl]
  induction ds generalizing n with
  | nil => rfl
  | cons b ds ih =>
    have hb := digit_of_isDigit (h b (by simp))
    rw [numbers]
    simp only [scanNumber, Option.bind_some, hb]
    rw [ih fun c hc => h c (by simp [hc])]
    simp [Numeral.pushPlace, Numeral.push, Nat.add_assoc, Nat.add_comm 1]

theorem numbers_decimal1 (h : ∀ b ∈ ds, isDigit b = true) (hne : ds ≠ []) (n : Numeral) :
    numbers .decimal1 n ds = numbers .decimal2 n ds := by
  obtain ⟨b, ds, rfl⟩ := List.exists_cons_of_ne_nil hne
  have hb := digit_of_isDigit (h b (by simp))
  rw [numbers, numbers]
  simp only [scanNumber, Option.bind_some, hb]

theorem numbers_any2 (h : ∀ b ∈ ds, isDigit b = true) (n : Numeral) :
    numbers .any2 n ds = some (.any2, { n with exponent := n.exponent * 10 ^ ds.length + value ds }) := by
  rw [← value_foldl]
  induction ds generalizing n with
  | nil => rfl
  | cons b ds ih =>
    have hb := digit_of_isDigit (h b (by simp))
    rw [numbers]
    simp only [scanNumber, Option.bind_some, hb]
    exact ih (fun c hc => h c (by simp [hc])) _

theorem numbers_sign (h : ∀ b ∈ ds, isDigit b = true) (hne : ds ≠ []) (n : Numeral) :
    numbers .sign n ds = numbers .any2 n ds := by
  obtain ⟨b, ds, rfl⟩ := List.exists_cons_of_ne_nil hne
  have hb := digit_of_isDigit (h b (by simp))
  rw [numbers, numbers]
  simp only [scanNumber, Option.bind_some, hb]

theorem exponentDigits_spec : ∀ k < 1000, (∀ b ∈ exponentDigits k, isDigit b = true) ∧
    exponentDigits k ≠ [] ∧ value (exponentDigits k) = k := by
  have hall : (List.range 1000).all (fun k => (exponentDigits k).all isDigit && !(exponentDigits k).isEmpty &&
      value (exponentDigits k) == k) = true := by
    decide +kernel
  intro k hk
  have hdigits := List.all_eq_true.mp hall k (List.mem_range.mpr hk)
  simp only [Bool.and_eq_true, List.all_eq_true, Bool.not_eq_true', beq_iff_eq, List.isEmpty_eq_false_iff,
    and_assoc] at hdigits
  exact hdigits

theorem numbers_exponent {e : Int} (he : e.natAbs < 1000) (hn : n.exponent = 0 ∧ n.exponentNegative = false)
    (hstate : state = .zero ∨ state = .any1 ∨ state = .decimal2 ∧ n.isFloat = true) :
    numbers state n (0x65 :: appendExponent e) = some (.any2,
      { n with isFloat := true, exponentNegative := decide (e < 0), exponent := e.natAbs }) := by
  obtain ⟨hdigits, hne, hvalue⟩ := exponentDigits_spec e.natAbs he
  have hmark : scanNumber state n (some 0x65) = .more .exponent { n with isFloat := true } := by
    rcases hstate with rfl | rfl | ⟨rfl, hfloat⟩
    · rfl
    · rfl
    · rw [← hfloat]
      rfl
  rw [numbers, hmark]
  dsimp only
  by_cases hneg : e < 0
  · rw [appendExponent, if_pos hneg, numbers]
    change numbers .sign _ _ = _
    rw [numbers_sign hdigits hne, numbers_any2 hdigits, hvalue]
    simp [hneg, hn]
  · rw [appendExponent, if_neg hneg, numbers]
    change numbers .sign _ _ = _
    rw [numbers_sign hdigits hne, numbers_any2 hdigits, hvalue]
    simp [hneg, hn]

def signText (negative : Bool) : List UInt8 := if negative then [0x2D] else []

structure Integral (ds : List UInt8) : Prop where
  digits : ∀ b ∈ ds, isDigit b = true
  ne_nil : ds ≠ []
  lead : ds = [0x30] ∨ ds.head? ≠ some 0x30

theorem exists_of_isDigit (h : isDigit b = true) : ∃ d < 10, b = UInt8.ofNat (d + 48) ∧ b.toNat - 48 = d := by
  rw [isDigit, Bool.and_eq_true, decide_eq_true_eq, decide_eq_true_eq, UInt8.le_iff_toNat_le,
    UInt8.le_iff_toNat_le] at h
  have hlow : 48 ≤ b.toNat := h.1
  have hhigh : b.toNat ≤ 57 := h.2
  refine ⟨b.toNat - 48, by omega, ?_, rfl⟩
  rw [Nat.sub_add_cancel hlow, UInt8.ofNat_toNat]

theorem scan_digit (hb : isDigit b = true) (hne : b ≠ 0x30) :
    scan b = .lexer (.number .any1 (Numeral.push {} (b.toNat - 48))) := by
  obtain ⟨d, hd, rfl, hvalue⟩ := exists_of_isDigit hb
  rw [hvalue]
  interval_cases d
  · exact absurd rfl hne
  all_goals rfl

theorem scanNumber_minus (hb : isDigit b = true) (hne : b ≠ 0x30) (n : Numeral) :
    scanNumber .minus n (some b) = .more .any1 (n.push (b.toNat - 48)) := by
  have hdigit := digit_of_isDigit hb
  have hpos : b.toNat - 48 ≠ 0 := by
    obtain ⟨d, -, rfl, hvalue⟩ := exists_of_isDigit hb
    rw [hvalue]
    rintro rfl
    exact hne rfl
  obtain ⟨d, hd⟩ := Nat.exists_eq_succ_of_ne_zero hpos
  simp [scanNumber, hdigit, hd]

theorem Reader.feed_integral (stack : List Frame) (mode : Mode) (negative : Bool) (h : Integral ds) :
    ∃ state, (state = .zero ∨ state = .any1) ∧
      (atToken stack mode).feed (signText negative ++ ds) =
        .ok (inNumber stack mode state { negative, mantissa := value ds }) := by
  obtain ⟨hdigits, hne, hlead⟩ := h
  by_cases hzero : ds = [0x30]
  · subst hzero
    refine ⟨.zero, .inl rfl, ?_⟩
    cases negative <;> rfl
  · obtain ⟨b, ds, rfl⟩ := List.exists_cons_of_ne_nil hne
    have hb : isDigit b = true := hdigits b (by simp)
    have hrest : ∀ c ∈ ds, isDigit c = true := fun c hc => hdigits c (by simp [hc])
    have hfirst : b ≠ 0x30 := by simpa using hlead.resolve_left hzero
    have hfeed (n : Numeral) (hn : n.mantissa = 0) :
        (inNumber stack mode .any1 (n.push (b.toNat - 48))).feed ds =
          .ok (inNumber stack mode .any1 { n with mantissa := value (b :: ds) }) := by
      rw [feed_numbers stack mode (numbers_any1 hrest _), ← value_foldl]
      simp [Numeral.push, hn, value]
    refine ⟨.any1, .inr rfl, ?_⟩
    cases negative with
    | false =>
      have hopen : (atToken stack mode).consume b =
          .ok (inNumber stack mode .any1 (Numeral.push {} (b.toNat - 48))) := by
        have hspace : isWhitespace b = false := by
          obtain ⟨d, hd, rfl, -⟩ := exists_of_isDigit hb
          interval_cases d <;> rfl
        rw [consume_atToken, advance]
        simp [atToken, inNumber, Lexer.next, hspace, scan_digit hb hfirst]
      exact feed_cons_iff.mpr ⟨_, hopen, hfeed {} rfl⟩
    | true =>
      have hminus : (atToken stack mode).consume 0x2D =
          .ok (inNumber stack mode .minus { negative := true }) := rfl
      have hopen : (inNumber stack mode .minus { negative := true }).feed [b] =
          .ok (inNumber stack mode .any1 (Numeral.push { negative := true } (b.toNat - 48))) :=
        feed_numbers stack mode (by simp [numbers, scanNumber_minus hb hfirst])
      refine feed_cons_iff.mpr ⟨_, hminus, ?_⟩
      exact (feed_append_of_ok hopen ds).trans (hfeed { negative := true } rfl)

section
variable {ds frac : List UInt8} {e : Int} {negative : Bool}

namespace Reader

theorem feed_point (stack : List Frame) (mode : Mode) (negative : Bool) (h : Integral ds)
    (hfrac : ∀ b ∈ frac, isDigit b = true) (hne : frac ≠ []) :
    (atToken stack mode).feed (signText negative ++ (ds ++ 0x2E :: frac)) =
      .ok (inNumber stack mode .decimal2
        { negative, mantissa := value (ds ++ frac), places := frac.length, isFloat := true }) := by
  obtain ⟨state, hstate, hfeed⟩ := feed_integral stack mode negative h
  rw [← List.append_assoc, feed_append_of_ok hfeed]
  refine feed_numbers stack mode ?_
  have hpoint : scanNumber state { negative, mantissa := value ds } (some 0x2E) =
      .more .decimal1 { negative, mantissa := value ds, isFloat := true } := by
    rcases hstate with rfl | rfl <;> rfl
  rw [numbers, hpoint]
  dsimp only
  rw [numbers_decimal1 hfrac hne, numbers_decimal2 hfrac, value_append]
  simp

end Reader

theorem magnitude_eq (n : Numeral) : n.magnitude =
    n.mantissa * (10 : ℚ) ^ ((if n.exponentNegative then -(n.exponent : Int) else n.exponent) - n.places) := by
  unfold Numeral.magnitude
  split_ifs
  · rw [zpow_sub₀ (by norm_num), zpow_neg, zpow_natCast, zpow_natCast]
    push_cast
    rw [pow_add]
    field_simp
  · rw [zpow_sub₀ (by norm_num), zpow_natCast, zpow_natCast]
    push_cast
    ring

end

theorem isDigit_replicate (n : Nat) : ∀ b ∈ List.replicate n (0x30 : UInt8), isDigit b = true := by
  intro b hb
  obtain rfl := List.eq_of_mem_replicate hb
  decide

theorem value_replicate (n : Nat) : value (List.replicate n 0x30) = 0 := by
  induction n with
  | zero => rfl
  | succ n ih => rw [List.replicate_succ', value_append, ih]; rfl

structure Significant (ds : List UInt8) : Prop where
  digits : ∀ b ∈ ds, isDigit b = true
  ne_nil : ds ≠ []
  lead : ds.head? ≠ some 0x30

theorem Significant.integral (h : Significant ds) {tail : List UInt8} (ht : ∀ b ∈ tail, isDigit b = true) :
    Integral (ds ++ tail) where
  digits b hb := (List.mem_append.mp hb).elim (h.digits b) (ht b)
  ne_nil := by simp [h.ne_nil]
  lead := .inr (by simpa [List.head?_append_of_ne_nil _ h.ne_nil] using h.lead)

theorem Significant.take (h : Significant ds) {n : Nat} (hn : n ≠ 0) : Integral (ds.take n) where
  digits b hb := h.digits b (List.mem_of_mem_take hb)
  ne_nil := by simp [hn, h.ne_nil]
  lead := .inr (by simpa [List.head?_take, hn] using h.lead)

structure Reader.ReadsDouble (text : List UInt8) (negative : Bool) (q : ℚ) : Prop where
  feed : ∀ stack mode, ∃ state n, (atToken stack mode).feed text = .ok (inNumber stack mode state n) ∧
    scanNumber state n none = .done ∧ n.isFloat = true ∧ n.negative = negative ∧ n.magnitude = q

section
variable (negative : Bool)

theorem readsDouble_point (h : Integral ds) (hfrac : ∀ b ∈ frac, isDigit b = true) (hne : frac ≠ []) :
    Reader.ReadsDouble (signText negative ++ (ds ++ 0x2E :: frac)) negative
      (value (ds ++ frac) * 10 ^ (-(frac.length : Int))) := by
  refine ⟨fun stack mode => ⟨_, _, Reader.feed_point stack mode negative h hfrac hne, rfl, rfl, rfl, ?_⟩⟩
  rw [magnitude_eq]
  simp

theorem signed_natAbs (z : Int) :
    (if decide (z < 0) = true then -(z.natAbs : Int) else z.natAbs) = z := by
  simp only [decide_eq_true_eq]
  omega

theorem readsDouble_exponent (h : Integral ds) (he : e.natAbs < 1000) :
    Reader.ReadsDouble (signText negative ++ (ds ++ 0x65 :: appendExponent e)) negative
      (value ds * 10 ^ e) := by
  refine ⟨fun stack mode => ?_⟩
  obtain ⟨state, hstate, hfeed⟩ := Reader.feed_integral stack mode negative h
  let n : Numeral := { negative, mantissa := value ds }
  have hn : n.exponent = 0 ∧ n.exponentNegative = false := ⟨rfl, rfl⟩
  have hall := Reader.feed_numbers stack mode (numbers_exponent he hn (hstate.imp_right .inl))
  rw [← Reader.feed_append_of_ok hfeed, List.append_assoc] at hall
  refine ⟨_, _, hall, rfl, rfl, rfl, ?_⟩
  rw [magnitude_eq]
  dsimp only
  rw [signed_natAbs]
  simp [n]

theorem readsDouble_point_exponent (h : Integral ds) (hfrac : ∀ b ∈ frac, isDigit b = true) (hne : frac ≠ [])
    (he : e.natAbs < 1000) :
    Reader.ReadsDouble (signText negative ++ (ds ++ 0x2E :: frac ++ 0x65 :: appendExponent e)) negative
      (value (ds ++ frac) * 10 ^ (e - frac.length)) := by
  refine ⟨fun stack mode => ?_⟩
  have hpoint := Reader.feed_point stack mode negative h hfrac hne
  let n : Numeral := { negative, mantissa := value (ds ++ frac), places := frac.length, isFloat := true }
  have hn : n.exponent = 0 ∧ n.exponentNegative = false := ⟨rfl, rfl⟩
  have hall := Reader.feed_numbers stack mode (numbers_exponent he hn (.inr (.inr ⟨rfl, rfl⟩)))
  rw [← Reader.feed_append_of_ok hpoint, List.append_assoc] at hall
  refine ⟨_, _, hall, rfl, rfl, rfl, ?_⟩
  rw [magnitude_eq]
  dsimp only
  rw [signed_natAbs]

theorem readsDouble_formatBuffer (h : Significant ds) (he : ((ds.length : Int) + e - 1).natAbs < 1000) :
    Reader.ReadsDouble (signText negative ++ formatBuffer ds e (-4) 15) negative (value ds * 10 ^ e) := by
  have hlength := List.length_pos_of_ne_nil h.ne_nil
  have hzero : value [0x30] = 0 := rfl
  have hdrop {n : Nat} : ∀ b ∈ ds.drop n, isDigit b = true := fun b hb =>
    h.digits b (List.mem_of_mem_drop hb)
  have hrest {n : Nat} (hn : n < ds.length) : ds.drop n ≠ [] := by
    rw [ne_eq, List.drop_eq_nil_iff]
    omega
  unfold formatBuffer
  simp only
  split_ifs with hinteger hpoint hfraction hone
  · obtain ⟨z, rfl⟩ := Int.eq_ofNat_of_zero_le (show 0 ≤ e by omega)
    have hz : ((ds.length : Int) + z - ds.length).toNat = z := by omega
    have hfrac : ∀ b ∈ [0x30], isDigit b = true := isDigit_replicate 1
    have htext := readsDouble_point negative (h.integral (isDigit_replicate z)) hfrac (by simp)
    rw [value_append, value_append, value_replicate, hzero, List.append_assoc] at htext
    rw [hz]
    simpa [zpow_neg] using htext
  · have hfront : Integral (ds.take (ds.length + e).toNat) := h.take (by omega)
    have htext := readsDouble_point negative hfront hdrop (hrest (n := (ds.length + e).toNat) (by omega))
    have hplaces : -((ds.length - (ds.length + e).toNat : Nat) : Int) = e := by omega
    rwa [List.take_append_drop, List.length_drop, hplaces] at htext
  · have hlead : Integral [0x30] := ⟨isDigit_replicate 1, by simp, .inl rfl⟩
    have hfrac : ∀ b ∈ List.replicate (-(ds.length + e)).toNat 0x30 ++ ds, isDigit b = true := fun b hb =>
      (List.mem_append.mp hb).elim (isDigit_replicate _ b) (h.digits b)
    have htext := readsDouble_point negative hlead hfrac (by simp [h.ne_nil])
    have hplaces : -(((-(ds.length + e)).toNat + ds.length : Nat) : Int) = e := by omega
    rw [value_append, value_append, value_replicate, hzero, List.length_append, List.length_replicate, hplaces]
      at htext
    simpa using htext
  · have hfront : Integral (ds.take ds.length) := h.take (by omega)
    have htext := readsDouble_exponent negative hfront he
    have hexp : (ds.length : Int) + e - 1 = e := by omega
    rw [List.take_length] at htext
    rwa [hexp] at htext ⊢
  · have hfront : Integral (ds.take 1) := h.take (by omega)
    have htext := readsDouble_point_exponent negative hfront hdrop (hrest (n := 1) (by omega)) he
    have hexp : (ds.length : Int) + e - 1 - (ds.length - 1 : Nat) = e := by omega
    rwa [List.take_append_drop, List.length_drop, hexp] at htext

end

end

end Json
