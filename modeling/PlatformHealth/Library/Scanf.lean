import PlatformHealth.Library.Decimal

-- fscanf and sscanf in the "C" locale, for the conversions below
namespace Scanf

open Decimal

-- %d and %u take the same text, which they drop where the assignment is suppressed
inductive Conversion
  | integer
  | char
  | setExcept (b : UInt8)
deriving DecidableEq

inductive Directive
  | space
  | ordinary (b : UInt8)
  | skip (c : Conversion)
  | unsignedLongLong
deriving DecidableEq

-- none is a format with some other conversion in it
def directives : List Char → Option (List Directive)
  | [] => some []
  | '%' :: '*' :: 'd' :: format => (.skip .integer :: ·) <$> directives format
  | '%' :: '*' :: 'u' :: format => (.skip .integer :: ·) <$> directives format
  | '%' :: '*' :: 'c' :: format => (.skip .char :: ·) <$> directives format
  | '%' :: '*' :: '[' :: '^' :: c :: ']' :: format =>
    (.skip (.setExcept c.toUInt8) :: ·) <$> directives format
  | '%' :: 'l' :: 'l' :: 'u' :: format => (.unsignedLongLong :: ·) <$> directives format
  | '%' :: _ => none
  | c :: format =>
    ((if isSpace c.toUInt8 then .space else .ordinary c.toUInt8) :: ·) <$> directives format

inductive Failure
  | input
  | matching
deriving DecidableEq

def readNumeral (s : List UInt8) : Except Failure (Numeral × List UInt8) :=
  match numeral s with
  | some r => .ok r
  | none => .error (if s.dropWhile isSpace = [] then .input else .matching)

namespace Directive

def read : Directive → List UInt8 → Except Failure (List UInt64 × List UInt8)
  | .space, s => .ok ([], s.dropWhile isSpace)
  | .skip .integer, s => (readNumeral s).map fun r => ([], r.2)
  | .unsignedLongLong, s => (readNumeral s).map fun r => ([r.1.toULongLong], r.2)
  | .ordinary _, [] => .error .input
  | .ordinary b, x :: s => if x = b then .ok ([], s) else .error .matching
  | .skip .char, [] => .error .input
  | .skip .char, _ :: s => .ok ([], s)
  | .skip (.setExcept _), [] => .error .input
  | .skip (.setExcept b), x :: s =>
    if x = b then .error .matching else .ok ([], s.dropWhile (· ≠ b))

def isNumber : Directive → Bool
  | .skip .integer | .unsignedLongLong => true
  | _ => false

theorem isNumber_iff {d : Directive} : d.isNumber = true ↔ d = .skip .integer ∨ d = .unsignedLongLong := by
  cases d with
  | space => simp [isNumber]
  | ordinary b => simp [isNumber]
  | skip c => cases c <;> simp [isNumber]
  | unsignedLongLong => simp [isNumber]

end Directive

structure Outcome where
  assigned : List UInt64
  failure : Option Failure
deriving DecidableEq

-- EOF is -1
def Outcome.rc (o : Outcome) : Int :=
  if o.assigned = [] ∧ o.failure = some .input then -1 else o.assigned.length

theorem Outcome.rc_of_ne_nil {o : Outcome} (h : o.assigned ≠ []) : o.rc = o.assigned.length := by
  simp [rc, h]

def scan : List Directive → List UInt8 → Outcome
  | [], _ => ⟨[], none⟩
  | d :: ds, s =>
    match d.read s with
    | .error e => ⟨[], some e⟩
    | .ok (values, rest) =>
      let o := scan ds rest
      ⟨values ++ o.assigned, o.failure⟩

section
variable {ds : List Directive} {d : Directive} {s front rest : List UInt8} {b : UInt8} {e : Failure}
  {values : List UInt64}

theorem scan_of_ok (h : d.read s = .ok (values, rest)) :
    scan (d :: ds) s = ⟨values ++ (scan ds rest).assigned, (scan ds rest).failure⟩ := by
  simp [scan, h]

theorem scan_of_ok_nil (h : d.read s = .ok ([], rest)) : scan (d :: ds) s = scan ds rest := scan_of_ok h

theorem scan_of_error (h : d.read s = .error e) : scan (d :: ds) s = ⟨[], some e⟩ := by
  simp [scan, h]

@[simp] theorem scan_ordinary : scan (.ordinary b :: ds) (b :: s) = scan ds s :=
  scan_of_ok_nil (by simp [Directive.read])

@[simp] theorem scan_skip_char : scan (.skip .char :: ds) (b :: s) = scan ds s :=
  scan_of_ok_nil rfl

theorem scan_space : scan (.space :: ds) s = scan ds (s.dropWhile isSpace) :=
  scan_of_ok_nil rfl

theorem readNumeral_printInt (z : Int) (h : NoDigit rest) :
    readNumeral (printInt z ++ rest) = .ok (⟨z < 0, z.natAbs⟩, rest) := by
  simp [readNumeral, numeral_printInt z h]

theorem scan_skip_integer (z : Int) (h : NoDigit rest) :
    scan (.skip .integer :: ds) (printInt z ++ rest) = scan ds rest :=
  scan_of_ok_nil (by simp [Directive.read, readNumeral_printInt z h, Except.map])

theorem scan_unsignedLongLong (n : UInt64) (h : NoDigit rest) :
    scan (.unsignedLongLong :: ds) (print n.toNat ++ rest) =
      ⟨n :: (scan ds rest).assigned, (scan ds rest).failure⟩ := by
  have hvalue : (⟨false, n.toNat⟩ : Numeral).toULongLong = n := by
    simp [Numeral.toULongLong, Nat.not_le.mpr n.toNat_lt]
  have hread : Directive.unsignedLongLong.read (print n.toNat ++ rest) = .ok ([n], rest) := by
    simp [Directive.read, readNumeral, numeral_print _ h, Except.map, hvalue]
  exact scan_of_ok hread

theorem readNumeral_dropWhile (s : List UInt8) : readNumeral (s.dropWhile isSpace) = readNumeral s := by
  simp only [readNumeral, numeral_dropWhile, List.dropWhile_idempotent]

theorem read_number_dropWhile (hd : d.isNumber = true) (s : List UInt8) :
    d.read (s.dropWhile isSpace) = d.read s := by
  rcases Directive.isNumber_iff.mp hd with rfl | rfl <;> simp only [Directive.read, readNumeral_dropWhile]

theorem scan_number_of_space (hd : d.isNumber = true) (hb : isSpace b = true) :
    scan (.space :: d :: ds) (b :: s) = scan (d :: ds) s := by
  have hdrop : (b :: s).dropWhile isSpace = s.dropWhile isSpace := by simp [hb]
  rw [scan_space, hdrop]
  simp only [scan, read_number_dropWhile hd s]

theorem scan_skip_integers (zs : List Int) (h : NoDigit s) :
    scan ((List.replicate zs.length [Directive.space, .skip .integer]).flatten ++ ds)
      (zs.flatMap (fun z => 32 :: printInt z) ++ s) = scan ds s := by
  induction zs with
  | nil => rfl
  | cons z zs ih =>
    have hnext : NoDigit (zs.flatMap (fun z => 32 :: printInt z) ++ s) := by
      cases zs with
      | nil => exact h
      | cons z zs => exact noDigit_cons.mpr (by decide)
    simp only [List.length_cons, List.replicate_succ, List.flatten_cons, List.flatMap_cons, List.append_assoc,
      List.cons_append, List.nil_append]
    rw [scan_number_of_space rfl (by decide), scan_skip_integer z hnext]
    exact ih

theorem scan_unsignedLongLongs (vs : List UInt64) (h : NoDigit s) :
    scan ((List.replicate vs.length [Directive.space, .unsignedLongLong]).flatten ++ ds)
      (vs.flatMap (fun v => 32 :: print v.toNat) ++ s) = ⟨vs ++ (scan ds s).assigned, (scan ds s).failure⟩ := by
  induction vs with
  | nil => rfl
  | cons v vs ih =>
    have hnext : NoDigit (vs.flatMap (fun v => 32 :: print v.toNat) ++ s) := by
      cases vs with
      | nil => exact h
      | cons v vs => exact noDigit_cons.mpr (by decide)
    simp only [List.length_cons, List.replicate_succ, List.flatten_cons, List.flatMap_cons, List.append_assoc,
      List.cons_append, List.nil_append]
    rw [scan_number_of_space rfl (by decide), scan_unsignedLongLong v hnext, ih]

theorem scan_skip_setExcept (hne : front ≠ []) (hb : b ∉ front) :
    scan (.skip (.setExcept b) :: ds) (front ++ b :: s) = scan ds (b :: s) := by
  have hdrop : (front ++ b :: s).dropWhile (· ≠ b) = b :: s := by
    rw [List.dropWhile_append_of_pos fun x hx => by simpa using ne_of_mem_of_not_mem hx hb]
    simp
  obtain ⟨x, front, rfl⟩ := List.exists_cons_of_ne_nil hne
  have hx : x ≠ b := fun hx => hb (by simp [hx])
  refine scan_of_ok_nil ?_
  simpa [Directive.read, hx] using hdrop

theorem scan_skip_setExcept_nil :
    scan (.skip (.setExcept b) :: ds) (b :: s) = ⟨[], some .matching⟩ :=
  scan_of_error (by simp [Directive.read])

theorem map_readNumeral_eq_ok {α : Type} {f : Numeral × List UInt8 → α} {a : α}
    (h : (readNumeral s).map f = .ok a) : ∃ r, numeral s = some r ∧ f r = a := by
  unfold readNumeral at h
  split at h
  · next r hr => exact ⟨r, hr, Except.ok.inj h⟩
  · cases h

theorem length_of_read (h : d.read s = .ok (values, rest)) :
    values.length = [d].count .unsignedLongLong := by
  cases d with
  | space =>
    cases h
    rfl
  | unsignedLongLong =>
    obtain ⟨r, -, hr⟩ := map_readNumeral_eq_ok h
    cases hr
    rfl
  | ordinary b =>
    cases s with
    | nil => cases h
    | cons x s =>
      simp only [Directive.read] at h
      split_ifs at h
      cases h
      rfl
  | skip c =>
    cases c with
    | integer =>
      obtain ⟨r, -, hr⟩ := map_readNumeral_eq_ok h
      cases hr
      rfl
    | char =>
      cases s with
      | nil => cases h
      | cons x s =>
        cases h
        rfl
    | setExcept b =>
      cases s with
      | nil => cases h
      | cons x s =>
        simp only [Directive.read] at h
        split_ifs at h
        cases h
        rfl

theorem failure_of_all_assigned (hlast : ds.getLast? = some .unsignedLongLong)
    (h : (scan ds s).assigned.length = ds.count .unsignedLongLong) : (scan ds s).failure = none := by
  induction ds generalizing s with
  | nil => rfl
  | cons d ds ih =>
    cases hread : d.read s with
    | error e =>
      rw [scan_of_error hread] at h
      have hpos := List.count_pos_iff.mpr (List.mem_of_getLast? hlast)
      simp only [List.length_nil] at h
      omega
    | ok r =>
      obtain ⟨values, rest⟩ := r
      have hvalues := length_of_read hread
      have hcount : (d :: ds).count .unsignedLongLong =
          [d].count .unsignedLongLong + ds.count .unsignedLongLong := by
        rw [← List.count_append, List.singleton_append]
      rw [scan_of_ok hread] at h ⊢
      rw [List.length_append, hvalues, hcount] at h
      cases ds with
      | nil => rfl
      | cons d' ds => exact ih (by simpa using hlast) (Nat.add_left_cancel h)

theorem exists_numeral_of_read (hd : d.isNumber = true) (h : d.read s = .ok (values, rest)) :
    ∃ n, numeral s = some (n, rest) := by
  rcases Directive.isNumber_iff.mp hd with rfl | rfl
  · obtain ⟨⟨n, t⟩, hr, ht⟩ := map_readNumeral_eq_ok h
    cases ht
    exact ⟨n, hr⟩
  · obtain ⟨⟨n, t⟩, hr, ht⟩ := map_readNumeral_eq_ok h
    cases ht
    exact ⟨n, hr⟩

theorem split_before {lead : List UInt8} (h : front ++ b :: s = lead ++ rest) (hb : b ∉ lead) :
    ∃ after, front = lead ++ after ∧ rest = after ++ b :: s := by
  rcases List.append_eq_append_iff.mp h with ⟨after, hlead, hs⟩ | h
  · cases after with
    | nil => exact ⟨[], by simpa using hlead.symm, by simpa using hs.symm⟩
    | cons x after =>
      obtain ⟨rfl, -⟩ := List.cons.inj hs
      exact absurd (by simp [hlead]) hb
  · exact h

theorem dropWhile_before (hb : isPart b = false) :
    (front ++ b :: s).dropWhile isSpace = front.dropWhile isSpace ++ b :: s := by
  have hspace := not_space_of_not_part hb
  rw [List.dropWhile_append]
  split
  · next hempty => simp [hspace, List.isEmpty_iff.mp hempty]
  · rfl

theorem noDigit_of_append {after : List UInt8} (h : NoDigit (after ++ s)) : NoDigit after := by
  cases after with
  | nil => exact noDigit_nil
  | cons x after => simpa using h

theorem read_number_before (hd : d.isNumber = true) (hb : isPart b = false)
    (h : d.read (front ++ b :: s) = .ok (values, rest)) :
    ∃ lead after, front = lead ++ after ∧ rest = after ++ b :: s ∧ NoDigit after ∧ 1 ≤ lead.length ∧
      (NoDigit front → 2 ≤ lead.length) := by
  obtain ⟨n, hn⟩ := exists_numeral_of_read hd h
  obtain ⟨lead, hlead, hpart, hrest, hone, htwo⟩ := numeral_front hn
  have hmem : b ∉ lead := fun hmem => by simp [hpart b hmem] at hb
  obtain ⟨after, rfl, rfl⟩ := split_before hlead hmem
  refine ⟨lead, after, rfl, rfl, noDigit_of_append hrest, hone, fun hfront => htwo ?_⟩
  cases hcons : lead with
  | nil => simp [hcons] at hone
  | cons x lead =>
    rw [hcons] at hfront
    simpa using hfront

theorem numbers_before (hds : ∀ d ∈ ds, d = .space ∨ d.isNumber = true) (hb : isPart b = false)
    (h : (scan ds (front ++ b :: s)).failure = none) :
    2 * ds.countP Directive.isNumber ≤ front.length + 1 ∧
      (NoDigit front → 2 * ds.countP Directive.isNumber ≤ front.length) := by
  induction ds generalizing front with
  | nil => simp
  | cons d ds ih =>
    have hrest : ∀ d ∈ ds, d = .space ∨ d.isNumber = true := fun d hd => hds d (List.mem_cons_of_mem _ hd)
    rcases hds d List.mem_cons_self with rfl | hd
    · rw [scan_space, dropWhile_before hb] at h
      have hcount := ih hrest h
      rw [List.countP_cons_of_neg (by decide)]
      cases front with
      | nil => exact hcount
      | cons x front =>
        by_cases hx : isSpace x = true
        · have hle := (List.dropWhile_sublist isSpace (l := front)).length_le
          simp only [List.dropWhile_cons_of_pos hx] at hcount
          simp only [List.length_cons]
          omega
        · rwa [List.dropWhile_cons_of_neg hx] at hcount
    · cases hread : d.read (front ++ b :: s) with
      | error e =>
        rw [scan_of_error hread] at h
        cases h
      | ok r =>
        obtain ⟨values, rest⟩ := r
        rw [scan_of_ok hread] at h
        obtain ⟨lead, after, rfl, rfl, hafter, hone, htwo⟩ := read_number_before hd hb hread
        have hcount := (ih hrest h).2 hafter
        rw [List.countP_cons_of_pos hd, List.length_append]
        refine ⟨by omega, fun hfront => ?_⟩
        have hlead := htwo hfront
        omega

end

end Scanf
