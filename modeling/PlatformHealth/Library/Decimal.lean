import Mathlib.Algebra.Group.Int.Defs
import Mathlib.Algebra.Group.Nat.Defs
import Mathlib.Data.List.DropRight
import Mathlib.Data.List.TakeWhile

-- numerals in the "C" locale, as printf writes them and as strtol and scanf read them
namespace Decimal

def isDigit (b : UInt8) : Bool := 48 ≤ b && b ≤ 57

def isSign (b : UInt8) : Bool := b = 43 || b = 45

def isSpace (b : UInt8) : Bool := b = 32 || 9 ≤ b && b ≤ 13

def isPart (b : UInt8) : Bool := isSpace b || isSign b || isDigit b

def print (n : Nat) : List UInt8 := (Nat.toDigits 10 n).map Char.toUInt8

def printInt (z : Int) : List UInt8 := if z < 0 then 45 :: print z.natAbs else print z.natAbs

def value (digits : List UInt8) : Nat := digits.foldl (fun n b => 10 * n + (b.toNat - 48)) 0

def skipSign : List UInt8 → List UInt8
  | [] => []
  | b :: s => if isSign b then s else b :: s

structure Numeral where
  negative : Bool
  magnitude : Nat
deriving DecidableEq

namespace Numeral

def toInt (n : Numeral) : Int := if n.negative then -n.magnitude else n.magnitude

def toLong (n : Numeral) : Int := max (-2 ^ 63) (min (2 ^ 63 - 1) n.toInt)

-- a magnitude that does not fit is ULLONG_MAX whatever its sign, any other is negated modulo 2^64
def toULongLong (n : Numeral) : UInt64 :=
  if 2 ^ 64 ≤ n.magnitude then -1
  else if n.negative then -UInt64.ofNat n.magnitude else UInt64.ofNat n.magnitude

end Numeral

-- white space, at most one sign and at least one digit, with what stands behind them
def numeral (s : List UInt8) : Option (Numeral × List UInt8) :=
  let s := s.dropWhile isSpace
  let digits := skipSign s
  if digits.takeWhile isDigit = [] then none
  else some (⟨s.head? = some 45, value (digits.takeWhile isDigit)⟩, digits.dropWhile isDigit)

-- base 10; where there is no numeral the end pointer is the start
def strtol (s : List UInt8) : Int × List UInt8 :=
  match numeral s with
  | none => (0, s)
  | some (n, rest) => (n.toLong, rest)

def NoDigit (s : List UInt8) : Prop := ∀ b ∈ s.head?, isDigit b = false

section
variable {s rest : List UInt8} {b : UInt8} {n : Numeral}

@[simp] theorem noDigit_nil : NoDigit [] := by rintro b ⟨⟩

@[simp] theorem noDigit_cons : NoDigit (b :: s) ↔ isDigit b = false := by simp [NoDigit]

theorem not_space_of_digit (h : isDigit b = true) : isSpace b = false := by
  unfold isDigit at h
  unfold isSpace
  grind

theorem not_sign_of_digit (h : isDigit b = true) : isSign b = false := by
  unfold isDigit at h
  unfold isSign
  grind

theorem not_space_of_not_part (h : isPart b = false) : isSpace b = false := by
  unfold isPart at h
  grind

theorem noDigit_dropWhile (s : List UInt8) : NoDigit (s.dropWhile isDigit) := by
  intro b hb
  have hhead := List.head?_dropWhile_not isDigit s
  rw [hb] at hhead
  exact hhead

theorem digit_toUInt8 {c : Char} (h : c.isDigit = true) :
    isDigit c.toUInt8 = true ∧ c.toUInt8.toNat = c.toNat := by
  have hrange : 48 ≤ c.toNat ∧ c.toNat ≤ 57 := by
    simpa [Char.isDigit, UInt32.le_iff_toNat_le] using h
  have hsmall : c.toNat < 256 := by omega
  have hnat : c.toUInt8.toNat = c.toNat := Nat.mod_eq_of_lt hsmall
  refine ⟨?_, hnat⟩
  simp only [isDigit, Bool.and_eq_true, decide_eq_true_eq, UInt8.le_iff_toNat_le, hnat]
  exact hrange

theorem print_ne_nil (m : Nat) : print m ≠ [] := by simp [print]

theorem isDigit_of_mem_print {m : Nat} (h : b ∈ print m) : isDigit b = true := by
  obtain ⟨c, hc, rfl⟩ := List.mem_map.mp h
  exact (digit_toUInt8 (Nat.isDigit_of_mem_toDigits (by decide) (by decide) hc)).1

theorem zero_notMem_print (m : Nat) : 0 ∉ print m :=
  fun h => absurd (isDigit_of_mem_print h) (by decide)

theorem zero_notMem_printInt (z : Int) : 0 ∉ printInt z := by
  unfold printInt
  split_ifs <;> simp [zero_notMem_print]

theorem value_map {cs : List Char} (h : ∀ c ∈ cs, c.isDigit = true) :
    value (cs.map Char.toUInt8) = Nat.ofDigitChars 10 cs 0 := by
  rw [value, Nat.ofDigitChars_eq_foldl, List.foldl_map]
  refine List.foldl_ext _ _ 0 fun m c hc => ?_
  rw [(digit_toUInt8 (h c hc)).2]
  rfl

@[simp] theorem value_print (m : Nat) : value (print m) = m := by
  rw [print, value_map fun c hc => Nat.isDigit_of_mem_toDigits (by decide) (by decide) hc,
    Nat.ofDigitChars_ten_toDigits]

theorem takeWhile_print (m : Nat) (h : NoDigit rest) : (print m ++ rest).takeWhile isDigit = print m := by
  rw [List.takeWhile_append_of_pos fun b hb => isDigit_of_mem_print hb]
  cases rest with
  | nil => simp
  | cons b rest => simp [noDigit_cons.mp h]

theorem dropWhile_print (m : Nat) (h : NoDigit rest) : (print m ++ rest).dropWhile isDigit = rest := by
  rw [List.dropWhile_append_of_pos fun b hb => isDigit_of_mem_print hb]
  cases rest with
  | nil => rfl
  | cons b rest => simp [noDigit_cons.mp h]

@[simp] theorem numeral_space (h : isSpace b = true) : numeral (b :: s) = numeral s := by
  simp [numeral, h]

@[simp] theorem numeral_dropWhile (s : List UInt8) : numeral (s.dropWhile isSpace) = numeral s := by
  simp only [numeral, List.dropWhile_idempotent]

theorem numeral_print (m : Nat) (h : NoDigit rest) :
    numeral (print m ++ rest) = some (⟨false, m⟩, rest) := by
  obtain ⟨b, digits, hprint⟩ := List.exists_cons_of_ne_nil (print_ne_nil m)
  have hb : isDigit b = true := isDigit_of_mem_print (m := m) (by simp [hprint])
  have hstart : (print m ++ rest).dropWhile isSpace = print m ++ rest := by
    simp [hprint, not_space_of_digit hb]
  have hsign : skipSign (print m ++ rest) = print m ++ rest := by
    simp [hprint, skipSign, not_sign_of_digit hb]
  have hminus : (print m).head? ≠ some 45 := by
    rw [hprint]
    rintro ⟨⟩
    exact absurd hb (by decide)
  simp [numeral, hstart, hsign, hminus, takeWhile_print m h, dropWhile_print m h, print_ne_nil]

theorem numeral_minus (m : Nat) (h : NoDigit rest) :
    numeral (45 :: (print m ++ rest)) = some (⟨true, m⟩, rest) := by
  have hspace : isSpace 45 = false := by decide
  have hsign : isSign 45 = true := by decide
  simp [numeral, hspace, skipSign, hsign, takeWhile_print m h, dropWhile_print m h, print_ne_nil]

theorem numeral_printInt (z : Int) (h : NoDigit rest) :
    numeral (printInt z ++ rest) = some (⟨z < 0, z.natAbs⟩, rest) := by
  by_cases hz : z < 0
  · simp [printInt, hz, numeral_minus _ h]
  · simp [printInt, hz, numeral_print _ h]

theorem printInt_injective {y z : Int} (h : printInt y = printInt z) : y = z := by
  have hy := numeral_printInt y noDigit_nil
  have hz := numeral_printInt z noDigit_nil
  rw [h, hz] at hy
  simp only [Option.some.injEq, Prod.mk.injEq, Numeral.mk.injEq, decide_eq_decide, and_true] at hy
  omega

theorem strtol_printInt {z : Int} (hlow : -2 ^ 63 ≤ z) (hhigh : z < 2 ^ 63) :
    strtol (printInt z) = (z, []) := by
  have hz := numeral_printInt z noDigit_nil
  rw [List.append_nil] at hz
  simp only [strtol, hz, Numeral.toLong, Numeral.toInt, decide_eq_true_eq, Prod.mk.injEq, and_true]
  omega

theorem exists_sign (s : List UInt8) : ∃ sign, s = sign ++ skipSign s ∧ ∀ b ∈ sign, isSign b = true := by
  cases s with
  | nil => exact ⟨[], rfl, by simp⟩
  | cons b s =>
    by_cases hb : isSign b = true
    · exact ⟨[b], by simp [skipSign, hb], by simpa using hb⟩
    · exact ⟨[], by simp [skipSign, hb], by simp⟩

theorem numeral_front (h : numeral s = some (n, rest)) :
    ∃ front, s = front ++ rest ∧ (∀ b ∈ front, isPart b = true) ∧ NoDigit rest ∧ 1 ≤ front.length ∧
      (NoDigit s → 2 ≤ front.length) := by
  simp only [numeral] at h
  split_ifs at h with hdigits
  obtain ⟨-, rfl⟩ := h
  obtain ⟨sign, hsign, hall⟩ := exists_sign (s.dropWhile isSpace)
  generalize hu : skipSign (s.dropWhile isSpace) = u at *
  have hs : s = s.takeWhile isSpace ++ (sign ++ (u.takeWhile isDigit ++ u.dropWhile isDigit)) := by
    rw [List.takeWhile_append_dropWhile, ← hsign, List.takeWhile_append_dropWhile]
  have hlength := List.length_pos_of_ne_nil hdigits
  refine ⟨s.takeWhile isSpace ++ (sign ++ u.takeWhile isDigit), by simpa using hs, ?_,
    noDigit_dropWhile u, ?_, ?_⟩
  · intro b hb
    simp only [List.mem_append] at hb
    unfold isPart
    rcases hb with hb | hb | hb
    · simp [List.mem_takeWhile_imp hb]
    · simp [hall b hb]
    · simp [List.mem_takeWhile_imp hb]
  · simp only [List.length_append]
    omega
  · intro hno
    by_contra hshort
    simp only [List.length_append] at hshort
    have hspace : s.takeWhile isSpace = [] := List.eq_nil_of_length_eq_zero (by omega)
    have hnone : sign = [] := List.eq_nil_of_length_eq_zero (by omega)
    obtain ⟨b, digits, hcons⟩ := List.exists_cons_of_ne_nil hdigits
    have hb : isDigit b = true := List.mem_takeWhile_imp (l := u) (by simp [hcons])
    rw [hs, hspace, hnone, hcons] at hno
    simp [hb] at hno

end

end Decimal
