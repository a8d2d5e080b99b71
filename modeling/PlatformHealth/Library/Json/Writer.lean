import PlatformHealth.Library.Decimal
import PlatformHealth.Library.Json.Quoted

namespace Json

def hexByte (n : Nat) : UInt8 := if n < 10 then UInt8.ofNat (0x30 + n) else UInt8.ofNat (0x57 + n)

-- one character of a string; ensure_ascii is false
def escape (c : Char) : List UInt8 :=
  if c.toNat = 0x08 then [0x5C, 0x62]
  else if c.toNat = 0x09 then [0x5C, 0x74]
  else if c.toNat = 0x0A then [0x5C, 0x6E]
  else if c.toNat = 0x0C then [0x5C, 0x66]
  else if c.toNat = 0x0D then [0x5C, 0x72]
  else if c.toNat = 0x22 then [0x5C, 0x22]
  else if c.toNat = 0x5C then [0x5C, 0x5C]
  else if c.toNat ≤ 0x1F then
    [0x5C, 0x75, hexByte (c.toNat / 0x1000), hexByte (c.toNat / 0x100 % 0x10),
      hexByte (c.toNat / 0x10 % 0x10), hexByte (c.toNat % 0x10)]
  else String.utf8EncodeChar c

def dumpEscaped (s : String) : List UInt8 := s.toList.flatMap escape

def digitsTo99 (n : Nat) : List UInt8 := [UInt8.ofNat (0x30 + n / 10), UInt8.ofNat (0x30 + n % 10)]

-- two digits at a time from the end of the buffer
def dumpDigits (n : Nat) : List UInt8 :=
  if 100 ≤ n then dumpDigits (n / 100) ++ digitsTo99 (n % 100)
  else if 10 ≤ n then digitsTo99 n
  else [UInt8.ofNat (0x30 + n)]

def dumpInteger (z : Int) : List UInt8 :=
  if z = 0 then [0x30] else if z < 0 then 0x2D :: dumpDigits z.natAbs else dumpDigits z.natAbs

-- the decimal digits and the exponent of ten that grisu2() finds for a positive double
abbrev Grisu2 := ℚ → List UInt8 × Int

def exponentDigits (k : Nat) : List UInt8 :=
  if k < 10 then [0x30, UInt8.ofNat (0x30 + k)]
  else if k < 100 then digitsTo99 k
  else UInt8.ofNat (0x30 + k / 100) :: digitsTo99 (k % 100)

def appendExponent (e : Int) : List UInt8 :=
  (if e < 0 then 0x2D else 0x2B) :: exponentDigits e.natAbs

-- n is the place of the decimal point relative to the start of the digits
def formatBuffer (digits : List UInt8) (decimalExponent minExp maxExp : Int) : List UInt8 :=
  let k : Int := digits.length
  let n := k + decimalExponent
  if k ≤ n ∧ n ≤ maxExp then digits ++ (List.replicate (n - k).toNat 0x30 ++ [0x2E, 0x30])
  else if 0 < n ∧ n ≤ maxExp then digits.take n.toNat ++ 0x2E :: digits.drop n.toNat
  else if minExp < n ∧ n ≤ 0 then 0x30 :: 0x2E :: (List.replicate (-n).toNat 0x30 ++ digits)
  else
    (if k = 1 then digits else digits.take 1 ++ 0x2E :: digits.drop 1) ++
      0x65 :: appendExponent (n - 1)

section
variable (grisu2 : Grisu2)

def toChars (q : ℚ) : List UInt8 :=
  if q = 0 then [0x30, 0x2E, 0x30]
  else if q < 0 then 0x2D :: formatBuffer (grisu2 (-q)).1 (grisu2 (-q)).2 (-4) 15
  else formatBuffer (grisu2 q).1 (grisu2 q).2 (-4) 15

def quote (s : String) : List UInt8 := 0x22 :: (dumpEscaped s ++ [0x22])

mutual

def dump : Json → List UInt8
  | .null => ByteString.utf8 "null"
  | .boolean true => ByteString.utf8 "true"
  | .boolean false => ByteString.utf8 "false"
  | .unsigned n => dumpInteger n.toNat
  | .integer n => dumpInteger n.toInt
  | .float q => toChars grisu2 q
  | .string s => quote s
  | .array elements => 0x5B :: (dumpElements elements ++ [0x5D])
  | .object members => 0x7B :: (dumpMembers members ++ [0x7D])

def dumpElements : List Json → List UInt8
  | [] => []
  | [v] => dump v
  | v :: rest => dump v ++ 0x2C :: dumpElements rest

def dumpMembers : List (String × Json) → List UInt8
  | [] => []
  | [m] => dumpMember m
  | m :: rest => dumpMember m ++ 0x2C :: dumpMembers rest

def dumpMember : String × Json → List UInt8
  | (key, v) => quote key ++ 0x3A :: dump v

end

@[simp] theorem dumpElements_cons_cons (v u : Json) (rest : List Json) :
    dumpElements grisu2 (v :: u :: rest) = dump grisu2 v ++ 0x2C :: dumpElements grisu2 (u :: rest) := rfl

@[simp] theorem dumpMembers_cons_cons (m n : String × Json) (rest : List (String × Json)) :
    dumpMembers grisu2 (m :: n :: rest) = dumpMember grisu2 m ++ 0x2C :: dumpMembers grisu2 (n :: rest) := rfl

end

def scans (state : StringState) : List UInt8 → Option (StringState × List Char)
  | [] => some (state, [])
  | b :: s =>
    if state = .plain ∧ b = 0x22 then none
    else do
      let (state, read) ← scanString state b
      let (state, rest) ← scans state s
      return (state, read ++ rest)

theorem scans_of_control {c : Char} (h : c.toNat < 0x20) : scans .plain (escape c) = some (.plain, [c]) := by
  have hall : ∀ n < 0x20, scans .plain (escape (Char.ofNat n)) = some (.plain, [Char.ofNat n]) := by
    decide +kernel
  have hc := hall c.toNat h
  rwa [Char.ofNat_toNat] at hc

theorem between_ofNat {low high : UInt8} {n : Nat} (hn : n < 256) :
    between low high (UInt8.ofNat n) = true ↔ low.toNat ≤ n ∧ n ≤ high.toNat := by
  simp [between, UInt8.le_iff_toNat_le, Nat.mod_eq_of_lt hn]

theorem scanString_continuation {missing n code : Nat} {low high : UInt8} (hn : n < 256)
    (hlow : low.toNat ≤ n) (hhigh : n ≤ high.toNat) :
    scanString (.continuation missing low high code) (UInt8.ofNat n) =
      if missing ≤ 1 then some (.plain, [Char.ofNat (0x40 * code + (n - 0x80))])
      else some (.continuation (missing - 1) 0x80 0xBF (0x40 * code + (n - 0x80)), []) := by
  simp [scanString, (between_ofNat hn).mpr ⟨hlow, hhigh⟩, Nat.mod_eq_of_lt hn]


theorem scanPlain_one : ∀ n < 0x80, 0x20 ≤ n → scanPlain (UInt8.ofNat n) = some (.plain, [Char.ofNat n]) := by
  decide +kernel

theorem scanPlain_two : ∀ m < 0x20, 2 ≤ m →
    scanPlain (UInt8.ofNat (m + 0xC0)) = some (.continuation 1 0x80 0xBF m, []) := by
  decide +kernel

theorem scanPlain_three : ∀ m < 0x10, scanPlain (UInt8.ofNat (m + 0xE0)) =
    some (.continuation 2 (if m = 0 then 0xA0 else 0x80) (if m = 0xD then 0x9F else 0xBF) m, []) := by
  decide +kernel

theorem scanPlain_four : ∀ m < 5, scanPlain (UInt8.ofNat (m + 0xF0)) =
    some (.continuation 3 (if m = 0 then 0x90 else 0x80) (if m = 4 then 0x8F else 0xBF) m, []) := by
  decide +kernel

theorem scans_cons {state : StringState} {b : UInt8} (s : List UInt8) (hb : b ≠ 0x22) :
    scans state (b :: s) = do
      let (state, read) ← scanString state b
      let (state, rest) ← scans state s
      return (state, read ++ rest) := by
  rw [scans, if_neg fun h => hb h.2]

theorem ofNat_ne {n : Nat} {b : UInt8} (hn : n < 256) (h : n ≠ b.toNat) : UInt8.ofNat n ≠ b := by
  rintro rfl
  exact h (UInt8.toNat_ofNat_of_lt' hn).symm

theorem scans_last {m code : Nat} {low high : UInt8} (hm : m < 0x40) (hlow : low.toNat ≤ m + 0x80)
    (hhigh : m + 0x80 ≤ high.toNat) :
    scans (.continuation 1 low high code) [UInt8.ofNat (m + 0x80)] =
      some (.plain, [Char.ofNat (0x40 * code + m)]) := by
  rw [scans_cons _ (ofNat_ne (by omega) (by change m + 0x80 ≠ 0x22; omega)),
    scanString_continuation (by omega) hlow hhigh]
  simp [scans]

theorem scans_next {missing m code : Nat} {low high : UInt8} {s : List UInt8} (hm : m < 0x40)
    (hlow : low.toNat ≤ m + 0x80) (hhigh : m + 0x80 ≤ high.toNat) :
    scans (.continuation (missing + 2) low high code) (UInt8.ofNat (m + 0x80) :: s) =
      scans (.continuation (missing + 1) 0x80 0xBF (0x40 * code + m)) s := by
  rw [scans_cons _ (ofNat_ne (by omega) (by change m + 0x80 ≠ 0x22; omega)),
    scanString_continuation (by omega) hlow hhigh]
  simp


theorem scans_first {b : UInt8} {state : StringState} {s : List UInt8} (hb : b ≠ 0x22 ∧ b ≠ 0x5C)
    (h : scanPlain b = some (state, [])) : scans .plain (b :: s) = scans state s := by
  rw [scans_cons _ hb.1, scanString, if_neg hb.2, h]
  simp


theorem scans_utf8 {c : Char} (hlow : 0x20 ≤ c.toNat) (hquote : c.toNat ≠ 0x22) (hslash : c.toNat ≠ 0x5C) :
    scans .plain (String.utf8EncodeChar c) = some (.plain, [c]) := by
  have hvalid : c.toNat < 0xD800 ∨ 0xDFFF < c.toNat ∧ c.toNat < 0x110000 := c.valid
  have hlead {m : Nat} (hm : m < 256) (h : 0x80 ≤ m) : UInt8.ofNat m ≠ 0x22 ∧ UInt8.ofNat m ≠ 0x5C :=
    ⟨ofNat_ne hm (by change m ≠ 0x22; omega), ofNat_ne hm (by change m ≠ 0x5C; omega)⟩
  suffices h : scans .plain (String.utf8EncodeChar c) = some (.plain, [Char.ofNat c.toNat]) by
    rwa [Char.ofNat_toNat] at h
  have hval : c.val.toNat = c.toNat := rfl
  simp only [String.utf8EncodeChar, hval]
  generalize c.toNat = n at *
  split_ifs with h1 h2 h3
  · have hb : UInt8.ofNat n ≠ 0x5C := ofNat_ne (by omega) hslash
    rw [scans_cons _ (ofNat_ne (by omega) hquote), scanString, if_neg hb, scanPlain_one n (by omega) hlow]
    simp [scans]
  · have hcode : 0x40 * (n / 64 % 32) + n % 64 = n := by omega
    rw [scans_first (hlead (by omega) (by omega)) (scanPlain_two _ (by omega) (by omega)),
      scans_last (by omega) (by change 0x80 ≤ _; omega) (by change _ ≤ 0xBF; omega), hcode]
  · have hcode : 0x40 * (0x40 * (n / 4096 % 16) + n / 64 % 64) + n % 64 = n := by omega
    rw [scans_first (hlead (by omega) (by omega)) (scanPlain_three _ (by omega)),
      scans_next (by omega) ?_ ?_,
      scans_last (by omega) (by change 0x80 ≤ _; omega) (by change _ ≤ 0xBF; omega), hcode]
    · split_ifs
      · change 0xA0 ≤ _
        omega
      · change 0x80 ≤ _
        omega
    · split_ifs
      · change _ ≤ 0x9F
        omega
      · change _ ≤ 0xBF
        omega
  · have hcode : 0x40 * (0x40 * (0x40 * (n / 262144 % 8) + n / 4096 % 64) + n / 64 % 64) + n % 64 = n := by
      omega
    rw [scans_first (hlead (by omega) (by omega)) (scanPlain_four _ (by omega)),
      scans_next (by omega) ?_ ?_,
      scans_next (by omega) (by change 0x80 ≤ _; omega) (by change _ ≤ 0xBF; omega),
      scans_last (by omega) (by change 0x80 ≤ _; omega) (by change _ ≤ 0xBF; omega), hcode]
    · split_ifs
      · change 0x90 ≤ _
        omega
      · change 0x80 ≤ _
        omega
    · split_ifs
      · change _ ≤ 0x8F
        omega
      · change _ ≤ 0xBF
        omega

theorem scans_escape (c : Char) : scans .plain (escape c) = some (.plain, [c]) := by
  by_cases hcontrol : c.toNat < 0x20
  · exact scans_of_control hcontrol
  · by_cases hquote : c.toNat = 0x22
    · obtain rfl : c = Char.ofNat 0x22 := by rw [← hquote, Char.ofNat_toNat]
      decide +kernel
    · by_cases hslash : c.toNat = 0x5C
      · obtain rfl : c = Char.ofNat 0x5C := by rw [← hslash, Char.ofNat_toNat]
        decide +kernel
      · have hescape : escape c = String.utf8EncodeChar c := by
          unfold escape
          repeat' rw [if_neg (by omega)]
        rw [hescape]
        exact scans_utf8 (by omega) hquote hslash


theorem scans_cons_iff {state state' : StringState} {b : UInt8} {s : List UInt8} {read : List Char} :
    scans state (b :: s) = some (state', read) ↔ ¬ (state = .plain ∧ b = 0x22) ∧
      ∃ next first rest, scanString state b = some (next, first) ∧ scans next s = some (state', rest) ∧
        first ++ rest = read := by
  rw [scans]
  split
  · next hclosed => simp [hclosed]
  · next hopen => simp [hopen, Option.bind_eq_some_iff]

theorem scans_append {state mid state' : StringState} {s t : List UInt8} {read rest : List Char}
    (hs : scans state s = some (mid, read)) (ht : scans mid t = some (state', rest)) :
    scans state (s ++ t) = some (state', read ++ rest) := by
  induction s generalizing state read with
  | nil =>
    cases hs
    exact ht
  | cons b s ih =>
    obtain ⟨hopen, next, first, more, hfirst, hmore, rfl⟩ := scans_cons_iff.mp hs
    exact scans_cons_iff.mpr ⟨hopen, next, first, more ++ rest, hfirst, ih hmore, (List.append_assoc ..).symm⟩

theorem scans_dumpEscaped (s : String) : scans .plain (dumpEscaped s) = some (.plain, s.toList) := by
  rw [dumpEscaped]
  induction s.toList with
  | nil => rfl
  | cons c cs ih => exact scans_append (scans_escape c) ih

namespace Reader

theorem feed_scans {state state' : StringState} {s : List UInt8} {read : List Char}
    (stack : List Frame) (mode : Mode) (chars : List Char) (h : scans state s = some (state', read)) :
    (inString stack mode state chars).feed s = .ok (inString stack mode state' (chars ++ read)) := by
  induction s generalizing state chars read with
  | nil =>
    cases h
    simp
  | cons b s ih =>
    obtain ⟨hopen, next, first, rest, hfirst, hrest, rfl⟩ := scans_cons_iff.mp h
    have hstep : (inString stack mode state chars).consume b =
        .ok (inString stack mode next (chars ++ first)) := by
      rw [consume_inString hopen, hfirst]
    rw [← List.append_assoc]
    exact feed_cons_iff.mpr ⟨_, hstep, ih (chars ++ first) hrest⟩

theorem feed_quote (stack : List Frame) (mode : Mode) (s : String) :
    (atToken stack mode).feed (quote s) =
      (do return { state := ← (State.reading stack mode).step (.value (.string s)) }) := by
  have hopen : (atToken stack mode).consume 0x22 = .ok (inString stack mode .plain []) := rfl
  have hclose : (inString stack mode .plain s.toList).consume 0x22 =
      (do return { state := ← (State.reading stack mode).step (.value (.string (String.ofList s.toList))) }) :=
    rfl
  rw [quote, feed_cons, hopen]
  change (inString stack mode .plain []).feed _ = _
  rw [feed_append_of_ok (feed_scans stack mode [] (scans_dumpEscaped s)), feed_cons, List.nil_append, hclose,
    String.ofList_toList]
  cases (State.reading stack mode).step (.value (.string s)) <;> rfl

end Reader

end Json
