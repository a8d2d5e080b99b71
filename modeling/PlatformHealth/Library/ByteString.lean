import Mathlib.Data.List.Basic
import Mathlib.Data.List.TakeWhile
import Mathlib.Tactic.SplitIfs

namespace ByteString

def utf8 (s : String) : List UInt8 := s.toUTF8.data.toList

def decode (b : List UInt8) : Option String := String.fromUTF8? ⟨b.toArray⟩

def cString (s : List UInt8) : List UInt8 := s.takeWhile (· ≠ 0)

section
variable {s : List UInt8}

theorem cString_of_notMem (h : 0 ∉ s) : cString s = s := by
  rw [cString, List.takeWhile_eq_self_iff]
  intro b hb
  exact decide_eq_true (ne_of_mem_of_not_mem hb h)

theorem cString_append_of_notMem (h : 0 ∉ s) (t : List UInt8) : cString (s ++ t) = s ++ cString t := by
  rw [cString, List.takeWhile_append_of_pos]
  · rfl
  · intro b hb
    exact decide_eq_true (ne_of_mem_of_not_mem hb h)

theorem cString_append_of_mem (h : 0 ∈ s) (t : List UInt8) : cString (s ++ t) = cString s := by
  induction s with
  | nil => cases h
  | cons b s ih =>
    by_cases hb : b = 0
    · simp [cString, hb]
    · have hs : 0 ∈ s := by simpa [Ne.symm hb] using h
      have hcons (u : List UInt8) : cString (b :: u) = b :: cString u :=
        List.takeWhile_cons_of_pos (by simpa using hb)
      rw [List.cons_append, hcons, hcons, ih hs]

theorem notMem_cString {b : UInt8} (h : b ∉ s) : b ∉ cString s :=
  fun hmem => h ((List.takeWhile_sublist _).subset hmem)

end

theorem byte_forall {p : UInt8 → Bool} (h : ∀ n < 256, p (UInt8.ofNat n) = true) (b : UInt8) :
    p b = true := by
  have hb := h b.toNat b.toNat_lt
  rwa [UInt8.ofNat_toNat] at hb

theorem eq_utf8_of_decode {b : List UInt8} {s : String} (h : decode b = some s) : b = utf8 s := by
  rw [decode, String.fromUTF8?] at h
  split at h
  · cases h
    rfl
  · cases h

theorem utf8_eq_flatMap (s : String) : utf8 s = s.toList.flatMap String.utf8EncodeChar := by
  have hbytes : s.toUTF8 = (s.toList.flatMap String.utf8EncodeChar).toByteArray :=
    String.utf8Encode_toList.symm
  rw [utf8, hbytes, List.data_toByteArray, List.toList_toArray]

theorem decode_utf8 (s : String) : decode (utf8 s) = some s := by
  have hbytes : (⟨(utf8 s).toArray⟩ : ByteArray) = s.toUTF8 := by
    rw [utf8, Array.toArray_toList]
  have hvalid : s.toUTF8.IsValidUTF8 := s.isValidUTF8
  rw [decode, hbytes, String.fromUTF8?, dif_pos hvalid]
  rfl

theorem utf8_injective : Function.Injective utf8 := by
  intro s t h
  have hs := decode_utf8 s
  rw [h, decode_utf8] at hs
  exact (Option.some.inj hs).symm

theorem exists_of_mem_utf8 {s : String} {b : UInt8} (hb : b < 0x80) (h : b ∈ utf8 s) :
    ∃ c ∈ s.toList, c.toNat = b.toNat := by
  rw [utf8_eq_flatMap] at h
  obtain ⟨c, hc, hmem⟩ := List.mem_flatMap.mp h
  refine ⟨c, hc, ?_⟩
  have hval : c.val.toNat = c.toNat := rfl
  have hhigh {n : Nat} (hn : 0x80 ≤ n) (hlt : n < 256) : b ≠ UInt8.ofNat n := by
    rintro rfl
    rw [UInt8.lt_iff_toNat_lt, UInt8.toNat_ofNat_of_lt' hlt] at hb
    exact absurd hn (Nat.not_le.mpr hb)
  simp only [String.utf8EncodeChar, hval] at hmem
  split_ifs at hmem with hascii htwo hthree <;> simp only [List.mem_cons, List.not_mem_nil, or_false] at hmem
  · have hsmall : c.toNat < 256 := by omega
    rw [hmem, UInt8.toNat_ofNat_of_lt' hsmall]
  · rcases hmem with hmem | hmem <;> exact absurd hmem (hhigh (by omega) (by omega))
  · rcases hmem with hmem | hmem | hmem <;> exact absurd hmem (hhigh (by omega) (by omega))
  · rcases hmem with hmem | hmem | hmem | hmem <;> exact absurd hmem (hhigh (by omega) (by omega))
-- where p first holds of the rest of the string, counted from pos
def position (p : List UInt8 → Bool) (pos : Nat) : List UInt8 → Option Nat
  | [] => none
  | b :: rest => if p (b :: rest) then some pos else position p (pos + 1) rest

section
variable (s pattern chars : List UInt8) (pos : Nat)

def find : Option Nat := position (pattern.isPrefixOf ·) pos (s.drop pos)

def findFirstOf : Option Nat := position (fun t => t.head?.any (· ∈ chars)) pos (s.drop pos)

def findFirstNotOf : Option Nat := position (fun t => t.head?.any (· ∉ chars)) 0 s

def findLastNotOf : Option Nat := (findFirstNotOf s.reverse chars).map (s.length - 1 - ·)

-- npos + 1 wraps around
def next (pos : Option Nat) : Nat :=
  match pos with
  | none => 0
  | some pos => pos + 1

def prefixOf (s : List UInt8) (count : Option Nat) : List UInt8 :=
  match count with
  | none => s
  | some n => s.take n

-- none where the start lies behind the end, which throws
def substr (count : Option Nat) : Option (List UInt8) :=
  if pos ≤ s.length then some (prefixOf (s.drop pos) count) else none

def erase (count : Option Nat) : Option (List UInt8) :=
  if pos ≤ s.length then
    some (s.take pos ++ (s.drop pos).drop (prefixOf (s.drop pos) count).length)
  else none

end

def behind (pattern : List UInt8) : List UInt8 → Option (List UInt8)
  | [] => none
  | b :: rest =>
    if pattern.isPrefixOf (b :: rest) then some ((b :: rest).drop pattern.length)
    else behind pattern rest

def before (chars s : List UInt8) : Option (List UInt8) :=
  if s.any (· ∈ chars) then some (s.takeWhile (· ∉ chars)) else none

def trim (chars s : List UInt8) : List UInt8 :=
  ((s.dropWhile (· ∈ chars)).reverse.dropWhile (· ∈ chars)).reverse

section
variable {p : List UInt8 → Bool} {s pattern chars : List UInt8} {pos k : Nat}

theorem position_lt (h : position p pos s = some k) : pos ≤ k ∧ k < pos + s.length := by
  induction s generalizing pos with
  | nil => cases h
  | cons b rest ih =>
    rw [position] at h
    rw [List.length_cons]
    split at h
    · cases h
      omega
    · have hrest := ih h
      omega

theorem position_behind (pattern s : List UInt8) (pos : Nat) :
    (position (pattern.isPrefixOf ·) pos s).map (fun k => s.drop (k - pos + pattern.length)) =
      behind pattern s := by
  induction s generalizing pos with
  | nil => rfl
  | cons b rest ih =>
    rw [position, behind]
    split
    · simp
    · rw [← ih (pos + 1)]
      refine Option.map_congr fun k hk => ?_
      have hlt := position_lt hk
      have hsucc : k - pos + pattern.length = k - (pos + 1) + pattern.length + 1 := by omega
      rw [hsucc, List.drop_succ_cons]

theorem find_behind (s pattern : List UInt8) (pos : Nat) :
    (find s pattern pos).map (fun k => s.drop (k + pattern.length)) =
      behind pattern (s.drop pos) := by
  rw [← position_behind pattern (s.drop pos) pos]
  refine Option.map_congr fun k hk => ?_
  have hlt := position_lt hk
  have hsum : pos + (k - pos + pattern.length) = k + pattern.length := by omega
  rw [List.drop_drop, hsum]

theorem find_lt (h : find s pattern pos = some k) : pos ≤ k ∧ k < s.length := by
  have hlt := position_lt h
  rw [List.length_drop] at hlt
  omega

theorem findFirstOf_lt (h : findFirstOf s chars pos = some k) : pos ≤ k ∧ k < s.length := by
  have hlt := position_lt h
  rw [List.length_drop] at hlt
  omega

theorem substr_of_le (h : pos ≤ s.length) (count : Option Nat) :
    substr s pos count = some (prefixOf (s.drop pos) count) := if_pos h

theorem length_prefixOf_le (s : List UInt8) (count : Option Nat) :
    (prefixOf s count).length ≤ s.length := by
  cases count with
  | none => exact Nat.le_refl _
  | some n => exact List.length_take_le' _ _

theorem length_of_substr {u : List UInt8} {count : Option Nat} (h : substr s pos count = some u) :
    u.length ≤ s.length := by
  rw [substr] at h
  split at h
  · cases h
    exact (length_prefixOf_le _ _).trans (List.drop_sublist _ _).length_le
  · cases h

theorem length_of_erase {u : List UInt8} {count : Option Nat} (h : erase s pos count = some u) :
    u.length ≤ s.length := by
  rw [erase] at h
  split at h
  · cases h
    rw [List.length_append, List.length_take, List.length_drop, List.length_drop]
    omega
  · cases h

theorem prefixOf_position (q : UInt8 → Bool) (s : List UInt8) (pos : Nat) :
    prefixOf s ((position (fun t => t.head?.any q) pos s).map (· - pos)) =
      s.takeWhile (fun b => !q b) := by
  induction s generalizing pos with
  | nil => rfl
  | cons b rest ih =>
    rw [position]
    by_cases hb : q b = true
    · simp [hb, prefixOf]
    · simp only [List.head?_cons, Option.any_some, hb, Bool.false_eq_true, if_false,
        List.takeWhile_cons, Bool.not_false, if_true]
      rw [← ih (pos + 1)]
      cases hk : position (fun t => t.head?.any q) (pos + 1) rest with
      | none => rfl
      | some k =>
        have hlt := position_lt hk
        have hsucc : k - pos = k - (pos + 1) + 1 := by omega
        simp only [Option.map_some, prefixOf, hsucc, List.take_succ_cons]

theorem isSome_position (q : UInt8 → Bool) (s : List UInt8) (pos : Nat) :
    (position (fun t => t.head?.any q) pos s).isSome = s.any q := by
  induction s generalizing pos with
  | nil => rfl
  | cons b rest ih =>
    rw [position, List.any_cons, ← ih (pos + 1)]
    by_cases hb : q b = true
    · simp [hb]
    · simp [hb]

theorem substr_findFirstOf (h : findFirstOf s chars pos = some k) :
    substr s pos (some (k - pos)) = before chars (s.drop pos) := by
  have hlt := position_lt h
  rw [List.length_drop] at hlt
  have hsome := isSome_position (· ∈ chars) (s.drop pos) pos
  have hprefix := prefixOf_position (· ∈ chars) (s.drop pos) pos
  simp only [← decide_not] at hprefix
  rw [before, ← hsome, ← hprefix, substr_of_le (by omega)]
  rw [findFirstOf] at h
  simp [h]

theorem before_of_findFirstOf (h : findFirstOf s chars pos = some k) :
    ∃ t, before chars (s.drop pos) = some t := by
  have hlt := position_lt h
  rw [List.length_drop] at hlt
  exact ⟨_, (substr_findFirstOf h).symm.trans (substr_of_le (by omega) _)⟩

theorem before_eq_none (h : findFirstOf s chars pos = none) : before chars (s.drop pos) = none := by
  have hsome := isSome_position (· ∈ chars) (s.drop pos) pos
  rw [findFirstOf] at h
  rw [before, ← hsome, h]
  rfl

theorem substr_find_byte (c : UInt8) (h : pos ≤ s.length) :
    substr s pos ((find s [c] pos).map (· - pos)) = some ((s.drop pos).takeWhile (· ≠ c)) := by
  have hhead : (fun t : List UInt8 => [c].isPrefixOf t) = fun t => t.head?.any (· = c) := by
    funext t
    cases t with
    | nil => rfl
    | cons b t => simp [List.isPrefixOf, BEq.beq, eq_comm]
  rw [substr_of_le h, find, hhead, prefixOf_position]
  simp

theorem drop_takeWhile (q : UInt8 → Bool) (s : List UInt8) :
    s.drop (s.takeWhile q).length = s.dropWhile q := by
  calc
    _ = (s.takeWhile q ++ s.dropWhile q).drop (s.takeWhile q).length := by
      rw [List.takeWhile_append_dropWhile]
    _ = s.dropWhile q := List.drop_left

theorem prefixOf_findFirstNotOf (s chars : List UInt8) :
    prefixOf s (findFirstNotOf s chars) = s.takeWhile (· ∈ chars) := by
  have h := prefixOf_position (· ∉ chars) s 0
  simpa [findFirstNotOf] using h

theorem erase_front (s chars : List UInt8) :
    erase s 0 (findFirstNotOf s chars) = some (s.dropWhile (· ∈ chars)) := by
  rw [erase, if_pos (Nat.zero_le _), List.take_zero, List.drop_zero, prefixOf_findFirstNotOf,
    drop_takeWhile, List.nil_append]

theorem next_findLastNotOf (s chars : List UInt8) :
    next (findLastNotOf s chars) = s.length - (s.reverse.takeWhile (· ∈ chars)).length := by
  rw [← prefixOf_findFirstNotOf, findLastNotOf]
  cases hk : findFirstNotOf s.reverse chars with
  | none => simp [next, prefixOf]
  | some k =>
    have hlt := position_lt hk
    rw [List.length_reverse] at hlt
    simp only [Option.map_some, next, prefixOf, List.length_take, List.length_reverse]
    omega

theorem erase_back (s chars : List UInt8) :
    erase s (next (findLastNotOf s chars)) none =
      some (s.reverse.dropWhile (· ∈ chars)).reverse := by
  rw [next_findLastNotOf, erase, if_pos (Nat.sub_le _ _), ← drop_takeWhile, List.drop_reverse]
  simp [prefixOf]

theorem mem_of_trim {c : UInt8} (h : c ∈ trim chars s) : c ∈ s := by
  rw [trim, List.mem_reverse] at h
  have hfront : c ∈ s.dropWhile (· ∈ chars) := by
    simpa using (List.dropWhile_sublist _).mem h
  exact (List.dropWhile_sublist _).mem hfront

theorem not_mem_of_before {t : List UInt8} (h : before chars s = some t) {c : UInt8}
    (hc : c ∈ chars) : c ∉ t := by
  rw [before] at h
  split at h
  · cases h
    intro hmem
    simpa [hc] using List.mem_takeWhile_imp hmem
  · cases h

end

end ByteString
