import PlatformHealth.Library.ByteString
import Mathlib.Algebra.Group.Nat.Defs

namespace StdString

open ByteString (prefixOf position_lt find_lt next)

def maxSize : Nat := 2 ^ 63 - 1

def npos : UInt64 := -1

inductive OutOfRange where
  | substr (pos size : Nat)
  | erase (pos size : Nat)
deriving DecidableEq, Repr

def toSize : Option Nat → UInt64
  | none => npos
  | some pos => UInt64.ofNat pos

section
variable (s pattern chars : List UInt8) (pos count : UInt64)

def find : UInt64 := toSize (ByteString.find s pattern pos.toNat)

def findFirstOf : UInt64 := toSize (ByteString.findFirstOf s chars pos.toNat)

def findFirstNotOf : UInt64 := toSize (ByteString.findFirstNotOf s chars)

def findLastNotOf : UInt64 := toSize (ByteString.findLastNotOf s chars)

def substr : Except OutOfRange (List UInt8) :=
  if s.length < pos.toNat then .error (.substr pos.toNat s.length)
  else .ok ((s.drop pos.toNat).take count.toNat)

def erase : Except OutOfRange (List UInt8) :=
  if s.length < pos.toNat then .error (.erase pos.toNat s.length)
  else .ok (s.take pos.toNat ++ (s.drop pos.toNat).drop count.toNat)

end

section
variable {s t : List UInt8} {k n : Nat} {o : Option Nat} {pos count : UInt64}

theorem toNat_toSize_some (h : k ≤ maxSize + 8) : (toSize (some k)).toNat = k := by
  have hlt : k < 2 ^ 64 := by
    unfold maxSize at h
    omega
  exact UInt64.toNat_ofNat_of_lt' hlt

theorem toSize_eq_npos_iff (h : ∀ k ∈ o, k ≤ maxSize) : toSize o = npos ↔ o = none := by
  cases o with
  | none => simp [toSize]
  | some k =>
    have hk := h k rfl
    have hnat := toNat_toSize_some (Nat.le_add_right_of_le hk)
    refine iff_of_false (fun heq => ?_) (by rintro ⟨⟩)
    rw [heq] at hnat
    change 2 ^ 64 - 1 = k at hnat
    unfold maxSize at hk
    omega

theorem toNat_toSize_add (hk : k ≤ maxSize) (hn : n ≤ 8) :
    (toSize (some k) + UInt64.ofNat n).toNat = k + n := by
  have hsum : toSize (some k) + UInt64.ofNat n = toSize (some (k + n)) := (UInt64.ofNat_add k n).symm
  rw [hsum, toNat_toSize_some (Nat.add_le_add hk hn)]

theorem toNat_toSize_add_one (h : ∀ k ∈ o, k ≤ maxSize) : (toSize o + 1).toNat = next o := by
  cases o with
  | none => rfl
  | some k => exact toNat_toSize_add (n := 1) (h k rfl) (by decide)

theorem toSize_some_ne (h : k ≤ maxSize) : toSize (some k) ≠ npos := by
  rw [ne_eq, toSize_eq_npos_iff (by rintro _ ⟨⟩; exact h)]
  rintro ⟨⟩

theorem find_add (s pattern : List UInt8) (hk : k ≤ maxSize) (hn : n ≤ 8) :
    find s pattern (toSize (some k) + UInt64.ofNat n) = toSize (ByteString.find s pattern (k + n)) := by
  rw [find, toNat_toSize_add hk hn]

theorem toSize_succ (k : Nat) : toSize (some k) + 1 = toSize (some (k + 1)) :=
  (UInt64.ofNat_add k 1).symm

theorem sub_toSize_succ (a : UInt64) (k : Nat) :
    a - toSize (some k) - 1 = a - toSize (some (k + 1)) := by
  rw [← toSize_succ, UInt64.sub_eq_add_neg, UInt64.sub_eq_add_neg, UInt64.sub_eq_add_neg, UInt64.neg_add,
    UInt64.sub_eq_add_neg, UInt64.add_assoc]

theorem find_at (s pattern : List UInt8) (hk : k ≤ maxSize) :
    find s pattern (toSize (some k)) = toSize (ByteString.find s pattern k) := by
  rw [find, toNat_toSize_some (Nat.le_add_right_of_le hk)]

theorem findFirstOf_at (s chars : List UInt8) (hk : k ≤ maxSize) :
    findFirstOf s chars (toSize (some k)) = toSize (ByteString.findFirstOf s chars k) := by
  rw [findFirstOf, toNat_toSize_some (Nat.le_add_right_of_le hk)]

theorem find_next (s pattern : List UInt8) (h : ∀ k ∈ o, k ≤ maxSize) :
    find s pattern (toSize o + 1) = toSize (ByteString.find s pattern (next o)) := by
  rw [find, toNat_toSize_add_one h]

theorem take_toSize_sub (hs : k + t.length ≤ maxSize) (ho : ∀ j ∈ o, k ≤ j ∧ j ≤ maxSize) :
    t.take (toSize o - toSize (some k)).toNat = prefixOf t (o.map (· - k)) := by
  have hk : (toSize (some k)).toNat = k := toNat_toSize_some (by omega)
  cases o with
  | none =>
    have hlong : t.length ≤ (toSize none - toSize (some k)).toNat := by
      have hle : toSize (some k) ≤ toSize none := by
        rw [UInt64.le_iff_toNat_le, hk]
        change k ≤ 2 ^ 64 - 1
        unfold maxSize at hs
        omega
      rw [UInt64.toNat_sub_of_le _ _ hle, hk]
      change t.length ≤ 2 ^ 64 - 1 - k
      unfold maxSize at hs
      omega
    exact List.take_of_length_le hlong
  | some j =>
    obtain ⟨hkj, hj⟩ := ho j rfl
    have hjnat : (toSize (some j)).toNat = j := toNat_toSize_some (Nat.le_add_right_of_le hj)
    have hle : toSize (some k) ≤ toSize (some j) := by rwa [UInt64.le_iff_toNat_le, hk, hjnat]
    rw [UInt64.toNat_sub_of_le _ _ hle, hk, hjnat]
    rfl

theorem substr_between {u : List UInt8} (hs : s.length ≤ maxSize) (hk : k ≤ s.length)
    (ho : ∀ j ∈ o, k ≤ j ∧ j ≤ maxSize) (h : ByteString.substr s k (o.map (· - k)) = some u) :
    substr s (toSize (some k)) (toSize o - toSize (some k)) = .ok u := by
  have hpos : (toSize (some k)).toNat = k := toNat_toSize_some (by omega)
  have hcount : (s.drop k).take (toSize o - toSize (some k)).toNat = prefixOf (s.drop k) (o.map (· - k)) :=
    take_toSize_sub (by rw [List.length_drop]; omega) ho
  rw [ByteString.substr_of_le hk] at h
  rw [substr, hpos, if_neg (Nat.not_lt.mpr hk), hcount]
  exact congrArg Except.ok (Option.some.inj h)

theorem take_toSize (hs : t.length ≤ maxSize) (ho : ∀ j ∈ o, j ≤ maxSize) :
    t.take (toSize o).toNat = prefixOf t o := by
  have h := take_toSize_sub (t := t) (k := 0) (o := o) (by omega) fun j hj => ⟨j.zero_le, ho j hj⟩
  have hzero : toSize o - toSize (some 0) = toSize o := UInt64.sub_zero _
  simpa [hzero] using h

theorem erase_eq {u : List UInt8} (h : ByteString.erase s pos.toNat o = some u)
    (hcount : (s.drop pos.toNat).take count.toNat = prefixOf (s.drop pos.toNat) o) :
    erase s pos count = .ok u := by
  have hdrop : (s.drop pos.toNat).drop count.toNat =
      (s.drop pos.toNat).drop (prefixOf (s.drop pos.toNat) o).length := by
    rw [← hcount, List.length_take]
    rcases Nat.le_total count.toNat (s.drop pos.toNat).length with hle | hle
    · rw [Nat.min_eq_left hle]
    · rw [Nat.min_eq_right hle, List.drop_length, List.drop_of_length_le hle]
  rw [ByteString.erase] at h
  split at h
  · next hle =>
    rw [erase, if_neg (Nat.not_lt.mpr hle), hdrop]
    exact congrArg Except.ok (Option.some.inj h)
  · cases h

theorem erase_prefix {u : List UInt8} (hs : s.length ≤ maxSize) (ho : ∀ j ∈ o, j ≤ maxSize)
    (h : ByteString.erase s 0 o = some u) : erase s 0 (toSize o) = .ok u := by
  have herase : ByteString.erase s (0 : UInt64).toNat o = some u := h
  exact erase_eq herase (take_toSize hs ho)

theorem erase_rest {u : List UInt8} (hs : s.length ≤ maxSize) (ho : ∀ j ∈ o, j ≤ maxSize)
    (h : ByteString.erase s (next o) none = some u) : erase s (toSize o + 1) npos = .ok u := by
  have hpos : (toSize o + 1).toNat = next o := toNat_toSize_add_one ho
  refine erase_eq (o := none) (hpos ▸ h) (take_toSize (o := none) ?_ (by rintro _ ⟨⟩))
  rw [List.length_drop]
  omega

theorem findFirstNotOf_le (hs : s.length ≤ maxSize) (chars : List UInt8) :
    ∀ j ∈ ByteString.findFirstNotOf s chars, j ≤ maxSize := by
  intro j hj
  have hlt := position_lt hj
  omega

theorem findLastNotOf_le (hs : s.length ≤ maxSize) (chars : List UInt8) :
    ∀ j ∈ ByteString.findLastNotOf s chars, j ≤ maxSize := by
  intro j hj
  obtain ⟨i, -, rfl⟩ := Option.map_eq_some_iff.mp hj
  omega

theorem trim_eq {u chars : List UInt8} (hs : s.length ≤ maxSize)
    (h : ((ByteString.erase s 0 (ByteString.findFirstNotOf s chars)).bind fun t =>
      ByteString.erase t (next (ByteString.findLastNotOf t chars)) none) = some u) :
    (erase s 0 (findFirstNotOf s chars) >>= fun t => erase t (findLastNotOf t chars + 1) npos) =
      .ok u := by
  obtain ⟨front, hfront, hback⟩ := Option.bind_eq_some_iff.mp h
  have hfrontle : front.length ≤ maxSize := (ByteString.length_of_erase hfront).trans hs
  have hfirst : erase s 0 (findFirstNotOf s chars) = .ok front :=
    erase_prefix hs (findFirstNotOf_le hs chars) hfront
  rw [hfirst]
  exact erase_rest hfrontle (findLastNotOf_le hfrontle chars) hback

end

end StdString
