import Mathlib.Data.List.Basic

namespace Descriptors

structure Table (F : Type) where
  limit : Nat
  slots : Fin limit → Option F

namespace Table

variable {F : Type}

def lookup (t : Table F) (n : Nat) : Option F := if h : n < t.limit then t.slots ⟨n, h⟩ else none

def put (t : Table F) (n : Nat) (f : Option F) : Table F where
  limit := t.limit
  slots i := if i.val = n then f else t.slots i

def close (t : Table F) (n : Nat) : Table F := t.put n none

def dup2 (t : Table F) (old new : Nat) : Table F := t.put new (t.lookup old)

def lowest (t : Table F) : Option Nat := (List.range t.limit).find? fun n => (t.lookup n).isNone

def closeAll (t : Table F) : Table F := (List.range t.limit).foldl close t

section
variable {t : Table F} {n m : Nat} {f : Option F} {g : F}

@[simp] theorem limit_put : (t.put n f).limit = t.limit := rfl

theorem lt_of_lookup (h : t.lookup n = some g) : n < t.limit := by
  by_contra hge
  rw [lookup, dif_neg hge] at h
  cases h

theorem lookup_put (t : Table F) (n : Nat) (f : Option F) (m : Nat) :
    (t.put n f).lookup m = if m = n ∧ m < t.limit then f else t.lookup m := by
  rcases Nat.lt_or_ge m t.limit with hlt | hge
  · simp [lookup, put, hlt]
  · simp [lookup, put, Nat.not_lt.mpr hge]

theorem lookup_put_self (h : n < t.limit) : (t.put n f).lookup n = f := by
  rw [lookup_put, if_pos ⟨rfl, h⟩]

theorem lookup_put_ne (h : m ≠ n) : (t.put n f).lookup m = t.lookup m := by
  rw [lookup_put, if_neg fun hboth => h hboth.1]

theorem lookup_put_cases (h : (t.put n f).lookup m = some g) : f = some g ∨ t.lookup m = some g := by
  rw [lookup_put] at h
  split at h
  · exact .inl h
  · exact .inr h

theorem lowest_spec (h : t.lowest = some n) : n < t.limit ∧ t.lookup n = none := by
  have hfree := List.find?_some h
  exact ⟨List.mem_range.mp (List.mem_of_find?_eq_some h), by simpa using hfree⟩

theorem lowest_ne_none (hlt : n < t.limit) (hfree : t.lookup n = none) : t.lowest ≠ none := by
  intro hnone
  have htaken := List.find?_eq_none.mp hnone n (List.mem_range.mpr hlt)
  exact htaken (by rw [hfree]; rfl)

theorem lookup_foldl_close (ns : List Nat) (t : Table F) (h : m ∈ ns ∨ t.lookup m = none) :
    (ns.foldl close t).lookup m = none := by
  induction ns generalizing t with
  | nil => simpa using h
  | cons n ns ih =>
    refine ih (t.close n) ?_
    rcases h with hmem | hnone
    · rcases List.mem_cons.mp hmem with rfl | hmem
      · refine .inr ?_
        rw [close, lookup_put]
        split
        · rfl
        · next hout => exact dif_neg fun hlt => hout ⟨rfl, hlt⟩
      · exact .inl hmem
    · refine .inr ?_
      rw [close, lookup_put]
      split
      · rfl
      · exact hnone

theorem lookup_closeAll (t : Table F) (m : Nat) : t.closeAll.lookup m = none := by
  refine lookup_foldl_close _ t ?_
  rcases Nat.lt_or_ge m t.limit with hlt | hge
  · exact .inl (List.mem_range.mpr hlt)
  · exact .inr (dif_neg (Nat.not_lt.mpr hge))

end

end Table

end Descriptors
