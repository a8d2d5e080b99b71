import Mathlib.Data.List.GetD
import Mathlib.Data.List.Nodup

namespace StoreHistory

variable {V : Type}

def after (initial : V) (stores : List V) (n : Nat) : V := (initial :: stores).getD n initial

section
variable {v x : V} {stores : List V} {m n : Nat}

@[simp] theorem after_zero : after v stores 0 = v := rfl

theorem after_append (more : List V) (h : n ≤ stores.length) :
    after v (stores ++ more) n = after v stores n := by
  rw [after, after, ← List.cons_append, List.getD_append _ _ _ _ (by simpa using Nat.lt_succ_of_le h)]

theorem after_concat : after v (stores ++ [x]) (stores ++ [x]).length = x := by
  rw [after, List.length_append, List.length_singleton, List.getD_cons_succ,
    List.getD_append_right _ _ _ _ (Nat.le_refl _), Nat.sub_self]
  rfl

theorem after_mem (h : n ≤ stores.length) : after v stores n ∈ v :: stores := by
  have hlt : n < (v :: stores).length := by simpa using Nat.lt_succ_of_le h
  rw [after, List.getD_eq_getElem _ _ hlt]
  exact List.getElem_mem hlt

theorem after_inj (h : (v :: stores).Nodup) (hm : m ≤ stores.length) (hn : n ≤ stores.length) :
    after v stores m = after v stores n ↔ m = n := by
  have hlt {k : Nat} (hk : k ≤ stores.length) : k < (v :: stores).length := by
    simpa using Nat.lt_succ_of_le hk
  rw [after, after, List.getD_eq_getElem _ _ (hlt hm), List.getD_eq_getElem _ _ (hlt hn)]
  exact h.getElem_inj_iff

end

end StoreHistory
