import Std.Data.ExtTreeMap

namespace TreeMap

theorem lt_of_compare {a b : String} (h : compare a b = .lt) : a < b := by
  change compareOfLessAndEq a b = .lt at h
  unfold compareOfLessAndEq at h
  split at h
  · assumption
  · split at h <;> cases h

variable {α β : Type} [Ord α] [Std.TransOrd α] [Std.LawfulEqOrd α] [BEq α] [LawfulBEq α]

theorem ofList_of_perm {m : Std.ExtTreeMap α β compare} {l : List (α × β)} (h : l.Perm m.toList) :
    Std.ExtTreeMap.ofList l compare = m := by
  have hdistinct : l.Pairwise fun a b => ¬ compare a.1 b.1 = .eq :=
    (h.pairwise_iff fun hab heq => hab (Std.OrientedCmp.eq_comm.mp heq)).mpr Std.ExtTreeMap.distinct_keys_toList
  apply Std.ExtTreeMap.ext_getElem?
  intro k
  cases hk : m[k]? with
  | some v =>
    have hmem : (k, v) ∈ l := h.mem_iff.mpr (Std.ExtTreeMap.mem_toList_iff_getElem?_eq_some.mpr hk)
    exact Std.ExtTreeMap.getElem?_ofList_of_mem Std.ReflCmp.compare_self hdistinct hmem
  | none =>
    rw [Std.ExtTreeMap.getElem?_ofList_of_contains_eq_false]
    rw [Bool.eq_false_iff, ne_eq, List.contains_iff_mem, List.mem_map]
    rintro ⟨⟨k', v⟩, hmem, rfl⟩
    rw [h.mem_iff, Std.ExtTreeMap.mem_toList_iff_getElem?_eq_some, hk] at hmem
    cases hmem

theorem ofList_toList (m : Std.ExtTreeMap α β compare) : Std.ExtTreeMap.ofList m.toList compare = m :=
  ofList_of_perm (.refl _)

end TreeMap
