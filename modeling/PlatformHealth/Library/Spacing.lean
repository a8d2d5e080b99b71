import Mathlib.Data.List.Basic
import Mathlib.Data.List.Pairwise

namespace Spacing

theorem length_le_of_spaced {times : List Int} {span since last : Int} (hspan : 0 < span)
    (hspaced : times.Pairwise fun s t => span ≤ t - s)
    (hwithin : ∀ t ∈ times, since ≤ t ∧ t ≤ last) :
    times.length ≤ ((last - since) / span + 1).toNat := by
  induction times generalizing since with
  | nil => exact Nat.zero_le _
  | cons t times ih =>
    obtain ⟨hlater, hmore⟩ := List.pairwise_cons.mp hspaced
    obtain ⟨hsince, hlast⟩ := hwithin t (by simp)
    have hrest : ∀ u ∈ times, since + span ≤ u ∧ u ≤ last := by
      intro u hu
      have hu' := hlater u hu
      have hbound := (hwithin u (by simp [hu])).2
      omega
    have hcount := ih hmore hrest
    have hdiv : (last - (since + span)) / span = (last - since) / span - 1 := by
      rw [← Int.sub_sub, Int.sub_ediv_of_dvd _ (Int.dvd_refl span), Int.ediv_self (by omega)]
    have hpos : 0 ≤ (last - since) / span := Int.ediv_nonneg (by omega) (by omega)
    rw [hdiv] at hcount
    rw [List.length_cons]
    omega

theorem length_le_of_keys {α κ : Type} [DecidableEq κ] {key : α → κ} {keys : List κ} {items : List α}
    {n : Nat} (hkeys : ∀ x ∈ items, key x ∈ keys) (heach : ∀ k, (items.filter fun x => key x = k).length ≤ n) :
    items.length ≤ keys.length * n := by
  induction keys generalizing items with
  | nil =>
    have hnone : items = [] := List.eq_nil_iff_forall_not_mem.mpr fun x hx => absurd (hkeys x hx) (by simp)
    rw [hnone]
    exact Nat.zero_le _
  | cons k keys ih =>
    have hrest : (items.filter fun x => !decide (key x = k)).length ≤ keys.length * n := by
      refine ih ?_ ?_
      · intro x hx
        obtain ⟨hmem, hother⟩ := List.mem_filter.mp hx
        rcases List.mem_cons.mp (hkeys x hmem) with heq | hin
        · exact absurd heq (by simpa using hother)
        · exact hin
      · intro j
        exact Nat.le_trans (List.filter_sublist.filter _).length_le (heach j)
    have hk := heach k
    have hsplit := List.length_eq_length_filter_add (l := items) fun x => decide (key x = k)
    rw [List.length_cons, Nat.succ_mul]
    omega

end Spacing
