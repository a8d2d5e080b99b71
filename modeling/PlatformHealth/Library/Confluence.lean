import PlatformHealth.Library.Runs
import Mathlib.Data.List.Perm.Basic
import Mathlib.Order.Lattice

namespace Runs

variable {S A L : Type} [SemilatticeSup L] (step : S → A → S) {J : S → Prop} {M : A → Prop}
  {rank : S → L} {gain : A → L}

section
variable (hJ : ∀ s a, J s → M a → J (step s a))
  (hrank : ∀ s a, J s → M a → rank (step s a) = rank s ⊔ gain a)
include hJ hrank

theorem rank_run {as : List A} (hM : ∀ a ∈ as, M a) {s : S} (hs : J s) :
    rank (run step s as) = (as.map gain).foldl (· ⊔ ·) (rank s) := by
  induction as generalizing s with
  | nil => rfl
  | cons a as ih =>
    have ha : M a := hM a (by simp)
    rw [run_cons, ih (fun b hb => hM b (by simp [hb])) (hJ s a hs ha), hrank s a hs ha]
    rfl

theorem run_perm_of_rank (hinj : Function.Injective rank) {as bs : List A} (hperm : as.Perm bs)
    (hM : ∀ a ∈ as, M a) {s : S} (hs : J s) : run step s as = run step s bs := by
  apply hinj
  have hMb : ∀ b ∈ bs, M b := fun b hb => hM b (hperm.mem_iff.mpr hb)
  rw [rank_run step hJ hrank hM hs, rank_run step hJ hrank hMb hs]
  refine (hperm.map gain).foldl_eq' ?_ (rank s)
  intro x _ y _ z
  exact sup_right_comm z x y

end

theorem exists_perm_filterMap {B : Type} {f : A → Option B} {bs cs : List B} (h : bs.Perm cs)
    {as : List A} (has : as.filterMap f = bs) : ∃ as', as.Perm as' ∧ as'.filterMap f = cs := by
  induction h generalizing as with
  | nil => exact ⟨as, .refl as, has⟩
  | @cons b bs cs _ ih =>
    obtain ⟨pre, a, post, rfl, hpre, ha, hpost⟩ := List.filterMap_eq_cons_iff.mp has
    have hrest : (pre ++ post).filterMap f = bs := by
      rw [List.filterMap_append, List.filterMap_eq_nil_iff.mpr hpre, List.nil_append, hpost]
    obtain ⟨as', hperm, has'⟩ := ih hrest
    exact ⟨a :: as', List.perm_middle.trans (hperm.cons a), by simp [ha, has']⟩
  | swap b c bs =>
    obtain ⟨pre, x, rest, rfl, hpre, hx, hrest⟩ := List.filterMap_eq_cons_iff.mp has
    obtain ⟨mid, y, post, rfl, hmid, hy, hpost⟩ := List.filterMap_eq_cons_iff.mp hrest
    have hskip : (pre ++ mid).filterMap f = [] := by
      rw [List.filterMap_append, List.filterMap_eq_nil_iff.mpr hpre,
        List.filterMap_eq_nil_iff.mpr hmid, List.nil_append]
    have hout : (pre ++ mid ++ post).filterMap f = bs := by
      rw [List.filterMap_append, hskip, hpost, List.nil_append]
    have hfront : (pre ++ x :: (mid ++ y :: post)).Perm (x :: (pre ++ mid ++ y :: post)) := by
      rw [List.append_assoc]
      exact List.perm_middle
    have hsecond : (pre ++ mid ++ y :: post).Perm (y :: (pre ++ mid ++ post)) := List.perm_middle
    refine ⟨y :: x :: (pre ++ mid ++ post), ?_, ?_⟩
    · exact hfront.trans ((hsecond.cons x).trans (.swap y x _))
    · simp only [List.filterMap_cons, hx, hy, hout]
  | trans _ _ ih ih' =>
    obtain ⟨as', hperm, has'⟩ := ih has
    obtain ⟨as'', hperm', has''⟩ := ih' has'
    exact ⟨as'', hperm.trans hperm', has''⟩

end Runs
