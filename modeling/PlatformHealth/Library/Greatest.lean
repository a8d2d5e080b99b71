import Mathlib.Order.Lattice
import Mathlib.Data.List.Basic

namespace Greatest

variable {A L : Type} [LinearOrder L] {rank : A → L} {a b s : A} {as pre post : List A}

def greatest (rank : A → L) (s : A) (as : List A) : A :=
  as.foldl (fun w a => if rank w < rank a then a else w) s

theorem rank_greatest_le_iff {n : L} :
    rank (greatest rank s as) ≤ n ↔ ∀ a ∈ s :: as, rank a ≤ n := by
  induction as generalizing s with
  | nil => simp [greatest]
  | cons a as ih =>
    have hstep : rank (if rank s < rank a then a else s) ≤ n ↔ rank s ≤ n ∧ rank a ≤ n := by
      split
      · next hlt => exact ⟨fun h => ⟨hlt.le.trans h, h⟩, And.right⟩
      · next hle => exact ⟨fun h => ⟨h, (not_lt.mp hle).trans h⟩, And.left⟩
    change rank (greatest rank (if rank s < rank a then a else s) as) ≤ n ↔ _
    rw [ih]
    simp only [List.forall_mem_cons, hstep, and_assoc]

theorem greatest_mem : greatest rank s as ∈ s :: as := by
  induction as generalizing s with
  | nil => simp [greatest]
  | cons a as ih =>
    have hrest := ih (s := if rank s < rank a then a else s)
    change greatest rank (if rank s < rank a then a else s) as ∈ _
    rcases List.mem_cons.mp hrest with heq | hmem
    · rw [heq]
      split <;> simp
    · simp [hmem]

theorem rank_le_greatest (h : a ∈ s :: as) : rank a ≤ rank (greatest rank s as) :=
  rank_greatest_le_iff.mp le_rfl a h

theorem greatest_replace_iff (hinj : Function.Injective rank) (hne : a ≠ b) :
    greatest rank s (pre ++ a :: post) = greatest rank s (pre ++ b :: post) ↔
      ∃ c ∈ s :: (pre ++ post), rank a ≤ rank c ∧ rank b ≤ rank c := by
  have hmem (x y : A) : y ∈ s :: (pre ++ x :: post) ↔ y = x ∨ y ∈ s :: (pre ++ post) := by
    simp only [List.mem_cons, List.mem_append]
    grind
  constructor
  · intro heq
    have ha : rank a ≤ rank (greatest rank s (pre ++ a :: post)) :=
      rank_le_greatest ((hmem a a).mpr (.inl rfl))
    have hb : rank b ≤ rank (greatest rank s (pre ++ b :: post)) :=
      rank_le_greatest ((hmem b b).mpr (.inl rfl))
    have hina : greatest rank s (pre ++ a :: post) ∈ s :: (pre ++ a :: post) := greatest_mem
    have hinb : greatest rank s (pre ++ b :: post) ∈ s :: (pre ++ b :: post) := greatest_mem
    rcases (hmem a _).mp hina with hisa | hother
    · rcases (hmem b _).mp hinb with hisb | hother
      · exact absurd (hisa.symm.trans (heq.trans hisb)) hne
      · exact ⟨_, hother, heq ▸ ha, hb⟩
    · exact ⟨_, hother, ha, heq ▸ hb⟩
  · rintro ⟨c, hc, hac, hbc⟩
    have hbound (x y : A) (hx : rank x ≤ rank c) :
        rank (greatest rank s (pre ++ x :: post)) ≤ rank (greatest rank s (pre ++ y :: post)) := by
      rw [rank_greatest_le_iff]
      intro z hz
      rcases (hmem x z).mp hz with rfl | hother
      · exact hx.trans (rank_le_greatest ((hmem y c).mpr (.inr hc)))
      · exact rank_le_greatest ((hmem y z).mpr (.inr hother))
    exact hinj (le_antisymm (hbound a b hac) (hbound b a hbc))

end Greatest
