import Mathlib.Data.List.Basic
import Mathlib.Logic.Relation

namespace Precedence

open Relation

variable {A : Type} {R lt : A → A → Prop} {l pre post : List A} {a b : A}

def Precedes (R : A → A → Prop) (l : List A) : Prop :=
  ∀ pre a post, l = pre ++ a :: post → ∀ b, R a b → b ∈ pre

theorem Precedes.transGen (h : Precedes R l) : Precedes (TransGen R) l := by
  intro pre a post hl b hab
  induction hab with
  | single hab => exact h pre a post hl _ hab
  | tail _ hbc ih =>
    obtain ⟨before, between, rfl⟩ := List.append_of_mem ih
    refine List.mem_append_left _ (h before _ (between ++ a :: post) ?_ _ hbc)
    rw [hl, List.append_assoc, List.cons_append]

theorem precedes_transGen_iff : Precedes (TransGen R) l ↔ Precedes R l := by
  constructor
  · intro h pre a post hl b hab
    exact h pre a post hl b (.single hab)
  · exact Precedes.transGen

theorem mem_left_of_sorted (hasymm : ∀ x y, lt x y → ¬ lt y x)
    (hl : (pre ++ a :: post).Pairwise lt) (hb : b ∈ pre ++ a :: post) (hlt : lt b a) : b ∈ pre := by
  obtain ⟨-, hright, -⟩ := List.pairwise_append.mp hl
  rcases List.mem_append.mp hb with hpre | hpost
  · exact hpre
  · rcases List.mem_cons.mp hpost with rfl | hpost
    · exact absurd hlt (hasymm b b hlt)
    · exact absurd (List.rel_of_pairwise_cons hright hpost) (hasymm b a hlt)

theorem precedes_iff_of_sorted (hasymm : ∀ x y, lt x y → ¬ lt y x) (hl : l.Pairwise lt) :
    Precedes R l ↔ ∀ a ∈ l, ∀ b, R a b → b ∈ l ∧ lt b a := by
  constructor
  · intro h a ha b hab
    obtain ⟨pre, post, rfl⟩ := List.append_of_mem ha
    have hb : b ∈ pre := h pre a post rfl b hab
    exact ⟨List.mem_append_left _ hb, (List.pairwise_append.mp hl).2.2 b hb a List.mem_cons_self⟩
  · rintro h pre a post rfl b hab
    obtain ⟨hb, hlt⟩ := h a (by simp) b hab
    exact mem_left_of_sorted hasymm hl hb hlt

end Precedence
