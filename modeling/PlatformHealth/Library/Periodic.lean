import Mathlib.Data.Nat.ModEq
import Mathlib.Tactic.Linarith

namespace Periodic

variable {A B : Type}

def EveryNth (n c : Nat) (P : A → Prop) (xs : List A) : Prop :=
  ∀ k x, xs[k]? = some x → n ∣ c + k + 1 → P x

variable {n c : Nat} {P : A → Prop}

@[simp] theorem everyNth_nil : EveryNth n c P [] := by
  intro k x hx
  simp at hx

theorem everyNth_cons (x : A) (xs : List A) :
    EveryNth n c P (x :: xs) ↔ (n ∣ c + 1 → P x) ∧ EveryNth n (c + 1) P xs := by
  constructor
  · intro h
    refine ⟨h 0 x rfl, fun k y hy hdvd => h (k + 1) y hy ?_⟩
    rwa [show c + (k + 1) + 1 = c + 1 + k + 1 by omega]
  · rintro ⟨hx, hxs⟩ k y hy hdvd
    cases k with
    | zero =>
      cases hy
      exact hx hdvd
    | succ k =>
      refine hxs k y hy ?_
      rwa [show c + 1 + k + 1 = c + (k + 1) + 1 by omega]

theorem everyNth_congr {b : Nat} (h : b ≡ c [MOD n]) (xs : List A) :
    EveryNth n b P xs ↔ EveryNth n c P xs := by
  have hdvd (k : Nat) : n ∣ b + k + 1 ↔ n ∣ c + k + 1 := by
    have hk : b + k + 1 ≡ c + k + 1 [MOD n] := (h.add_right k).add_right 1
    rw [← Nat.modEq_zero_iff_dvd, ← Nat.modEq_zero_iff_dvd]
    exact ⟨hk.symm.trans, hk.trans⟩
  simp only [EveryNth, hdvd]

theorem everyNth_map (f : B → A) (xs : List B) :
    EveryNth n c P (xs.map f) ↔ EveryNth n c (fun x => P (f x)) xs := by
  constructor
  · intro h k x hx
    exact h k (f x) (by simp [hx])
  · intro h k y hy hdvd
    rw [List.getElem?_map] at hy
    obtain ⟨x, hx, rfl⟩ := Option.map_eq_some_iff.mp hy
    exact h k x hx hdvd

end Periodic
