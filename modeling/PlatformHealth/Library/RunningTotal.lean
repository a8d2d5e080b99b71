import Mathlib.Algebra.GroupWithZero.Nat
import Mathlib.Data.List.Basic
import Mathlib.Data.List.Induction

-- a counter of bounded width that is never put back, held against totals by period
namespace RunningTotal

section
variable {A D : Type} [DecidableEq D] (size : A → Nat) (period : A → D)

def total (as : List A) : Nat := (as.map size).sum

def totalIn (d : D) (as : List A) : Nat := total size (as.filter fun a => period a = d)

variable {size period} {as : List A} {a : A} {w : Nat}

theorem total_concat (as : List A) (a : A) : total size (as ++ [a]) = total size as + size a := by
  simp [total]

theorem totalIn_of_same (h : ∀ b ∈ as, period b = period a) :
    totalIn size period (period a) (as ++ [a]) = total size (as ++ [a]) := by
  rw [totalIn, List.filter_eq_self.mpr]
  intro b hb
  rcases List.mem_append.mp hb with hb | hb
  · exact decide_eq_true (h b hb)
  · rw [List.mem_singleton.mp hb, decide_eq_true rfl]

theorem totalIn_of_other (h : ∀ b ∈ as, period b ≠ period a) :
    totalIn size period (period a) (as ++ [a]) = size a := by
  have hnone : as.filter (fun b => period b = period a) = [] :=
    List.filter_eq_nil_iff.mpr fun b hb => by simpa using h b hb
  simp [totalIn, total, hnone]

theorem add_mod_ne {left new : Nat} (hpos : 0 < left) (hleft : left < w) (hnew : new < w) :
    (left + new) % w ≠ new := by
  rcases Nat.lt_or_ge (left + new) w with hlt | hge
  · rw [Nat.mod_eq_of_lt hlt]
    omega
  · rw [Nat.mod_eq_sub_mod hge, Nat.mod_eq_of_lt (by omega)]
    omega

theorem total_pos (hpos : ∀ a, 0 < size a) (h : as ≠ []) : 0 < total size as := by
  cases as with
  | nil => exact absurd rfl h
  | cons b as => exact Nat.lt_of_lt_of_le (hpos b) (by simp [total])

def Exact (size : A → Nat) (period : A → D) (w : Nat) (as : List A) : Prop :=
  ∀ pre a post, as = pre ++ a :: post → total size (pre ++ [a]) % w = totalIn size period (period a) (pre ++ [a])

theorem exact_of_same (hsame : ∀ a ∈ as, ∀ b ∈ as, period a = period b) (htotal : total size as < w) :
    Exact size period w as := by
  rintro pre a post rfl
  have hle : total size (pre ++ [a]) ≤ total size (pre ++ a :: post) := by
    simp only [total, List.map_append, List.map_cons, List.map_nil, List.sum_append_nat, List.sum_cons, List.sum_nil]
    omega
  rw [Nat.mod_eq_of_lt (Nat.lt_of_le_of_lt hle htotal),
    totalIn_of_same fun b hb => hsame b (by simp [hb]) a (by simp)]

theorem same_of_exact (hpos : ∀ a, 0 < size a) (hlt : ∀ a, size a < w) (hw : 0 < w)
    (h : Exact size period w as) :
    (∀ a ∈ as, ∀ b ∈ as, period a = period b) ∧ total size as < w := by
  induction as using List.reverseRecOn with
  | nil => exact ⟨by simp, hw⟩
  | append_singleton as a ih =>
    obtain ⟨hsame, htotal⟩ := ih fun pre b post heq => h pre b (post ++ [a]) (by simp [heq])
    have hlast := h as a [] rfl
    have hperiod : ∀ b ∈ as, period b = period a := by
      by_contra hother
      obtain ⟨b, hb, hne⟩ : ∃ b ∈ as, period b ≠ period a := by simpa using hother
      have hall : ∀ c ∈ as, period c ≠ period a := fun c hc heq => hne ((hsame b hb c hc).trans heq)
      rw [totalIn_of_other hall, total_concat] at hlast
      exact add_mod_ne (total_pos hpos (List.ne_nil_of_mem hb)) htotal (hlt a) hlast
    have hlast : total size (as ++ [a]) % w = total size (as ++ [a]) :=
      hlast.trans (totalIn_of_same hperiod)
    have hall : ∀ c ∈ as ++ [a], period c = period a := by
      intro c hc
      rcases List.mem_append.mp hc with hc | hc
      · exact hperiod c hc
      · rw [List.mem_singleton.mp hc]
    exact ⟨fun c hc d hd => (hall c hc).trans (hall d hd).symm, (Nat.mod_eq_iff_lt (Nat.ne_of_gt hw)).mp hlast⟩

theorem exact_iff_same_period (hpos : ∀ a, 0 < size a) (hlt : ∀ a, size a < w) (hw : 0 < w) (as : List A) :
    Exact size period w as ↔ (∀ a ∈ as, ∀ b ∈ as, period a = period b) ∧ total size as < w :=
  ⟨same_of_exact hpos hlt hw, fun h => exact_of_same h.1 h.2⟩

end

end RunningTotal
