import Mathlib.Data.List.Induction
import PlatformHealth.Library.Runs

namespace Runs

variable {S A B : Type} (step : S → A → S) (out : S → A → Option B)

def trace : S → List A → List B
  | _, [] => []
  | s, a :: as => (out s a).toList ++ trace (step s a) as

variable {step out}

theorem trace_append (s : S) (as bs : List A) :
    trace step out s (as ++ bs) = trace step out s as ++ trace step out (run step s as) bs := by
  induction as generalizing s with
  | nil => rfl
  | cons a as ih => rw [List.cons_append, trace, trace, ih, run_cons, List.append_assoc]

theorem trace_concat (s : S) (as : List A) (a : A) :
    trace step out s (as ++ [a]) = trace step out s as ++ (out (run step s as) a).toList := by
  rw [trace_append, trace, trace, List.append_nil]

theorem exists_of_trace_eq {s : S} {as : List A} {before after : List B} {b : B}
    (h : trace step out s as = before ++ b :: after) :
    ∃ pre a post, as = pre ++ a :: post ∧ trace step out s pre = before ∧
      out (run step s pre) a = some b ∧ trace step out (step (run step s pre) a) post = after := by
  induction as generalizing s before with
  | nil =>
    rw [trace] at h
    exact absurd h (by simp)
  | cons a as ih =>
    rw [trace] at h
    cases hout : out s a with
    | none =>
      rw [hout] at h
      obtain ⟨pre, c, post, rfl, hpre, hc, hpost⟩ := ih h
      refine ⟨a :: pre, c, post, rfl, ?_, hc, hpost⟩
      rw [trace, hout, hpre]
      rfl
    | some first =>
      rw [hout] at h
      cases before with
      | nil =>
        obtain ⟨rfl, htail⟩ := List.cons.inj h
        exact ⟨[], a, as, rfl, rfl, hout, htail⟩
      | cons x before =>
        obtain ⟨rfl, htail⟩ := List.cons.inj h
        obtain ⟨pre, c, post, rfl, hpre, hc, hpost⟩ := ih htail
        refine ⟨a :: pre, c, post, rfl, ?_, hc, hpost⟩
        rw [trace, hout, hpre]
        rfl

theorem run_unless {P : S → Prop} {b : B}
    (hstep : ∀ s a, P s → out s a ≠ some b → P (step s a)) {s : S} {as : List A} (h : P s)
    (hnot : b ∉ trace step out s as) : P (run step s as) := by
  induction as generalizing s with
  | nil => exact h
  | cons a as ih =>
    rw [trace, List.mem_append, not_or] at hnot
    exact ih (hstep s a h fun hout => hnot.1 (by simp [hout])) hnot.2

theorem trace_invariant_of_mem {I : List B → S → Prop} {s : S} {as : List A}
    (hstep : ∀ seen s, ∀ a ∈ as, I seen s → I (seen ++ (out s a).toList) (step s a)) (h : I [] s) :
    I (trace step out s as) (run step s as) := by
  induction as using List.reverseRecOn with
  | nil => exact h
  | append_singleton as a ih =>
    rw [trace_concat, run_append]
    exact hstep _ _ a (by simp) (ih fun seen s b hb => hstep seen s b (by simp [hb]))

theorem trace_invariant {I : List B → S → Prop}
    (hstep : ∀ seen s a, I seen s → I (seen ++ (out s a).toList) (step s a)) {s : S} (h : I [] s)
    (as : List A) : I (trace step out s as) (run step s as) :=
  trace_invariant_of_mem (fun seen s a _ => hstep seen s a) h

end Runs
