import PlatformHealth.Library.Runs

namespace SampleHold

variable {A V : Type} (good : A → Prop) [DecidablePred good]

def hold (last a : A) : A := if good a then a else last

def held (last : A) (as : List A) : A := (as.filter (good ·)).getLastD last

section
variable {good}

theorem run_hold (last : A) (as : List A) : Runs.run (hold good) last as = held good last as := by
  induction as generalizing last with
  | nil => rfl
  | cons a as ih =>
    rw [Runs.run_cons, ih, hold, held, held]
    by_cases ha : good a
    · rw [if_pos ha, List.filter_cons_of_pos (by simp [ha]), List.getLastD_cons]
    · rw [if_neg ha, List.filter_cons_of_neg (by simp [ha])]

theorem each_hold_iff {f : A → V} (last : A) (as : List A) :
    Runs.Each (hold good) (fun last a => f (hold good last a) = f a) last as ↔
      ∀ pre a post, as = pre ++ a :: post → ¬ good a → f (held good last pre) = f a := by
  rw [Runs.each_iff_split]
  refine forall₄_congr fun pre a post heq => ?_
  rw [run_hold]
  by_cases ha : good a
  · simp [hold, ha]
  · simp [hold, ha]

end

end SampleHold
