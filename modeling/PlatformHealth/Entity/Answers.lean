import PlatformHealth.Entity.Run

namespace PlatformHealth

namespace SupervisedEntity

variable {μ ε : Type}

def answers (readings : Nat → ε) : Nat → List μ → List (μ × ε)
  | _, [] => []
  | i, mon :: rest => (mon, readings i) :: answers readings (i + 1) rest

def withAnswers (se : SupervisedEntity μ) (answered : List (μ × ε)) : SupervisedEntity μ :=
  { se with monitors := answered.map Prod.fst }

def readingsOf (answered : List (μ × ε)) (readings : Nat → ε) : Nat → ε :=
  fun i => (answered[i]?.map Prod.snd).getD (readings i)

theorem getElem?_answers (readings : Nat → ε) (i j : Nat) (mons : List μ) :
    (answers readings i mons)[j]? = mons[j]?.map fun mon => (mon, readings (i + j)) := by
  induction mons generalizing i j with
  | nil => simp [answers]
  | cons mon rest ih =>
    cases j with
    | zero => simp [answers]
    | succ j =>
      have hrest := ih (i + 1) j
      rw [show i + 1 + j = i + (j + 1) by omega] at hrest
      simpa [answers] using hrest

theorem answers_readingsOf (answered : List (μ × ε)) (readings : Nat → ε) :
    answers (readingsOf answered readings) 0 (answered.map Prod.fst) = answered := by
  apply List.ext_getElem?
  intro j
  rw [getElem?_answers]
  cases h : answered[j]? with
  | none => simp [h]
  | some p => simp [h, readingsOf]

theorem readingsOf_answers (readings : Nat → ε) (mons : List μ) :
    readingsOf (answers readings 0 mons) readings = readings := by
  funext j
  rw [readingsOf, getElem?_answers]
  cases h : mons[j]? <;> simp

theorem map_fst_answers (readings : Nat → ε) (i : Nat) (mons : List μ) :
    (answers readings i mons).map Prod.fst = mons := by
  induction mons generalizing i with
  | nil => rfl
  | cons mon rest ih => simp [answers, ih]

variable [IMonitor μ ε]

def reported (p : μ × ε) : Option PhmEvent :=
  match (IMonitor.check p.1 p.2).outcome with
  | .error _ => none
  | .ok evt => if evt.id = "" then none else some evt

structure Returns (p : μ × ε) : Prop where
  raised : (IMonitor.check p.1 p.2).raised = []
  outcome : ∃ evt, (IMonitor.check p.1 p.2).outcome = .ok evt

theorem returns_reporting (p : ReportingMonitor × Report) : Returns p := by
  cases h : p.2.fault <;>
    exact ⟨by simp [IMonitor.check, ReportingMonitor.check, h],
      by simp [IMonitor.check, ReportingMonitor.check, h]⟩

theorem processed_of_returns {readings : Nat → ε} {i : Nat} {mons : List μ}
    (h : ∀ p ∈ answers readings i mons, Returns p) :
    processed readings i mons = (answers readings i mons).filterMap reported := by
  induction mons generalizing i with
  | nil => rfl
  | cons mon rest ih =>
    obtain ⟨hraised, evt, hout⟩ := h (mon, readings i) (by simp [answers])
    have hrest := ih (i := i + 1) fun p hp => h p (by simp [answers, hp])
    simp only [processed, answers, List.filterMap_cons, reported, hraised, hout, List.nil_append, hrest]
    split <;> rfl

end SupervisedEntity

end PlatformHealth
