import PlatformHealth.Entity.Counters

namespace PlatformHealth

open SupervisedEntity

variable {μ ε : Type} [IMonitor μ ε]

inductive Call (ε : Type) where
  | event (event : PhmEvent)
  | start (readings : Nat → ε)
  | reset

def Call.op : Call ε → EntityOp μ ε
  | .event e => .onMonitorEvent e
  | .start readings => .start readings
  | .reset => .reset

structure Watched (μ : Type) where
  entity : SupervisedEntity μ
  confirmed : List (String × SeState) := []

def confirms (old new : SeState) : Prop := new ≠ old ∧ seStateToIndex .warn ≤ seStateToIndex new

instance (old new : SeState) : Decidable (confirms old new) :=
  inferInstanceAs (Decidable (_ ∧ _))

namespace Watched

def call (w : Watched μ) (c : Call ε) : Watched μ where
  entity := w.entity.apply (c.op (μ := μ))
  confirmed :=
    match c with
    | .event e =>
      if e.severity = .info then w.confirmed.filter (·.1 ≠ e.sourceMonitor)
      else if confirms w.entity.currentState (w.entity.apply (c.op (μ := μ))).currentState then
        (e.sourceMonitor, (w.entity.apply (c.op (μ := μ))).currentState) :: w.confirmed
      else w.confirmed
    | .start _ => w.confirmed
    | .reset => []

def Covered (w : Watched μ) : Prop :=
  ∀ p ∈ w.confirmed, seStateToIndex p.2 ≤ seStateToIndex w.entity.currentState

def Severe (w : Watched μ) : Prop :=
  ∀ p ∈ w.confirmed, seStateToIndex .warn ≤ seStateToIndex p.2

def Unmasking (w : Watched μ) (c : Call ε) : Prop :=
  ∀ e, c = .event e → e.severity = .info → (findConfig w.entity.config e.sourceMonitor).isSome →
    w.entity.currentState ≠ .fatal → ∀ p ∈ w.confirmed, p.1 = e.sourceMonitor

end Watched

theorem currentState_apply_event (se : SupervisedEntity μ) (e : PhmEvent) :
    (se.apply (Call.op (μ := μ) (ε := ε) (.event e))).currentState = (handle e se.core).currentState :=
  congrArg (fun t : SupervisedEntity Empty => t.currentState) (core_onMonitorEvent e se)

theorem handle_info {se : SupervisedEntity Empty} {e : PhmEvent} (hsev : e.severity = .info) :
    (handle e se).currentState =
      if (findConfig se.config e.sourceMonitor).isSome ∧ se.currentState ≠ .fatal then .running
      else se.currentState := by
  cases hmc : findConfig se.config e.sourceMonitor with
  | none => simp [handle_none hmc]
  | some mc =>
    rw [currentState_handle hmc, hsev]
    cases hs : se.currentState <;> rfl

namespace Watched

theorem severe_call {w : Watched μ} (h : w.Severe) (c : Call ε) : (w.call c).Severe := by
  cases c with
  | event e =>
    intro p hp
    simp only [call] at hp
    split_ifs at hp with hinfo hconf
    · exact h p (List.mem_filter.mp hp).1
    · rcases List.mem_cons.mp hp with rfl | hmem
      · exact hconf.2
      · exact h p hmem
    · exact h p hp
  | start readings => exact h
  | reset => simp [Severe, call]

theorem covered_of_mono {w : Watched μ} {c : Call ε} (h : w.Covered)
    (hup : seStateToIndex w.entity.currentState ≤ seStateToIndex (w.call c).entity.currentState)
    (hnew : ∀ p ∈ (w.call c).confirmed, p ∈ w.confirmed ∨ p.2 = (w.call c).entity.currentState) :
    (w.call c).Covered := by
  intro p hp
  rcases hnew p hp with hold | hnow
  · exact (h p hold).trans hup
  · rw [hnow]

theorem covered_fault {w : Watched μ} (h : w.Covered) {e : PhmEvent} (hsev : e.severity ≠ .info) :
    (w.call (.event e : Call ε)).Covered := by
  refine covered_of_mono h ?_ ?_
  · have hup := handle_mono hsev w.entity.core
    rw [← currentState_apply_event (ε := ε)] at hup
    exact hup
  · intro p hp
    simp only [call, hsev, if_false] at hp
    split_ifs at hp
    · rcases List.mem_cons.mp hp with rfl | hmem
      · exact .inr rfl
      · exact .inl hmem
    · exact .inl hp

theorem covered_info {w : Watched μ} (hsevere : w.Severe) (h : w.Covered) {e : PhmEvent}
    (hsev : e.severity = .info) :
    (w.call (.event e : Call ε)).Covered ↔ w.Unmasking (.event e : Call ε) := by
  have hstate : (w.call (.event e : Call ε)).entity.currentState =
      if (findConfig w.entity.config e.sourceMonitor).isSome ∧ w.entity.currentState ≠ .fatal then
        .running
      else w.entity.currentState :=
    (currentState_apply_event w.entity e).trans (handle_info hsev)
  have hconf : (w.call (.event e : Call ε)).confirmed =
      w.confirmed.filter (·.1 ≠ e.sourceMonitor) := if_pos hsev
  by_cases hmoves : (findConfig w.entity.config e.sourceMonitor).isSome ∧
      w.entity.currentState ≠ .fatal
  · rw [if_pos hmoves] at hstate
    simp only [Covered, hstate, hconf]
    constructor
    · rintro hcov e' ⟨⟩ - - - p hp
      by_contra hne
      have hlow := hcov p (List.mem_filter.mpr ⟨hp, by simpa using hne⟩)
      have hhigh := hsevere p hp
      simp only [seStateToIndex] at hlow hhigh
      omega
    · intro hun p hp
      obtain ⟨hmem, hne⟩ := List.mem_filter.mp hp
      exact absurd (hun e rfl hsev hmoves.1 hmoves.2 p hmem) (by simpa using hne)
  · rw [if_neg hmoves] at hstate
    constructor
    · rintro - e' ⟨⟩ - hsome hfatal
      exact absurd ⟨hsome, hfatal⟩ hmoves
    · intro _ p hp
      rw [hconf] at hp
      rw [hstate]
      exact h p (List.mem_filter.mp hp).1

theorem covered_call {w : Watched μ} (hsevere : w.Severe) (h : w.Covered) (c : Call ε) :
    (w.call c).Covered ↔ w.Unmasking c := by
  cases c with
  | event e =>
    by_cases hsev : e.severity = .info
    · exact covered_info hsevere h hsev
    · refine iff_of_true (covered_fault h hsev) ?_
      rintro e' ⟨⟩ hinfo
      exact absurd hinfo hsev
  | start readings =>
    refine iff_of_true (covered_of_mono h ?_ (fun p hp => .inl hp)) (by rintro e' ⟨⟩)
    have hcore := core_apply w.entity (.start readings)
    have hstate := congrArg (fun t : SupervisedEntity Empty => t.currentState) hcore
    change seStateToIndex w.entity.currentState ≤
      seStateToIndex (w.entity.apply (.start readings)).currentState
    rw [show (w.entity.apply (.start readings)).currentState = _ from hstate]
    simp only [actions]
    split_ifs
    · by_cases hinit : w.entity.currentState = .init <;> simp [core, act, hinit, seStateToIndex]
    · rfl
  | reset => exact iff_of_true (by simp [Covered, call]) (by rintro e' ⟨⟩)

theorem covered_iff_unmasking (se : SupervisedEntity μ) (calls : List (Call ε)) :
    Runs.Always call Covered ⟨se, []⟩ calls ↔ Runs.Each call Unmasking ⟨se, []⟩ calls :=
  Runs.always_iff_each (I := Severe) (fun _ c hI hP => covered_call hI hP c)
    (fun _ c hI => severe_call hI c) (by simp [Severe]) (by simp [Covered])

theorem masked_by_other_source :
    let cfg : SEConfig := { monitors := [{ debounceCount := 1 }] }
    let fault : PhmEvent := { sourceMonitor := "custom_1", severity := .error }
    let info : PhmEvent := { sourceMonitor := "custom_2", severity := .info }
    let calls : List (Call Report) := [.start fun _ => {}, .event fault, .event info]
    let w : Watched ReportingMonitor := Runs.run call ⟨new cfg, []⟩ calls
    w.confirmed = [("custom_1", .error)] ∧ w.entity.currentState = .running ∧ ¬ w.Covered := by
  refine ⟨by decide, by decide, ?_⟩
  intro hcovered
  exact absurd (hcovered ("custom_1", .error) (by decide)) (by decide)

end Watched

end PlatformHealth
