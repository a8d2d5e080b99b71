import PlatformHealth.Entity.Run

namespace PlatformHealth

def documentedTargets : SeState → List SeState
  | .init => [.running, .suspect]
  | .running => [.suspect, .warn, .error, .fatal]
  | .suspect => [.running, .warn, .error]
  | .warn => [.running, .error]
  | .error => [.running, .fatal]
  | .fatal => []

theorem isTransitionAllowed_iff (s t : SeState) :
    isTransitionAllowed s t = true ↔ t ∈ documentedTargets s := by
  cases s <;> cases t <;> decide

theorem enter_ne {s t : SeState} (h : enter s t ≠ s) : enter s t = t ∧ t ∈ documentedTargets s := by
  unfold enter at h ⊢
  split
  · next hallowed => exact ⟨rfl, (isTransitionAllowed_iff s t).mp hallowed⟩
  · next hrefused => simp [hrefused] at h

theorem verdict_ne {d c : UInt32} {t s : SeState} (h : (verdict d c t s).1 ≠ s) :
    (verdict d c t s).1 ∈ documentedTargets s ∧
      ((t = .running ∧ (verdict d c t s).1 = .running) ∨
        seStateToIndex s < seStateToIndex (verdict d c t s).1) := by
  unfold verdict at h ⊢
  split_ifs at h ⊢ with hrun hlt hd hs
  · obtain ⟨he, hmem⟩ := enter_ne h
    exact ⟨by simpa only [he] using hrun ▸ hmem, .inl ⟨hrun, he⟩⟩
  · obtain ⟨he, hmem⟩ := enter_ne h
    exact ⟨by simpa only [he] using hmem, .inr (by simpa only [he] using hlt)⟩
  · subst hs
    exact ⟨by simp [documentedTargets], .inr (by simp [seStateToIndex])⟩
  · exact absurd rfl h
  · exact absurd rfl h

structure StateChange where
  cause : Action
  old : SeState
  new : SeState

namespace StateChange

structure Legal (cfg : SEConfig) (c : StateChange) : Prop where
  edge : c.cause ≠ .reset → c.new ∈ documentedTargets c.old
  drop : seStateToIndex c.new < seStateToIndex c.old →
    (c.new = .running ∧ ∃ e, c.cause = .event e ∧ e.severity = .info ∧
      (findConfig cfg e.sourceMonitor).isSome) ∨ (c.cause = .reset ∧ c.new = .init)
  init : c.new = .init → c.cause = .reset
  fatal : c.old = .fatal → c.cause = .reset

def Path : SeState → List StateChange → SeState → Prop
  | s, [], t => s = t
  | s, c :: cs, t => c.old = s ∧ Path c.new cs t

end StateChange

namespace SupervisedEntity

variable {μ ε : Type} [IMonitor μ ε]

def changes : SupervisedEntity μ → List Action → List StateChange
  | _, [] => []
  | se, a :: rest =>
    if (se.act a).currentState = se.currentState then changes (se.act a) rest
    else ⟨a, se.currentState, (se.act a).currentState⟩ :: changes (se.act a) rest

def history (se : SupervisedEntity μ) (ops : List (EntityOp μ ε)) : List StateChange :=
  changes se.core (se.trace ops)

theorem config_act (se : SupervisedEntity μ) (a : Action) : (se.act a).config = se.config := by
  cases a with
  | started => rfl
  | event e =>
    cases h : findConfig se.config e.sourceMonitor with
    | none => rw [act, handle_none h]
    | some mc => rw [act, handle_some h]
  | reset => rfl

theorem config_run (se : SupervisedEntity μ) (ops : List (EntityOp μ ε)) :
    (Runs.run apply se ops).config = se.config := by
  have h := Runs.run_eq_of_each (fun t : SupervisedEntity Empty => t.config) (se.trace ops)
    (fun t a _ => config_act t a) se.core
  rw [← core_run] at h
  exact h

theorem legal_act {se : SupervisedEntity μ} {a : Action}
    (h : (se.act a).currentState ≠ se.currentState) :
    StateChange.Legal se.config ⟨a, se.currentState, (se.act a).currentState⟩ := by
  cases a with
  | started =>
    have hinit : se.currentState = .init := by
      by_contra hne
      simp [act, hne] at h
    constructor <;> simp [act, hinit, documentedTargets, seStateToIndex]
  | event e =>
    cases hcfg : findConfig se.config e.sourceMonitor with
    | none => simp [act, handle_none hcfg] at h
    | some mc =>
      rw [act, handle_some hcfg] at h ⊢
      obtain ⟨hmem, hdir⟩ := verdict_ne h
      refine ⟨fun _ => hmem, ?_, ?_, ?_⟩
      · intro hdrop
        rcases hdir with ⟨ht, hrun⟩ | hup
        · refine .inl ⟨hrun, e, rfl, ?_, by simp [hcfg]⟩
          revert ht
          cases e.severity <;> simp [seStateFromSeverity]
        · exact absurd hdrop (by simpa using hup.le)
      · intro hinit
        dsimp only at hinit
        rw [hinit] at hmem
        cases hs : se.currentState <;> simp [hs, documentedTargets] at hmem
      · intro hfatal
        rw [show se.currentState = .fatal from hfatal] at hmem
        simp [documentedTargets] at hmem
  | reset => constructor <;> simp [act]

theorem legal_changes (se : SupervisedEntity μ) (as : List Action) :
    ∀ c ∈ changes se as, c.Legal se.config := by
  induction as generalizing se with
  | nil => simp [changes]
  | cons a rest ih =>
    have hrest : ∀ c ∈ changes (se.act a) rest, c.Legal se.config := by
      simpa only [config_act] using ih (se.act a)
    intro c hc
    simp only [changes] at hc
    split at hc
    · exact hrest c hc
    · next hne =>
      rcases List.mem_cons.mp hc with rfl | hmem
      · exact legal_act hne
      · exact hrest c hmem

theorem path_changes (se : SupervisedEntity μ) (as : List Action) :
    StateChange.Path se.currentState (changes se as) (Runs.run act se as).currentState := by
  induction as generalizing se with
  | nil => rfl
  | cons a rest ih =>
    simp only [changes, Runs.run_cons]
    split
    · next heq => exact heq ▸ ih (se.act a)
    · exact ⟨rfl, ih (se.act a)⟩

theorem history_legal (se : SupervisedEntity μ) (ops : List (EntityOp μ ε)) :
    StateChange.Path se.currentState (se.history ops) (Runs.run apply se ops).currentState ∧
      ∀ c ∈ se.history ops, c.Legal se.config := by
  have hend : (Runs.run apply se ops).currentState =
      (Runs.run act se.core (se.trace ops)).currentState :=
    congrArg (fun t : SupervisedEntity Empty => t.currentState) (core_run se ops)
  rw [hend]
  exact ⟨path_changes se.core (se.trace ops), legal_changes se.core (se.trace ops)⟩

end SupervisedEntity

end PlatformHealth
