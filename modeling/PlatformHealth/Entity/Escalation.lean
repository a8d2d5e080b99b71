import PlatformHealth.Entity.Counters

namespace PlatformHealth

open SupervisedEntity

theorem enter_fault {s t : SeState} (hs : s ≠ .init) (ht : t = .warn ∨ t = .error)
    (hlt : seStateToIndex s < seStateToIndex t) : enter s t = t := by
  rcases ht with rfl | rfl <;> cases s <;> simp [seStateToIndex] at hs hlt <;> rfl

section
variable {source : String} {mc : MonitorConfig} {T : SeState}

theorem handle_advances {se : SupervisedEntity Empty} {event : PhmEvent} (hbelow : CountersBelow se)
    (hmc : findConfig se.config event.sourceMonitor = some mc) (hinit : se.currentState ≠ .init)
    (hsev : event.severity ∈ [.warning, .error, .critical])
    (htarget : seStateToIndex T ≤ seStateToIndex (seStateFromSeverity event.severity)) :
    seStateToIndex T ≤ seStateToIndex (handle event se).currentState ∨
      ((handle event se).count event.sourceMonitor).toNat =
        (se.count event.sourceMonitor).toNat + 1 := by
  have hfault : event.severity ≠ .info := by
    rintro h
    simp [h] at hsev
  have hwe : seStateFromSeverity event.severity = .warn ∨
      seStateFromSeverity event.severity = .error := by
    revert hsev
    cases event.severity <;> simp [seStateFromSeverity]
  by_cases hge : seStateToIndex T ≤ seStateToIndex se.currentState
  · exact .inl (hge.trans (handle_mono hfault se))
  · have hlt := (not_le.mp hge).trans_le htarget
    by_cases hd : threshold mc ≤ (se.count event.sourceMonitor).toNat + 1
    · rw [(handle_confirms hbelow hmc hfault hlt hd).1, enter_fault hinit hwe hlt]
      exact .inl htarget
    · exact .inr (handle_counts hbelow hmc hfault hlt (not_le.mp hd)).2

theorem ne_init_of_le {s t : SeState} (h : seStateToIndex s ≤ seStateToIndex t) (hs : s ≠ .init) :
    t ≠ .init := by
  rintro rfl
  cases s <;> simp [seStateToIndex] at h hs

theorem at_least_of_events (events : List PhmEvent) (se : SupervisedEntity Empty) (hbelow : CountersBelow se)
    (hmc : findConfig se.config source = some mc) (hinit : se.currentState ≠ .init)
    (hfault : ∀ e ∈ events, e.severity ≠ .info)
    (hsource : ∀ e ∈ events, e.sourceMonitor = source → e.severity ∈ [.warning, .error, .critical] ∧
      seStateToIndex T ≤ seStateToIndex (seStateFromSeverity e.severity))
    (hdue : seStateToIndex T ≤ seStateToIndex se.currentState ∨
      threshold mc ≤ (se.count source).toNat +
        (events.filter (·.sourceMonitor = source)).length) :
    seStateToIndex T ≤ seStateToIndex (Runs.run act se (events.map .event)).currentState := by
  induction events generalizing se with
  | nil =>
    rcases hdue with h | h
    · exact h
    · exact absurd (hbelow source mc hmc) (not_lt.mpr h)
  | cons e rest ih =>
    have hmono := handle_mono (hfault e (by simp)) se
    refine ih (se.act (.event e)) (hbelow.act _) (by rwa [config_act]) (ne_init_of_le hmono hinit)
      (fun x hx => hfault x (by simp [hx])) (fun x hx => hsource x (by simp [hx])) ?_
    rcases hdue with h | h
    · exact .inl (h.trans hmono)
    · by_cases hs : e.sourceMonitor = source
      · subst hs
        obtain ⟨hsev, htarget⟩ := hsource e (by simp) rfl
        rcases handle_advances hbelow hmc hinit hsev htarget with hup | hcount
        · exact .inl hup
        · simp only [List.filter_cons, decide_true, if_true, List.length_cons] at h
          exact .inr (by simp only [act, hcount]; omega)
      · simp only [List.filter_cons, hs, decide_false, Bool.false_eq_true, if_false] at h
        exact .inr (by simpa only [act, count_handle_of_ne se (Ne.symm hs)] using h)

end

section
variable {μ ε : Type} [IMonitor μ ε]

theorem confirmed_under_interleaving (cfg : SEConfig) (ops : List (EntityOp μ ε)) (source : String)
    (mc : MonitorConfig) (hmc : findConfig cfg source = some mc) (T : SeState)
    (events : List PhmEvent) (hinit : (Runs.run apply (new cfg) ops).currentState ≠ .init)
    (hfault : ∀ e ∈ events, e.severity ≠ .info)
    (hsource : ∀ e ∈ events, e.sourceMonitor = source → e.severity ∈ [.warning, .error, .critical] ∧
      seStateToIndex T ≤ seStateToIndex (seStateFromSeverity e.severity))
    (hcount : threshold mc ≤ (events.filter (·.sourceMonitor = source)).length) :
    seStateToIndex T ≤
      seStateToIndex (submit (Runs.run apply (new cfg) ops) events).currentState := by
  have hbelow := countersBelow_run (countersBelow_new cfg) ops
  have hconfig : findConfig (Runs.run apply (new cfg) ops).config source = some mc := by
    rw [config_run]
    exact hmc
  have h := at_least_of_events events (Runs.run apply (new cfg) ops).core hbelow hconfig hinit
    hfault hsource (.inr (by omega))
  rw [← core_submit] at h
  exact h

theorem confirmed_between_warnings :
    let cfg : SEConfig := { monitors := [{ debounceCount := 2 }] }
    let a : PhmEvent := { sourceMonitor := "custom_1", severity := .error }
    let b : PhmEvent := { sourceMonitor := "custom_2", severity := .warning }
    let se : SupervisedEntity ReportingMonitor := Runs.run apply (new cfg) [.start fun _ => {}]
    seStateToIndex .error ≤ seStateToIndex (submit se [a, b, b, a]).currentState :=
  confirmed_under_interleaving _ _ "custom_1" _ rfl .error _ (by decide) (by simp)
    (by simp [seStateFromSeverity]) (by decide)

end

end PlatformHealth
