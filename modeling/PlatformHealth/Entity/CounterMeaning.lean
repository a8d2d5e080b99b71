import PlatformHealth.Entity.SeverityCount
import PlatformHealth.Library.Tally

namespace PlatformHealth

open SupervisedEntity Tally

abbrev Arrival := Action × SeState

def clears (source : String) : Arrival → Bool
  | (.reset, _) => true
  | (.event e, _) => e.sourceMonitor = source && e.severity = .info
  | (.started, _) => false

def counts (source : String) : Arrival → Bool
  | (.event e, s) =>
    e.sourceMonitor = source && e.severity ≠ .info && seStateToIndex s < seStateToIndex (target e)
  | _ => false

structure Chronicle where
  entity : SupervisedEntity Empty
  arrivals : List Arrival := []

namespace Chronicle

def step (o : Chronicle) (a : Action) : Chronicle where
  entity := o.entity.act a
  arrivals := (a, o.entity.currentState) :: o.arrivals

structure Counting (o : Chronicle) : Prop where
  below : CountersBelow o.entity
  tally : ∀ source mc, findConfig o.entity.config source = some mc →
    (o.entity.count source).toNat = tally (counts source) (clears source) (threshold mc) o.arrivals

section
variable {o : Chronicle}

theorem verdict_ignores {d c : UInt32} {t s : SeState} (ht : t ≠ .running)
    (hlt : ¬ seStateToIndex s < seStateToIndex t) : verdict d c t s = (s, c) := by
  rw [verdict, if_neg ht, if_neg hlt]

theorem Counting.event (h : Counting o) {e : PhmEvent} {mc : MonitorConfig}
    (hmc : findConfig o.entity.config e.sourceMonitor = some mc) :
    ((handle e o.entity).count e.sourceMonitor).toNat =
      Tally.tally (counts e.sourceMonitor) (clears e.sourceMonitor) (threshold mc)
        ((.event e, o.entity.currentState) :: o.arrivals) := by
  have hcount := h.tally _ _ hmc
  by_cases hinfo : e.severity = .info
  · rw [tally_clears (by simp [clears, hinfo]), count_handle_self hmc]
    simp [hinfo, seStateFromSeverity, verdict]
  · have hclears : clears e.sourceMonitor (.event e, o.entity.currentState) = false := by
      simp [clears, hinfo]
    by_cases hlt : seStateToIndex o.entity.currentState < seStateToIndex (target e)
    · have hcounts : counts e.sourceMonitor (.event e, o.entity.currentState) = true := by
        simp [counts, hinfo, hlt]
      by_cases hnth : Tally.tally (counts e.sourceMonitor) (clears e.sourceMonitor) (threshold mc)
          o.arrivals + 1 = threshold mc
      · rw [tally_nth hclears hcounts hnth]
        exact (handle_confirms h.below hmc hinfo hlt (by omega)).2
      · have hbelow := h.below _ _ hmc
        rw [tally_counts hclears hcounts hnth, ← hcount]
        exact (handle_counts h.below hmc hinfo hlt (by omega)).2
    · rw [tally_other hclears (by simp [counts, hlt]), count_handle_self hmc,
        verdict_ignores (seStateFromSeverity_ne_running hinfo) hlt, hcount]

theorem Counting.step (h : Counting o) (a : Action) : Counting (o.step a) := by
  refine ⟨h.below.act a, ?_⟩
  intro source mc hmc
  have hfound : findConfig o.entity.config source = some mc := by
    rw [← config_act o.entity a]
    exact hmc
  cases a with
  | started => exact (h.tally source mc hfound).trans (tally_other rfl rfl).symm
  | event e =>
    by_cases hsource : source = e.sourceMonitor
    · subst hsource
      exact h.event hfound
    · have hclears : clears source (.event e, o.entity.currentState) = false := by
        simp [clears, Ne.symm hsource]
      have hcounts : counts source (.event e, o.entity.currentState) = false := by
        simp [counts, Ne.symm hsource]
      rw [Chronicle.step, tally_other hclears hcounts, ← h.tally source mc hfound]
      exact congrArg UInt32.toNat (count_handle_of_ne o.entity hsource)
  | reset =>
    rw [Chronicle.step, tally_clears rfl]
    simp [SupervisedEntity.act, SupervisedEntity.count]

theorem counting_new (cfg : SEConfig) : Counting { entity := new cfg } := by
  refine ⟨countersBelow_new cfg, ?_⟩
  intro source mc _
  rw [count_new]
  rfl

theorem entity_run (o : Chronicle) (as : List Action) :
    (Runs.run step o as).entity = Runs.run SupervisedEntity.act o.entity as := by
  induction as generalizing o with
  | nil => rfl
  | cons a as ih => exact ih (o.step a)

end

end Chronicle

section
variable {μ ε : Type} [IMonitor μ ε]

def chronicle (cfg : SEConfig) (ops : List (EntityOp μ ε)) : List Arrival :=
  (Runs.run Chronicle.step { entity := new cfg } (trace (new cfg) ops)).arrivals

theorem count_eq_tally {cfg : SEConfig} {source : String} {mc : MonitorConfig}
    (h : findConfig cfg source = some mc) (ops : List (EntityOp μ ε)) :
    ((Runs.run apply (new cfg) ops).count source).toNat =
      tally (counts source) (clears source) (threshold mc) (chronicle cfg ops) := by
  have hcore : core (Runs.run apply (new cfg) ops) =
      (Runs.run Chronicle.step { entity := new cfg } (trace (new cfg) ops)).entity := by
    rw [Chronicle.entity_run]
    exact core_run (new cfg) ops
  have hcounting : Chronicle.Counting
      (Runs.run Chronicle.step { entity := new cfg } (trace (new cfg) ops)) :=
    Runs.run_invariant (fun _ a ho => ho.step a) (Chronicle.counting_new cfg) _
  have htally := hcounting.tally source mc
  rw [← hcore] at htally
  exact htally (by rwa [core_config, config_run])

theorem count_onMonitorEvent_of_ne (se : SupervisedEntity μ) {source : String} {event : PhmEvent}
    (h : event.sourceMonitor ≠ source ∨ findConfig se.config event.sourceMonitor = none) :
    (se.apply (.onMonitorEvent event : EntityOp μ ε)).count source = se.count source := by
  have hcount : (se.apply (.onMonitorEvent event : EntityOp μ ε)).count source =
      (handle event se.core).count source :=
    congrArg (fun t : SupervisedEntity Empty => t.count source) (core_onMonitorEvent event se)
  rw [hcount]
  rcases h with hne | hnone
  · exact count_handle_of_ne se.core (Ne.symm hne)
  · have hnone : findConfig se.core.config event.sourceMonitor = none := hnone
    rw [handle_none hnone]
    rfl

theorem debounce_counter_exact (cfg : SEConfig) (ops : List (EntityOp μ ε)) (source : String)
    (mc : MonitorConfig) (h : findConfig cfg source = some mc) :
    let se := Runs.run apply (new cfg) ops
    let latest := since (counts source) (clears source) (threshold mc) (chronicle cfg ops)
    (se.count source).toNat = latest.countP (counts source) ∧
      (se.count source).toNat =
        ((chronicle cfg ops).takeWhile (fun e => !clears source e)).countP (counts source) %
          threshold mc ∧
      (se.count source).toNat < threshold mc ∧
      (se.count source + 1).toNat = (se.count source).toNat + 1 ∧
      ∀ event, event.sourceMonitor ≠ source ∨ findConfig cfg event.sourceMonitor = none →
        (se.apply (.onMonitorEvent event : EntityOp μ ε)).count source = se.count source := by
  intro se latest
  have hcount := count_eq_tally h ops
  have hlt : (se.count source).toNat < threshold mc := hcount.trans_lt (tally_lt (threshold_pos mc) _)
  refine ⟨hcount, hcount.trans (tally_eq_mod (threshold_pos mc) _), hlt, ?_, ?_⟩
  · rw [← debounceOf_toNat] at hlt
    exact succ_toNat hlt
  · intro event hevent
    refine count_onMonitorEvent_of_ne se (hevent.imp_right fun hnone => ?_)
    rwa [config_run]

theorem debounce_counter_exact_of_two :
    let cfg : SEConfig := { monitors := [{ type := .alive, debounceCount := 3 }] }
    let warning : PhmEvent := { sourceMonitor := "alive", severity := .warning }
    let ops : List (EntityOp ReportingMonitor Report) :=
      [.start fun _ => {}, .onMonitorEvent warning, .onMonitorEvent warning]
    ((Runs.run apply (new cfg) ops).count "alive").toNat = 2 := by
  intro cfg warning ops
  have h := (debounce_counter_exact cfg ops "alive" { type := .alive, debounceCount := 3 } rfl).1
  rw [h]
  decide +kernel

end

end PlatformHealth
