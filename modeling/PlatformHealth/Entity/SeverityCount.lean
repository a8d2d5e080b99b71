import PlatformHealth.Entity.Counters
import PlatformHealth.Monitors.Builtin
import Mathlib.Data.List.TakeWhile

namespace PlatformHealth

open SupervisedEntity

def target (event : PhmEvent) : SeState := seStateFromSeverity event.severity

structure WithHistory where
  entity : SupervisedEntity Empty
  past : List PhmEvent := []

namespace WithHistory

def step (o : WithHistory) (a : Action) : WithHistory where
  entity := o.entity.act a
  past :=
    match a with
    | .event e => e :: o.past
    | _ => o.past

def eventsOf (o : WithHistory) (source : String) : List PhmEvent :=
  o.past.filter (fun e => e.sourceMonitor = source)

-- the last N events of the source, this one included, all aim at the confirmed state or above
def Observes (o : WithHistory) (a : Action) : Prop :=
  ∀ e mc T, a = .event e → findConfig o.entity.config e.sourceMonitor = some mc →
    T ∈ [SeState.warn, .error, .fatal] → (o.entity.act a).currentState = T →
    o.entity.currentState ≠ T →
      let window := ((o.step a).eventsOf e.sourceMonitor).take (threshold mc)
      window.length = threshold mc ∧ ∀ p ∈ window, seStateToIndex T ≤ seStateToIndex (target p)

def Unmixed (o : WithHistory) (a : Action) : Prop :=
  ∀ e mc, a = .event e → findConfig o.entity.config e.sourceMonitor = some mc →
    seStateToIndex o.entity.currentState < seStateToIndex (target e) →
    isTransitionAllowed o.entity.currentState (target e) = true →
    threshold mc ≤ (o.entity.count e.sourceMonitor).toNat + 1 →
      ∀ p ∈ (o.eventsOf e.sourceMonitor).take (threshold mc - 1), p.severity ≠ .info →
        seStateToIndex (target e) ≤ seStateToIndex (target p)

structure Counted (o : WithHistory) : Prop where
  below : CountersBelow o.entity
  recent : ∀ source mc, findConfig o.entity.config source = some mc →
    (o.entity.count source).toNat ≤
      ((o.eventsOf source).takeWhile (fun e => e.severity ≠ .info)).length

section
variable {o : WithHistory}

theorem eventsOf_step (o : WithHistory) (e : PhmEvent) (source : String) :
    (o.step (.event e)).eventsOf source =
      if e.sourceMonitor = source then e :: o.eventsOf source else o.eventsOf source := by
  simp only [eventsOf, step, List.filter_cons, decide_eq_true_eq]

theorem verdict_count_le {d c : UInt32} {t s : SeState} (h : c.toNat < d.toNat) (ht : t ≠ .running) :
    (verdict d c t s).2.toNat ≤ c.toNat + 1 := by
  by_cases hlt : seStateToIndex s < seStateToIndex t
  · by_cases hd : d.toNat ≤ c.toNat + 1
    · rw [verdict_confirms h hlt ht hd]
      simp
    · rw [verdict_counts h hlt ht (by omega)]
      exact (succ_toNat h).le
  · simp [verdict, ht, hlt]

theorem Counted.step (h : Counted o) (a : Action) : Counted (o.step a) := by
  refine ⟨h.below.act a, ?_⟩
  intro source mc hmc
  have hfound : findConfig o.entity.config source = some mc := by
    rw [← config_act o.entity a]
    exact hmc
  have hrecent := h.recent source mc hfound
  cases a with
  | started => exact hrecent
  | event e =>
    rw [eventsOf_step]
    by_cases hsource : e.sourceMonitor = source
    · subst hsource
      have hcount : (handle e o.entity).count e.sourceMonitor = _ := count_handle_self hfound
      have hbelow := h.below _ _ hfound
      rw [← debounceOf_toNat] at hbelow
      rw [if_pos rfl]
      by_cases hinfo : e.severity = .info
      · simp [WithHistory.step, SupervisedEntity.act, hcount, hinfo, seStateFromSeverity, verdict]
      · have hle := verdict_count_le (s := o.entity.currentState) hbelow
          (seStateFromSeverity_ne_running hinfo)
        rw [List.takeWhile_cons_of_pos (by simpa using hinfo), List.length_cons]
        rw [← hcount] at hle
        exact hle.trans (Nat.succ_le_succ hrecent)
    · rw [if_neg hsource]
      refine (congrArg UInt32.toNat (count_handle_of_ne o.entity (Ne.symm hsource))).trans_le hrecent
  | reset => simp [WithHistory.step, SupervisedEntity.act, count]

theorem counted_start (cfg : SEConfig) : Counted { entity := new cfg } := by
  refine ⟨countersBelow_new cfg, ?_⟩
  intro source mc _
  simp [count_new]

theorem verdict_confirmed_iff {d c : UInt32} {t s T : SeState} (h : c.toNat < d.toNat)
    (hT : T ∈ [SeState.warn, .error, .fatal]) :
    (verdict d c t s).1 = T ∧ s ≠ T ↔ t = T ∧ seStateToIndex s < seStateToIndex t ∧
      isTransitionAllowed s t = true ∧ d.toNat ≤ c.toNat + 1 := by
  constructor
  · rintro ⟨hstate, hne⟩
    have htrun : t ≠ .running := by
      rintro rfl
      rw [verdict, if_pos rfl] at hstate
      subst hstate
      obtain ⟨hrun, -⟩ := enter_ne (Ne.symm hne)
      simp [hrun] at hT
    have hlt : seStateToIndex s < seStateToIndex t := by
      by_contra hge
      rw [verdict, if_neg htrun, if_neg hge] at hstate
      exact hne hstate
    have hd : d.toNat ≤ c.toNat + 1 := by
      by_contra hmore
      rw [verdict_counts h hlt htrun (by omega)] at hstate
      subst hstate
      split_ifs at hT hne
      · simp at hT
      · exact hne rfl
    rw [verdict_confirms h hlt htrun hd] at hstate
    subst hstate
    obtain ⟨henter, hmem⟩ := enter_ne (Ne.symm hne)
    exact ⟨henter.symm, hlt, (isTransitionAllowed_iff s t).mpr hmem, hd⟩
  · rintro ⟨rfl, hlt, hallowed, hd⟩
    have htrun : t ≠ .running := by
      rintro rfl
      simp at hT
    rw [verdict_confirms h hlt htrun hd]
    refine ⟨by simp [enter, hallowed], ?_⟩
    rintro rfl
    exact absurd hlt (lt_irrefl _)

theorem take_recent {l : List PhmEvent} {n : Nat}
    (h : n ≤ (l.takeWhile (fun e => e.severity ≠ .info)).length) :
    (l.take n).length = n ∧ ∀ p ∈ l.take n, p.severity ≠ .info := by
  have hprefix : l.takeWhile (fun e => e.severity ≠ .info) <+: l := List.takeWhile_prefix _
  have hlength : (l.take n).length = n := List.length_take_of_le (h.trans hprefix.length_le)
  refine ⟨hlength, fun p hp => ?_⟩
  have hrecent := List.prefix_of_prefix_length_le (List.take_prefix n l) hprefix (by omega)
  simpa using List.mem_takeWhile_imp (hrecent.subset hp)

theorem target_mem {e : PhmEvent} (h : e.severity ≠ .info) :
    target e ∈ [SeState.warn, .error, .fatal] := by
  unfold target
  revert h
  cases e.severity <;> simp [seStateFromSeverity]

theorem observes_iff_unmixed (h : Counted o) (a : Action) : o.Observes a ↔ o.Unmixed a := by
  constructor
  · intro hobs e mc ha hmc hlt hallowed hfull p hp hinfo
    subst ha
    have hbelow := h.below _ _ hmc
    rw [← debounceOf_toNat] at hbelow
    by_cases he : e.severity = .info
    · refine Nat.le_trans ?_ (warn_le_seStateFromSeverity hinfo)
      simp [target, he, seStateFromSeverity, seStateToIndex]
    · have hconfirmed := (verdict_confirmed_iff hbelow (target_mem he)).mpr
        ⟨rfl, hlt, hallowed, by rwa [debounceOf_toNat]⟩
      have hwindow := (hobs e mc (target e) rfl hmc (target_mem he)
        ((currentState_handle hmc).trans hconfirmed.1) hconfirmed.2).2
      refine hwindow p ?_
      rw [eventsOf_step, if_pos rfl, List.take_cons (threshold_pos mc)]
      exact List.mem_cons_of_mem _ hp
  · intro hunmixed e mc T ha hmc hT hstate hne
    subst ha
    have hbelow := h.below _ _ hmc
    rw [← debounceOf_toNat] at hbelow
    have hverdict := (currentState_handle hmc).symm.trans hstate
    obtain ⟨htarget, hlt, hallowed, hfull⟩ := (verdict_confirmed_iff hbelow hT).mp ⟨hverdict, hne⟩
    rw [debounceOf_toNat] at hfull
    have hpos := threshold_pos mc
    obtain ⟨hlength, hrecent⟩ := take_recent (n := threshold mc - 1)
      (le_trans (by omega) (h.recent _ _ hmc))
    simp only [eventsOf_step, if_true, List.take_cons hpos, List.length_cons]
    refine ⟨by omega, ?_⟩
    intro p hp
    rcases List.mem_cons.mp hp with rfl | hp
    · rw [← htarget]
      rfl
    · rw [← htarget]
      exact hunmixed e mc rfl hmc hlt hallowed hfull p hp (hrecent p hp)

end

theorem each_observes_iff {μ ε : Type} [IMonitor μ ε] (cfg : SEConfig) (ops : List (EntityOp μ ε)) :
    Runs.Each step Observes { entity := new cfg } ((new cfg).trace ops) ↔
      Runs.Each step Unmixed { entity := new cfg } ((new cfg).trace ops) := by
  constructor
  · exact Runs.each_of_invariant
      (fun o a h hobs => ⟨(observes_iff_unmixed h a).mp hobs, h.step a⟩) (counted_start cfg)
  · exact Runs.each_of_invariant
      (fun o a h hunmixed => ⟨(observes_iff_unmixed h a).mpr hunmixed, h.step a⟩) (counted_start cfg)

def twoNeeded : SEConfig := { monitors := [{ type := .resource, debounceCount := 2 }] }

def fromResource (severity : Severity) : PhmEvent :=
  { id := "1", sourceMonitor := "resource", severity := severity }

def warningThenError : List (EntityOp BuiltinMonitor Reading) :=
  [.onMonitorEvent (fromResource .info), .onMonitorEvent (fromResource .warning),
    .onMonitorEvent (fromResource .error)]

theorem error_after_warning_confirmed :
    ¬ Runs.Each step Observes { entity := new twoNeeded } ((new twoNeeded).trace warningThenError) := by
  rintro ⟨-, -, h, -⟩
  have hwindow := (h (fromResource .error) { type := .resource, debounceCount := 2 } .error rfl
    rfl (by decide) (by decide +kernel) (by decide +kernel)).2
  exact absurd (hwindow (fromResource .warning) (.tail _ (.head _))) (by decide)

end WithHistory

end PlatformHealth
