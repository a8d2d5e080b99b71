import PlatformHealth.Entity.History

namespace PlatformHealth

def threshold (mc : MonitorConfig) : Nat := max 1 mc.debounceCount.toNat

theorem debounceOf_toNat (mc : MonitorConfig) : (debounceOf mc).toNat = threshold mc := by
  unfold debounceOf threshold
  split
  · next h => simp [h]
  · next h =>
    have hpos : mc.debounceCount.toNat ≠ 0 := fun h0 => h (UInt32.toNat_inj.mp h0)
    omega

theorem threshold_pos (mc : MonitorConfig) : 0 < threshold mc := by
  unfold threshold
  omega

section
variable {d c : UInt32}

theorem succ_toNat (h : c.toNat < d.toNat) : (c + 1).toNat = c.toNat + 1 := by
  have hd := d.toNat_lt
  rw [UInt32.toNat_add, UInt32.toNat_one, Nat.mod_eq_of_lt]
  omega

theorem le_succ_iff (h : c.toNat < d.toNat) : d ≤ c + 1 ↔ d.toNat ≤ c.toNat + 1 := by
  rw [UInt32.le_iff_toNat_le, succ_toNat h]

theorem verdict_count_lt (h : c.toNat < d.toNat) (t s : SeState) :
    (verdict d c t s).2.toNat < d.toNat := by
  have hpos : (0 : UInt32).toNat < d.toNat := by simpa using Nat.zero_lt_of_lt h
  unfold verdict
  by_cases hrun : t = .running
  · simpa [hrun] using hpos
  by_cases hlt : seStateToIndex s < seStateToIndex t
  · by_cases hd : d ≤ c + 1
    · simpa [hrun, hlt, hd] using hpos
    · have hnext : c.toNat + 1 < d.toNat := not_le.mp (fun hle => hd ((le_succ_iff h).mpr hle))
      simpa [hrun, hlt, hd, succ_toNat h] using hnext
  · simpa [hrun, hlt] using h

theorem verdict_counts {t s : SeState} (h : c.toNat < d.toNat)
    (hlt : seStateToIndex s < seStateToIndex t) (ht : t ≠ .running) (hd : c.toNat + 1 < d.toNat) :
    verdict d c t s = (if s = .running then .suspect else s, c + 1) := by
  have hnot : ¬ d ≤ c + 1 := fun hle => absurd ((le_succ_iff h).mp hle) (by omega)
  simp [verdict, ht, hlt, hnot]

theorem verdict_confirms {t s : SeState} (h : c.toNat < d.toNat)
    (hlt : seStateToIndex s < seStateToIndex t) (ht : t ≠ .running) (hd : d.toNat ≤ c.toNat + 1) :
    verdict d c t s = (enter s t, 0) := by
  simp [verdict, ht, hlt, (le_succ_iff h).mpr hd]

theorem verdict_mono {t : SeState} (ht : t ≠ .running) (s : SeState) :
    seStateToIndex s ≤ seStateToIndex (verdict d c t s).1 := by
  by_cases hs : (verdict d c t s).1 = s
  · rw [hs]
  · rcases (verdict_ne hs).2 with ⟨hrun, -⟩ | hup
    · exact absurd hrun ht
    · exact hup.le

end

theorem seStateFromSeverity_ne_running {v : Severity} (h : v ≠ .info) :
    seStateFromSeverity v ≠ .running := by
  cases v <;> simp [seStateFromSeverity] at h ⊢

theorem warn_le_seStateFromSeverity {v : Severity} (h : v ≠ .info) :
    seStateToIndex .warn ≤ seStateToIndex (seStateFromSeverity v) := by
  cases v <;> simp [seStateFromSeverity, seStateToIndex] at h ⊢

namespace SupervisedEntity

variable {μ ε : Type} [IMonitor μ ε]

section
variable {event : PhmEvent} {se : SupervisedEntity μ} {mc : MonitorConfig}
  (h : findConfig se.config event.sourceMonitor = some mc)
include h

theorem currentState_handle : (handle event se).currentState =
    (verdict (debounceOf mc) (se.count event.sourceMonitor)
      (seStateFromSeverity event.severity) se.currentState).1 := by
  rw [handle_some h]

theorem count_handle_self : (handle event se).count event.sourceMonitor =
    (verdict (debounceOf mc) (se.count event.sourceMonitor)
      (seStateFromSeverity event.severity) se.currentState).2 := by
  rw [handle_some h]
  simp [count]

end

theorem count_handle_of_ne {event : PhmEvent} (se : SupervisedEntity μ) {source : String}
    (hne : source ≠ event.sourceMonitor) : (handle event se).count source = se.count source := by
  cases h : findConfig se.config event.sourceMonitor with
  | none => rw [handle_none h]
  | some mc =>
    rw [handle_some h]
    simp [count, Std.ExtTreeMap.getD_insert, hne.symm]

def CountersBelow (se : SupervisedEntity μ) : Prop :=
  ∀ source mc, findConfig se.config source = some mc → (se.count source).toNat < threshold mc

section
variable {event : PhmEvent} {se : SupervisedEntity μ} {mc : MonitorConfig}
  (hbelow : CountersBelow se) (hmc : findConfig se.config event.sourceMonitor = some mc)
  (hsev : event.severity ≠ .info)
  (hlt : seStateToIndex se.currentState < seStateToIndex (seStateFromSeverity event.severity))
include hbelow hmc hsev hlt

theorem handle_counts (hd : (se.count event.sourceMonitor).toNat + 1 < threshold mc) :
    (handle event se).currentState = (if se.currentState = .running then .suspect
        else se.currentState) ∧
      ((handle event se).count event.sourceMonitor).toNat =
        (se.count event.sourceMonitor).toNat + 1 := by
  have hc := hbelow _ _ hmc
  rw [← debounceOf_toNat] at hc hd
  rw [currentState_handle hmc, count_handle_self hmc,
    verdict_counts hc hlt (seStateFromSeverity_ne_running hsev) hd]
  exact ⟨rfl, succ_toNat hc⟩

theorem handle_confirms (hd : threshold mc ≤ (se.count event.sourceMonitor).toNat + 1) :
    (handle event se).currentState =
        enter se.currentState (seStateFromSeverity event.severity) ∧
      ((handle event se).count event.sourceMonitor).toNat = 0 := by
  have hc := hbelow _ _ hmc
  rw [← debounceOf_toNat] at hc hd
  rw [currentState_handle hmc, count_handle_self hmc,
    verdict_confirms hc hlt (seStateFromSeverity_ne_running hsev) hd]
  exact ⟨rfl, rfl⟩

end

theorem handle_mono {event : PhmEvent} (hsev : event.severity ≠ .info) (se : SupervisedEntity μ) :
    seStateToIndex se.currentState ≤ seStateToIndex (handle event se).currentState := by
  cases hmc : findConfig se.config event.sourceMonitor with
  | none => rw [handle_none hmc]
  | some mc =>
    rw [currentState_handle hmc]
    exact verdict_mono (seStateFromSeverity_ne_running hsev) _

theorem CountersBelow.act {se : SupervisedEntity μ} (h : CountersBelow se) (a : Action) :
    CountersBelow (se.act a) := by
  intro source mc hmc
  rw [config_act] at hmc
  have hbelow := h source mc hmc
  cases a with
  | started => exact hbelow
  | event e =>
    by_cases hs : source = e.sourceMonitor
    · subst hs
      rw [SupervisedEntity.act, count_handle_self hmc]
      rw [← debounceOf_toNat] at hbelow ⊢
      exact verdict_count_lt hbelow _ _
    · rw [SupervisedEntity.act, count_handle_of_ne se hs]
      exact hbelow
  | reset => simpa [SupervisedEntity.act, count] using threshold_pos mc

theorem getD_debounceMap_new (cfg : SEConfig) (source : String) :
    (new cfg : SupervisedEntity μ).debounceMap.getD source {} = {} := by
  have hfold (mcs : List MonitorConfig) (dm : StringMap DebounceEntry)
      (hdm : dm.getD source {} = {}) :
      (mcs.foldl (fun dm mc => dm.insert (monitorTypeToString mc.type) {}) dm).getD source {} =
        ({} : DebounceEntry) := by
    induction mcs generalizing dm with
    | nil => exact hdm
    | cons mc mcs ih =>
      refine ih _ ?_
      rw [Std.ExtTreeMap.getD_insert, hdm, ite_self]
  exact hfold _ ∅ (by simp)

theorem count_new (cfg : SEConfig) (source : String) :
    (new cfg : SupervisedEntity μ).count source = 0 :=
  congrArg DebounceEntry.consecutiveCount (getD_debounceMap_new cfg source)

theorem countersBelow_new (cfg : SEConfig) : CountersBelow (new cfg : SupervisedEntity μ) := by
  intro source mc _
  rw [count_new]
  exact threshold_pos mc

theorem countersBelow_run {se : SupervisedEntity μ} (h : CountersBelow se)
    (ops : List (EntityOp μ ε)) : CountersBelow (Runs.run apply se ops) := by
  have hrun : CountersBelow (Runs.run act se.core (se.trace ops)) :=
    Runs.run_invariant (fun _ a ht => ht.act a) (s := se.core) h _
  rw [← core_run] at hrun
  exact hrun

end SupervisedEntity

end PlatformHealth
