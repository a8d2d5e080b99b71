import PlatformHealth.Entity.Delivery

namespace PlatformHealth

namespace SupervisedEntity

variable {μ ε : Type} [IMonitor μ ε]

def Throws (p : μ × ε) : Prop := ∃ fault, (IMonitor.check p.1 p.2).outcome = .error fault

instance (p : μ × ε) : Decidable (Throws p) :=
  match h : (IMonitor.check p.1 p.2).outcome with
  | .error fault => .isTrue ⟨fault, h⟩
  | .ok _ => .isFalse fun ⟨fault, hfault⟩ => by simp [h] at hfault

def outcome (se : SupervisedEntity μ) (readings : Nat → ε) : Except CheckFault (List PhmEvent) :=
  (Id.run (se.checkAll silent readings)).2

def survivors (se : SupervisedEntity μ) (readings : Nat → ε) : List (μ × ε) :=
  (answers readings 0 se.monitors).filter (¬ Throws ·)

structure SameEffect (se : SupervisedEntity μ) (readings : Nat → ε) (se' : SupervisedEntity μ)
    (readings' : Nat → ε) : Prop where
  events : se.outcome readings = se'.outcome readings'
  state : (se.apply (.checkAll readings)).currentState = (se'.apply (.checkAll readings')).currentState
  debounce : (se.apply (.checkAll readings)).debounceMap = (se'.apply (.checkAll readings')).debounceMap

structure Isolated (se : SupervisedEntity μ) (readings : Nat → ε) : Prop where
  returns : ∃ events, se.outcome readings = .ok events
  same : SameEffect se readings (se.withAnswers (se.survivors readings))
    (readingsOf (se.survivors readings) readings)

theorem returned_checkMonitors {readings : Nat → ε} {i : Nat} {mons : List μ}
    (h : ∀ p ∈ answers readings i mons, ¬ Throws p) (se : SupervisedEntity μ) (events : List PhmEvent) :
    (Id.run (checkMonitors silent readings i mons se events)).2.2 =
      .ok (events ++ generated (answers readings i mons)) := by
  induction mons generalizing i se events with
  | nil => simp [checkMonitors, answers, generated]
  | cons mon rest ih =>
    have hrest : ∀ p ∈ answers readings (i + 1) rest, ¬ Throws p := fun p hp => h p (by simp [answers, hp])
    have hhead := h (mon, readings i) (by simp [answers])
    cases hout : (IMonitor.check mon (readings i)).outcome with
    | error fault => exact absurd ⟨fault, hout⟩ hhead
    | ok evt =>
      simp only [checkMonitors, answers, hout, generated, List.filterMap_cons, reported]
      by_cases hid : evt.id = ""
      · simpa [hid, generated] using ih hrest _ events
      · have hnext := ih hrest (handle evt (Id.run (onMonitorEvents silent
          (IMonitor.check mon (readings i)).raised se))) (events ++ [evt])
        rw [List.append_assoc, List.singleton_append] at hnext
        simp only [hid, if_false]
        exact hnext

theorem thrown_checkMonitors {readings : Nat → ε} {i : Nat} {mons : List μ} {p : μ × ε}
    (hp : p ∈ answers readings i mons) (hthrows : Throws p) (se : SupervisedEntity μ)
    (events : List PhmEvent) :
    ∃ fault, (Id.run (checkMonitors silent readings i mons se events)).2.2 = .error fault := by
  induction mons generalizing i se events with
  | nil => cases hp
  | cons mon rest ih =>
    cases hout : (IMonitor.check mon (readings i)).outcome with
    | error fault => exact ⟨fault, by simp [checkMonitors, hout]⟩
    | ok evt =>
      have hne : p ≠ (mon, readings i) := by
        rintro rfl
        obtain ⟨fault, hfault⟩ := hthrows
        cases hout.symm.trans hfault
      have hrest : p ∈ answers readings (i + 1) rest := by simpa [answers, hne] using hp
      simp only [checkMonitors, hout]
      by_cases hid : evt.id = ""
      · simpa [hid] using ih hrest _ events
      · simpa [hid] using ih hrest _ (events ++ [evt])

variable (se : SupervisedEntity μ) (readings : Nat → ε)

theorem returns_iff : (∃ events, se.outcome readings = .ok events) ↔
    ∀ p ∈ answers readings 0 se.monitors, ¬ Throws p := by
  constructor
  · rintro ⟨events, hok⟩ p hp hthrows
    obtain ⟨fault, hfault⟩ := thrown_checkMonitors hp hthrows se []
    cases hok.symm.trans hfault
  · intro h
    exact ⟨_, returned_checkMonitors h se []⟩

theorem isolated_iff : se.Isolated readings ↔ ∀ p ∈ answers readings 0 se.monitors, ¬ Throws p := by
  rw [← returns_iff]
  constructor
  · exact fun h => h.returns
  · intro h
    have hall : se.survivors readings = answers readings 0 se.monitors :=
      List.filter_eq_self.mpr fun p hp => decide_eq_true ((returns_iff se readings).mp h p hp)
    have hself : se.withAnswers (answers readings 0 se.monitors) = se := by
      rw [withAnswers, map_fst_answers]
    refine ⟨h, ?_⟩
    rw [hall, hself, readingsOf_answers]
    exact ⟨rfl, rfl, rfl⟩

end SupervisedEntity

end PlatformHealth
