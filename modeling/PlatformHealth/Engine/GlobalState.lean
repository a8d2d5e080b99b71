import PlatformHealth.Engine.Announcements

namespace PlatformHealth

open LockDiscipline Greatest

namespace PhmEngine

variable {μ ε : Type} [IMonitor μ ε]

-- s answers for the registered entities: one is in s, none is worse, and RUNNING is not made up
structure WorstOf (e : PhmEngine μ) (s : SeState) : Prop where
  attained : ∃ se ∈ e.registered, se.currentState = s
  bounds : ∀ se ∈ e.registered, seStateToIndex se.currentState ≤ seStateToIndex s
  running : s = .running → (∃ se ∈ e.registered, se.currentState = .running) ∧
    ∀ se ∈ e.registered, seStateToIndex se.currentState ≤ seStateToIndex .running

section
variable {e : PhmEngine μ}

theorem index_running_le_worst (e : PhmEngine μ) :
    seStateToIndex .running ≤ seStateToIndex e.worst := by
  rw [worst_eq]
  exact rank_le_greatest List.mem_cons_self

theorem index_le_worst {se : SupervisedEntity μ} (h : se ∈ e.registered) :
    seStateToIndex se.currentState ≤ seStateToIndex e.worst := by
  rw [worst_eq]
  exact rank_le_greatest (List.mem_cons_of_mem _ (List.mem_map_of_mem h))

theorem worst_attained_iff :
    (∃ se ∈ e.registered, se.currentState = e.worst) ↔
      ∃ se ∈ e.registered, se.currentState ≠ .init := by
  constructor
  · rintro ⟨se, hse, hworst⟩
    refine ⟨se, hse, fun hinit => ?_⟩
    have hle := index_running_le_worst e
    rw [← hworst, hinit] at hle
    exact absurd hle (by decide)
  · rintro ⟨se, hse, hne⟩
    have hmem : e.worst ∈ .running :: e.registered.map (·.currentState) := by
      rw [worst_eq]
      exact greatest_mem
    rcases List.mem_cons.mp hmem with hrunning | hmap
    · refine ⟨se, hse, ?_⟩
      have hle := index_le_worst hse
      rw [hrunning] at hle ⊢
      cases hstate : se.currentState with
      | init => exact absurd hstate hne
      | running => rfl
      | _ =>
        rw [hstate] at hle
        exact absurd hle (by decide)
    · exact List.mem_map.mp hmap

theorem worstOf_worst_iff : WorstOf e e.worst ↔ ∃ se ∈ e.registered, se.currentState ≠ .init := by
  rw [← worst_attained_iff]
  constructor
  · exact WorstOf.attained
  · intro hattained
    refine ⟨hattained, fun _ => index_le_worst, fun hrunning => ?_⟩
    rw [hrunning] at hattained
    refine ⟨hattained, fun se hse => ?_⟩
    rw [← hrunning]
    exact index_le_worst hse

end

theorem getGlobalState_worstOf_iff {e : PhmEngine μ} (h : Reachable e) :
    (∃ s, getGlobalState e = .ok (s, e) ∧ WorstOf e s) ↔
      ∃ se ∈ e.registered, se.currentState ≠ .init := by
  have hends : Ends getGlobalState e (fun s f => s = e.worst ∧ f = e) (fun _ => False) :=
    (ends_getGlobalState h.ready.free).mpr ⟨rfl, rfl⟩
  obtain ⟨_, _, hanswer, rfl, rfl⟩ := ends_ok_iff.mp hends
  rw [← worstOf_worst_iff, hanswer]
  constructor
  · rintro ⟨s, hs, hworst⟩
    obtain ⟨rfl, -⟩ := Prod.mk.inj (Except.ok.inj hs)
    exact hworst
  · intro hworst
    exact ⟨_, rfl, hworst⟩

theorem started_entity_answers :
    ∃ e : PhmEngine ReportingMonitor, Reachable e ∧
      ∃ s, getGlobalState e = .ok (s, e) ∧ WorstOf e s := by
  have h : Reachable (Runs.run added (new {} : PhmEngine ReportingMonitor) [{ name := "a" }]) :=
    .step (.call (.addSupervisedEntity { name := "a" })) (.new {}) rfl
  have hstarted := h.step (.useEntity 0 (.start fun _ => {})) rfl
  exact ⟨_, hstarted, (getGlobalState_worstOf_iff hstarted).mpr ⟨_, List.mem_singleton_self _, nofun⟩⟩

theorem unstarted_entity_reported_running :
    ∃ e : PhmEngine ReportingMonitor, Reachable e ∧
      e.registered.map (·.currentState) = [.init] ∧ getGlobalState e = .ok (.running, e) ∧
      ¬ ∃ s, getGlobalState e = .ok (s, e) ∧ WorstOf e s := by
  refine ⟨_, .step (.call (.addSupervisedEntity { name := "a" })) (.new {}) rfl, rfl, rfl, ?_⟩
  rintro ⟨s, hs, ⟨se, hse, rfl⟩, -, -⟩
  obtain ⟨hstate, -⟩ := Prod.mk.inj (Except.ok.inj hs)
  obtain rfl := List.mem_singleton.mp hse
  cases hstate

end PhmEngine

end PlatformHealth
