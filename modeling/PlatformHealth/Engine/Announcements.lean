import PlatformHealth.Engine.Steps
import PlatformHealth.Library.Greatest
import PlatformHealth.Entity.Replay
import Mathlib.Data.List.Nodup

namespace PlatformHealth

open LockDiscipline Greatest

namespace PhmEngine

variable {μ ε : Type} [IMonitor μ ε]

theorem Reachable.announced {e : PhmEngine μ} (h : Reachable e) : e.announced = [] := by
  induction h with
  | new cfg => rfl
  | step s hreach hexec ih => exact (effect_of_exec hreach.ready hexec).frame.announced.trans ih

def others (e : PhmEngine μ) (ref : Nat) : List (SupervisedEntity μ) :=
  (e.refs.erase ref).filterMap (e.objects[·]?)

section
variable {e : PhmEngine μ} {ref : Nat} {se : SupervisedEntity μ}

theorem worst_eq (e : PhmEngine μ) :
    e.worst = greatest seStateToIndex .running (e.registered.map (·.currentState)) := by
  rw [greatest, List.foldl_map]
  rfl

theorem filterMap_store {rs : List Nat} (hnot : ref ∉ rs) (se : SupervisedEntity μ) :
    rs.filterMap ((e.store ref se).objects[·]?) = rs.filterMap (e.objects[·]?) := by
  refine List.filterMap_congr fun r hr => ?_
  have hne : ref ≠ r := fun heq => hnot (heq ▸ hr)
  exact List.getElem?_set_ne hne

theorem registered_store (he : e.Registered) (href : ref ∈ e.refs) (hse : e.objects[ref]? = some se) :
    ∃ pre post, e.others ref = pre ++ post ∧ ∀ se', (e.store ref se').registered = pre ++ se' :: post := by
  obtain ⟨pre, post, hrefs⟩ := List.append_of_mem href
  have hnodup := he.nodup_refs
  rw [hrefs, List.nodup_middle, List.nodup_cons, List.mem_append, not_or] at hnodup
  obtain ⟨⟨hpre, hpost⟩, -⟩ := hnodup
  have hlt := (List.getElem?_eq_some_iff.mp hse).1
  refine ⟨pre.filterMap (e.objects[·]?), post.filterMap (e.objects[·]?), ?_, ?_⟩
  · rw [others, hrefs, List.erase_append_right _ hpre, List.erase_cons_head, List.filterMap_append]
  · intro se'
    have hself : (e.store ref se').objects[ref]? = some se' := List.getElem?_set_self hlt
    change (e.refs).filterMap ((e.store ref se').objects[·]?) = _
    rw [hrefs, List.filterMap_append, List.filterMap_cons, hself, filterMap_store hpre, filterMap_store hpost]

theorem store_self (hse : e.objects[ref]? = some se) : e.store ref se = e := by
  obtain ⟨hlt, rfl⟩ := List.getElem?_eq_some_iff.mp hse
  rw [store, List.set_getElem_self]

theorem registered_store_of_notMem (hnot : ref ∉ e.refs) (se : SupervisedEntity μ) :
    (e.store ref se).registered = e.registered :=
  filterMap_store hnot se

-- another registered entity, or the floor RUNNING, is as bad as both states of this one
def Covered (e : PhmEngine μ) (ref : Nat) (target : SeState) : Prop :=
  ref ∈ e.refs → ∀ se, e.objects[ref]? = some se → isTransitionAllowed se.currentState target = true →
    ∃ s ∈ .running :: (e.others ref).map (·.currentState),
      seStateToIndex se.currentState ≤ seStateToIndex s ∧ seStateToIndex target ≤ seStateToIndex s

def changeState (ref : Nat) (target : SeState) : EngineM μ Unit := do
  match (← get).objects[ref]? with
  | none => return
  | some se =>
    let (se, _) ← se.transitionTo (stateCallback ref) target
    modify (·.store ref se)

def changed (e : PhmEngine μ) (ref : Nat) (target : SeState) : PhmEngine μ :=
  match e.objects[ref]? with
  | none => e
  | some se => e.store ref { se with currentState := enter se.currentState target }

theorem changeState_eq (hfree : e.mutex = false) (ref : Nat) (target : SeState) :
    changeState ref target e = .ok ((), e.changed ref target) := by
  have hends : Ends (changeState ref target) e (fun _ f => f = e.changed ref target)
      (fun _ => False) := by
    rw [changeState, changed, ends_bind, ends_get]
    cases hse : e.objects[ref]? with
    | none => exact rfl
    | some se =>
      dsimp only
      rw [ends_bind]
      refine (SupervisedEntity.simulates_transitionTo (simulates_aside ref) target se e
        (.refl hfree ref)).mono ?_ (fun _ h => h)
      rintro ⟨se', ok⟩ f ⟨hout, hf⟩
      rw [SupervisedEntity.transitionTo_silent] at hout
      obtain rfl : se' = { se with currentState := enter se.currentState target } :=
        congrArg Prod.fst hout
      exact hf.store _
  obtain ⟨_, f, hf, rfl⟩ := ends_ok_iff.mp hends
  exact hf

theorem worst_changed_iff (he : e.Registered) (ref : Nat) (target : SeState) :
    e.worst = (e.changed ref target).worst ↔ e.Covered ref target := by
  unfold changed
  cases hse : e.objects[ref]? with
  | none => exact iff_of_true rfl (by simp [Covered, hse])
  | some se =>
    dsimp only
    by_cases href : ref ∈ e.refs
    · cases hallowed : isTransitionAllowed se.currentState target with
      | false =>
        have hsame : e.store ref { se with currentState := enter se.currentState target } = e := by
          rw [enter, hallowed, if_neg Bool.false_ne_true]
          exact store_self hse
        rw [hsame]
        exact iff_of_true rfl (by simp [Covered, hse, hallowed])
      | true =>
        obtain ⟨pre, post, hothers, hstored⟩ := registered_store he href hse
        have hbefore : e.registered = pre ++ se :: post := by
          have h := hstored se
          rwa [store_self hse] at h
        have hcovered : e.Covered ref target ↔
            ∃ s ∈ .running :: (pre.map (·.currentState) ++ post.map (·.currentState)),
              seStateToIndex se.currentState ≤ seStateToIndex s ∧
                seStateToIndex target ≤ seStateToIndex s := by
          simp only [Covered, href, hse, hothers, List.map_append, Option.some.injEq, forall_true_left,
            forall_eq', hallowed]
        rw [hcovered, worst_eq, worst_eq, hbefore, hstored, enter, if_pos hallowed, List.map_append,
          List.map_append, List.map_cons, List.map_cons]
        exact greatest_replace_iff seStateToIndex_injective (ne_of_allowed hallowed).symm
    · have hsame : (e.store ref { se with currentState := enter se.currentState target }).worst = e.worst := by
        rw [worst_eq, worst_eq, registered_store_of_notMem href]
      rw [hsame]
      exact iff_of_true rfl fun h => absurd h href

end

end PhmEngine

structure Announced (μ : Type) where
  engine : PhmEngine μ
  due : List (SeState × SeState) := []

namespace Announced

open PhmEngine

variable {μ ε : Type} [IMonitor μ ε]

def change (t : Announced μ) (c : Nat × SeState) : Announced μ :=
  match changeState c.1 c.2 t.engine with
  | .error _ => t
  | .ok (_, f) =>
    { engine := f
      due := if t.engine.worst = f.worst then t.due else t.due ++ [(t.engine.worst, f.worst)] }

def Exact (initial : SeState) (t : Announced μ) : Prop :=
  t.engine.announced = t.due ∧
    t.engine.announced.foldl (fun _ call => call.2) initial = t.engine.worst

structure Quiet (t : Announced μ) : Prop where
  ready : t.engine.Ready
  announced : t.engine.announced = []

section
variable {t : Announced μ} {initial : SeState}

theorem change_eq (h : t.Quiet) (c : Nat × SeState) :
    t.change c =
      { engine := t.engine.changed c.1 c.2
        due := if t.engine.worst = (t.engine.changed c.1 c.2).worst then t.due
          else t.due ++ [(t.engine.worst, (t.engine.changed c.1 c.2).worst)] } := by
  rw [change, changeState_eq h.ready.free]

theorem Quiet.change (h : t.Quiet) (c : Nat × SeState) : (t.change c).Quiet := by
  rw [change_eq h]
  unfold changed
  split
  · exact ⟨h.ready, h.announced⟩
  · next se hse => exact ⟨h.ready.store h.ready.follows hse rfl id, h.announced⟩

theorem exact_change_iff (h : t.Quiet) (hexact : t.Exact initial) (c : Nat × SeState) :
    (t.change c).Exact initial ↔ t.engine.Covered c.1 c.2 := by
  have hdue : t.due = [] := by rw [← hexact.1, h.announced]
  have hinitial : initial = t.engine.worst := by
    have hfold := hexact.2
    rwa [h.announced] at hfold
  have hannounced : (t.change c).engine.announced = [] := (h.change c).announced
  rw [← worst_changed_iff h.ready.registered, Exact, hannounced, change_eq h, hdue, hinitial]
  by_cases hsame : t.engine.worst = (t.engine.changed c.1 c.2).worst <;> simp [hsame]

end

theorem announced_iff {e : PhmEngine μ} (h : Reachable e) (changes : List (Nat × SeState)) :
    let installed : Announced μ := { engine := { e with globalStateCb := true } }
    Runs.Always change (Exact e.worst) installed changes ↔
      Runs.Each change (fun t c => t.engine.Covered c.1 c.2) installed changes :=
  Runs.always_iff_each (I := Quiet) (fun _ c hquiet hexact => exact_change_iff hquiet hexact c)
    (fun _ c hquiet => hquiet.change c)
    ⟨h.ready.evolves (.refl _) rfl h.ready.free, h.announced⟩ ⟨h.announced, by rw [h.announced]; rfl⟩

theorem first_starts_announced :
    ∃ e : PhmEngine ReportingMonitor, Reachable e ∧
      Runs.Always change (Exact e.worst) { engine := { e with globalStateCb := true } }
        [(0, .running), (1, .running)] := by
  have h : Reachable (Runs.run added (new {} : PhmEngine ReportingMonitor)
      [{ name := "a" }, { name := "b" }]) := by
    refine .step (.call (.addSupervisedEntity { name := "b" })) (.step
      (.call (.addSupervisedEntity { name := "a" })) (.new {}) rfl) rfl
  refine ⟨_, h, (announced_iff h _).mpr ⟨?_, ?_, trivial⟩⟩
  · intro _ se hse _
    obtain rfl := Option.some.inj hse
    exact ⟨.running, by simp, by decide, by decide⟩
  · intro _ se hse _
    obtain rfl := Option.some.inj hse
    exact ⟨.running, by simp, by decide, by decide⟩

theorem error_unannounced :
    ∃ e : PhmEngine ReportingMonitor, Reachable e ∧
      let t := Runs.run change { engine := { e with globalStateCb := true } }
        [(0, .running), (0, .error)]
      t.due = [(.running, .error)] ∧ t.engine.worst = .error ∧ t.engine.announced = [] ∧
        ¬ t.Exact e.worst := by
  refine ⟨_, .step (.call (.addSupervisedEntity { name := "se" })) (.new {}) rfl, ?_⟩
  exact ⟨by decide +kernel, by decide +kernel, by decide +kernel, fun h => absurd h.1 (by decide +kernel)⟩

end Announced

end PlatformHealth
