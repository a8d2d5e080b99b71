import PlatformHealth.Engine.Catalog

namespace PlatformHealth

open LockDiscipline

namespace PhmEngine

variable {μ ε : Type} [IMonitor μ ε]

def visits (readings : Nat → EntityReading ε) (e : PhmEngine μ) : List Nat → List Nat
  | [] => []
  | ref :: rest =>
    match e.objects[ref]? with
    | none => visits readings e rest
    | some se =>
      match (Id.run (se.checkAll SupervisedEntity.silent (readings ref).check)).2 with
      | .error _ => [ref]
      | .ok _ => ref :: visits readings e rest

theorem visits_subset (readings : Nat → EntityReading ε) (e : PhmEngine μ) (refs : List Nat) :
    visits readings e refs ⊆ refs := by
  induction refs with
  | nil => exact List.Subset.refl _
  | cons ref rest ih =>
    rw [visits]
    split
    · exact List.subset_cons_of_subset _ ih
    · split
      · exact List.cons_subset_cons _ (List.nil_subset _)
      · exact List.cons_subset_cons _ ih

theorem tickEntities_visits {readings : Nat → EntityReading ε} {refs : List Nat} (hnodup : refs.Nodup)
    {e f : PhmEngine μ} (hfree : f.mutex = false) (hsame : ∀ ref ∈ refs, f.objects[ref]? = e.objects[ref]?) :
    tickEntities readings (visits readings e refs) f = tickEntities readings refs f := by
  induction refs generalizing f with
  | nil => rfl
  | cons ref rest ih =>
    obtain ⟨hnot, hnodup'⟩ := List.nodup_cons.mp hnodup
    have hcons (rs : List Nat) : tickEntities readings (ref :: rs) f =
        (tickEntity ref (readings ref) f >>= fun out => tickEntities readings rs out.2) := rfl
    have hself := hsame ref (by simp)
    rw [visits]
    cases hse : e.objects[ref]? with
    | none =>
      have hskip : tickEntity ref (readings ref) f = .ok ((), f) := by
        have hends : Ends (tickEntity ref (readings ref)) f (fun _ g => g = f) (fun _ => False) := by
          rw [tickEntity, ends_bind, ends_get, hself, hse]
          exact rfl
        obtain ⟨_, g, hg, rfl⟩ := ends_ok_iff.mp hends
        exact hg
      rw [hcons, hskip]
      exact ih hnodup' hfree fun r hr => hsame r (by simp [hr])
    | some se =>
      have hends := ends_tickEntity hfree (hself.trans hse) (readings ref)
      rw [Ends] at hends
      dsimp only
      cases htick : tickEntity ref (readings ref) f with
      | error x =>
        rw [htick] at hends
        obtain ⟨fault, hfault, -⟩ := hends
        rw [hfault]
        dsimp only
        rw [hcons, hcons, htick]
        rfl
      | ok out =>
        rw [htick] at hends
        obtain ⟨hnext, events, hevents⟩ := hends
        rw [hevents]
        dsimp only
        rw [hcons, hcons, htick]
        refine ih hnodup' ?_ ?_
        · rw [hnext]
          exact hfree
        · intro r hr
          have hne : ref ≠ r := fun heq => hnot (heq ▸ hr)
          rw [hnext, store, List.getElem?_set_ne hne]
          exact hsame r (by simp [hr])

def reached (e : PhmEngine μ) : EngineStep μ ε → List Nat
  | .tick readings _ => if e.running then visits readings e e.refs else []
  | _ => []

def startCalls (e : PhmEngine μ) : EngineStep μ ε → List String
  | .call (.start _) =>
    if e.running then [] else (e.registered.filter (·.config.enabled)).map (·.config.name)
  | .tick readings _ =>
    if e.running then
      e.refs.filterMap fun ref => e.objects[ref]?.bind fun se =>
        if restarts se (readings ref) then some se.config.name else none
    else []
  | .useEntity ref (.start _) =>
    if ref ∈ e.refs then (e.objects[ref]?.map (·.config.name)).toList else []
  | _ => []

section
variable {e f : PhmEngine μ}

theorem configOf_of_mem_refs (h : e.Registered) {ref : Nat} {se : SupervisedEntity μ} (href : ref ∈ e.refs)
    (hse : e.objects[ref]? = some se) : e.configOf se.config.name = some se.config := by
  obtain ⟨name, hname⟩ := mem_refs.mp href
  obtain ⟨se', hse', hcfg, -⟩ := h name ref hname
  obtain rfl : se = se' := by simpa [hse] using hse'
  rw [configOf, named, hcfg, hname, Option.bind_some, hse]
  rfl

theorem mem_reached {s : EngineStep μ ε} {ref : Nat} (h : ref ∈ e.reached s) :
    e.running = true ∧ ref ∈ e.refs := by
  cases s with
  | tick readings uptimeMs =>
    rw [reached] at h
    split at h
    · next hrun => exact ⟨hrun, visits_subset readings e e.refs h⟩
    · cases h
  | _ => cases h

theorem exists_of_configOf (h : e.Registered) {name : String} {cfg : SEConfig}
    (hcfg : e.configOf name = some cfg) : ∃ se ∈ e.registered, se.config = cfg ∧ cfg.name = name := by
  obtain ⟨se, hnamed, rfl⟩ := Option.map_eq_some_iff.mp hcfg
  obtain ⟨ref, href, hse⟩ := Option.bind_eq_some_iff.mp hnamed
  obtain ⟨se', hse', hname, -⟩ := h name ref href
  obtain rfl : se = se' := by simpa [hse] using hse'
  exact ⟨se, List.mem_filterMap.mpr ⟨ref, mem_refs.mpr ⟨name, href⟩, hse⟩, rfl, hname⟩

end

end PhmEngine

structure TickCall where
  name : String
  enabled : Bool
  started : Bool
deriving DecidableEq, Repr

-- engine is none once a call has not come back: a relock, or a throw on the worker thread
structure Ledger (μ : Type) where
  engine : Option (PhmEngine μ)
  started : List String := []
  calls : List TickCall := []

namespace Ledger

open PhmEngine

variable {μ ε : Type} [IMonitor μ ε]

def tickCalls (started : List String) (e : PhmEngine μ) (s : EngineStep μ ε) : List TickCall :=
  (e.reached s).filterMap fun ref => e.objects[ref]?.map fun se =>
    ⟨se.config.name, se.config.enabled, decide (se.config.name ∈ started)⟩

def step (t : Ledger μ) (s : EngineStep μ ε) : Ledger μ :=
  match t.engine with
  | none => t
  | some e =>
    match exec s e with
    | .error _ => { t with engine := none, calls := t.calls ++ tickCalls t.started e s }
    | .ok (_, f) =>
      { engine := some f
        started := t.started.filter (e.entities.contains ·) ++ e.startCalls s
        calls := t.calls ++ tickCalls t.started e s }

structure Kept (t : Ledger μ) : Prop where
  started : ∀ e, t.engine = some e → e.running = true → ∀ name cfg, e.configOf name = some cfg →
    cfg.enabled = true → name ∈ t.started
  ticked : ∀ c ∈ t.calls, c.enabled = true ∧ c.started = true

structure Admits (e : PhmEngine μ) (s : EngineStep μ ε) : Prop where
  newcomers : e.running = true → ∀ name cfg, e.entities.contains name = false →
    entryOf (e.incoming s) name = some cfg → cfg.enabled = false
  ticked : ∀ ref ∈ e.reached s, ∀ se, e.objects[ref]? = some se → se.config.enabled = true

def Ready (t : Ledger μ) : Prop := ∀ e, t.engine = some e → e.Ready

section
variable {t : Ledger μ} {e f : PhmEngine μ} {s : EngineStep μ ε}

theorem tickCalls_iff (he : e.Registered) (hkept : t.Kept) (hengine : t.engine = some e) :
    (∀ c ∈ tickCalls t.started e s, c.enabled = true ∧ c.started = true) ↔
      ∀ ref ∈ e.reached s, ∀ se, e.objects[ref]? = some se → se.config.enabled = true := by
  simp only [tickCalls, List.mem_filterMap, Option.map_eq_some_iff]
  constructor
  · intro h ref href se hse
    exact (h _ ⟨ref, href, se, hse, rfl⟩).1
  · rintro h c ⟨ref, href, se, hse, rfl⟩
    obtain ⟨hrun, hmem⟩ := mem_reached href
    have henabled := h ref href se hse
    have hstarted := hkept.started e hengine hrun _ _ (configOf_of_mem_refs he hmem hse) henabled
    exact ⟨henabled, decide_eq_true hstarted⟩

theorem startCalls_of_incoming {name : String} {cfg : SEConfig} (h : entryOf (e.incoming s) name = some cfg) :
    e.startCalls s = [] ∧ runningAfter s e.running = e.running := by
  cases s with
  | call op => cases op <;> first | exact ⟨rfl, rfl⟩ | cases h
  | _ => cases h

omit [IMonitor μ ε] in
theorem start_of_runningAfter (h : runningAfter s false = true) :
    ∃ readings, s = .call (.start readings) := by
  cases s with
  | call op =>
    cases op with
    | start readings => exact ⟨readings, rfl⟩
    | _ => cases h
  | _ => cases h

theorem configOf_cases (he : e.Ready) (h : Effect s e f) {name : String} {cfg : SEConfig}
    (hcfg : f.configOf name = some cfg) :
    e.configOf name = some cfg ∨ (e.configOf name = none ∧ entryOf (e.incoming s) name = some cfg) := by
  rcases h.configOf he with ⟨removed, rfl, hremoved⟩ | hadded
  · rw [hremoved] at hcfg
    split at hcfg
    · cases hcfg
    · exact .inl hcfg
  · rw [hadded] at hcfg
    cases hold : e.configOf name with
    | none => exact .inr ⟨rfl, by rwa [hold, Option.none_or] at hcfg⟩
    | some old => exact .inl (by rwa [hold, Option.some_or] at hcfg)

theorem configOf_incoming (he : e.Ready) (h : Effect s e f) {name : String} {cfg : SEConfig}
    (hnew : e.configOf name = none) (hcfg : entryOf (e.incoming s) name = some cfg) :
    f.configOf name = some cfg := by
  rcases h.configOf he with ⟨removed, rfl, -⟩ | hadded
  · cases hcfg
  · rw [hadded, hnew, Option.none_or, hcfg]

theorem started_iff (he : e.Ready) (hkept : t.Kept) (hengine : t.engine = some e) (h : Effect s e f) :
    (f.running = true → ∀ name cfg, f.configOf name = some cfg → cfg.enabled = true →
        name ∈ t.started.filter (e.entities.contains ·) ++ e.startCalls s) ↔
      (e.running = true → ∀ name cfg, e.entities.contains name = false →
        entryOf (e.incoming s) name = some cfg → cfg.enabled = false) := by
  have hknown (name : String) : e.entities.contains name = (e.configOf name).isSome :=
    (configOf_isSome he.registered name).symm
  constructor
  · intro hall hrun name cfg hnew hcfg
    obtain ⟨hnone, hafter⟩ := startCalls_of_incoming hcfg
    have hrun' : f.running = true := by rw [h.frame.running, hafter, hrun]
    have hcfg' : f.configOf name = some cfg :=
      configOf_incoming he h (by simpa [hnew] using (hknown name).symm) hcfg
    by_contra henabled
    have hmem := hall hrun' name cfg hcfg' (by simpa using henabled)
    rw [hnone, List.append_nil, List.mem_filter, hnew] at hmem
    exact Bool.false_ne_true hmem.2
  · intro hguard hrun' name cfg hcfg' henabled
    rcases configOf_cases he h hcfg' with hold | ⟨hnone, hin⟩
    · cases hrun : e.running with
      | true =>
        have hmem := hkept.started e hengine hrun name cfg hold henabled
        exact List.mem_append_left _ (List.mem_filter.mpr ⟨hmem, by rw [hknown, hold]; rfl⟩)
      | false =>
        rw [h.frame.running, hrun] at hrun'
        obtain ⟨readings, rfl⟩ := start_of_runningAfter hrun'
        obtain ⟨se, hse, rfl, hname⟩ := exists_of_configOf he.registered hold
        refine List.mem_append_right _ ?_
        rw [startCalls, hrun, if_neg Bool.false_ne_true, List.mem_map]
        exact ⟨se, List.mem_filter.mpr ⟨hse, henabled⟩, hname⟩
    · obtain ⟨-, hafter⟩ := startCalls_of_incoming hin
      rw [h.frame.running, hafter] at hrun'
      have hdisabled := hguard hrun' name cfg (by rw [hknown, hnone]; rfl) hin
      rw [henabled] at hdisabled
      cases hdisabled

theorem incoming_of_error (he : e.Ready) {x : Fault CheckFault} (h : exec s e = .error x) :
    e.incoming s = [] := by
  cases s with
  | call op => rcases start_or_getStats_of_error he h with ⟨readings, rfl⟩ | rfl <;> rfl
  | _ => rfl

theorem Ready.step (h : t.Ready) (s : EngineStep μ ε) : (t.step s).Ready := by
  unfold Ledger.step
  cases hengine : t.engine with
  | none => simp [Ledger.Ready, hengine]
  | some e =>
    have hkeeps := exec_keeps (h e hengine) s
    rw [Ends] at hkeeps
    dsimp only
    cases hexec : exec s e with
    | error x => rintro f ⟨⟩
    | ok out =>
      rw [hexec] at hkeeps
      rintro f ⟨⟩
      exact hkeeps

theorem kept_step_iff (hready : t.Ready) (hkept : t.Kept) (s : EngineStep μ ε) :
    (t.step s).Kept ↔ ∀ e, t.engine = some e → Admits e s := by
  cases hengine : t.engine with
  | none =>
    have hsame : t.step s = t := by rw [Ledger.step, hengine]
    rw [hsame]
    exact iff_of_true hkept (by simp)
  | some e =>
    have he := hready e hengine
    have hticked := tickCalls_iff (s := s) he.registered hkept hengine
    have hcalls : (∀ c ∈ t.calls ++ tickCalls t.started e s, c.enabled = true ∧ c.started = true) ↔
        ∀ ref ∈ e.reached s, ∀ se, e.objects[ref]? = some se → se.config.enabled = true := by
      rw [← hticked, List.forall_mem_append]
      exact and_iff_right hkept.ticked
    simp only [Option.some.injEq, forall_eq', Ledger.step, hengine]
    cases hexec : exec s e with
    | error x =>
      constructor
      · intro h
        refine ⟨?_, hcalls.mp h.ticked⟩
        intro _ name cfg _ hcfg
        rw [incoming_of_error he hexec] at hcfg
        cases hcfg
      · intro h
        exact ⟨by rintro f ⟨⟩, hcalls.mpr h.ticked⟩
    | ok out =>
      obtain ⟨_, f⟩ := out
      have hiff := started_iff he hkept hengine (effect_of_exec he hexec)
      constructor
      · intro h
        exact ⟨hiff.mp (h.started f rfl), hcalls.mp h.ticked⟩
      · intro h
        refine ⟨?_, hcalls.mpr h.ticked⟩
        rintro f ⟨⟩
        exact hiff.mpr h.newcomers

end

theorem supervised_iff (c : PhmConfig) (steps : List (EngineStep μ ε)) :
    let fresh : Ledger μ := { engine := some (new c) }
    Runs.Always step Kept fresh steps ↔
      Runs.Each step (fun t s => ∀ e, t.engine = some e → Admits e s) fresh steps := by
  refine Runs.always_iff_each (I := Ready) (fun _ s hready hkept => kept_step_iff hready hkept s)
    (fun _ s hready => hready.step s) ?_ ⟨?_, by simp⟩
  · rintro e ⟨⟩
    exact ⟨rfl, registered_new c⟩
  · rintro e ⟨⟩ hrun
    cases hrun

theorem ticked_without_start :
    let start : EngineStep ReportingMonitor Report := .call (.start fun _ _ => {})
    let tick : EngineStep ReportingMonitor Report :=
      .tick (fun _ => { check := fun _ => {}, restart := fun _ => {} }) 0
    let late := Runs.run step { engine := some (new {}) }
      [start, .call (.addSupervisedEntity { name := "late" }), tick]
    let disabled := Runs.run step { engine := some (new {}) }
      [.call (.addSupervisedEntity { name := "off", enabled := false }), start, tick]
    late.calls = [⟨"late", true, false⟩] ∧ ¬ late.Kept ∧
      disabled.calls = [⟨"off", false, false⟩] ∧ ¬ disabled.Kept := by
  intro start tick late disabled
  have hlate : late.calls = [⟨"late", true, false⟩] := by decide +kernel
  have hdisabled : disabled.calls = [⟨"off", false, false⟩] := by decide +kernel
  refine ⟨hlate, ?_, hdisabled, ?_⟩
  · intro h
    have hcall := h.ticked ⟨"late", true, false⟩ (by rw [hlate]; exact List.mem_singleton.mpr rfl)
    exact Bool.false_ne_true hcall.2
  · intro h
    have hcall := h.ticked ⟨"off", false, false⟩ (by rw [hdisabled]; exact List.mem_singleton.mpr rfl)
    exact Bool.false_ne_true hcall.1

end Ledger

end PlatformHealth
