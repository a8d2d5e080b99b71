import PlatformHealth.Engine.Steps

namespace PlatformHealth

open LockDiscipline

namespace PhmEngine

variable {μ ε : Type} [IMonitor μ ε]

structure Effective (g : PhmConfig) (e : PhmEngine μ) : Prop where
  config : getConfig e = .ok (g, e)
  tick : ∀ interval, e.worker = some interval → interval = g.tickInterval
  data : e.dataDir = g.logDir ++ "/data"

end PhmEngine

-- engine is none once a call has not come back; loaded is the last global section loaded
structure Tenure (μ : Type) where
  engine : Option (PhmEngine μ)
  loaded : Option PhmConfig := none

namespace Tenure

open PhmEngine

variable {μ ε : Type} [IMonitor μ ε]

def step (t : Tenure μ) (s : EngineStep μ ε) : Tenure μ :=
  match t.engine with
  | none => t
  | some e =>
    match exec s e with
    | .error _ => { t with engine := none }
    | .ok (_, f) => { engine := some f, loaded := (e.globalOf s).or t.loaded }

def Governed (t : Tenure μ) : Prop :=
  ∀ e g, t.engine = some e → t.loaded = some g → e.Effective g

-- what is loaded is what the engine was made with, its log_dir being given
def Unchanged (c : PhmConfig) (t : Tenure μ) (s : EngineStep μ ε) : Prop :=
  ∀ e g, t.engine = some e → e.globalOf s = some g → g = c ∧ c.logDir ≠ ""

structure Traced (c : PhmConfig) (loaded : Option PhmConfig) (e : PhmEngine μ) : Prop where
  ready : e.Ready
  ctorConfig : e.ctorConfig = c
  dataDir : e.dataDir = (new c : PhmEngine μ).dataDir
  config : e.config = loaded.getD c
  tick : loaded = none → ∀ interval, e.worker = some interval → interval = c.tickInterval

section
variable {c : PhmConfig} {e f : PhmEngine μ} {loaded : Option PhmConfig} {s : EngineStep μ ε}

omit [IMonitor μ ε] in
theorem workerAfter_cases {interval : Int} (h : e.workerAfter s = some interval) :
    e.worker = some interval ∨ interval = e.config.tickInterval := by
  unfold workerAfter at h
  split at h
  · split at h
    · exact .inl h
    · exact .inr (Option.some.inj h).symm
  · split at h
    · cases h
    · exact .inl h
  · exact .inl h

theorem Traced.step (h : Traced c loaded e) (hexec : exec s e = .ok ((), f)) :
    Traced c ((e.globalOf s).or loaded) f := by
  have hkeeps := exec_keeps h.ready s
  rw [Ends, hexec] at hkeeps
  have hset := (effect_of_exec h.ready hexec).frame
  refine ⟨hkeeps, hset.ctorConfig.trans h.ctorConfig, hset.dataDir.trans h.dataDir, ?_, ?_⟩
  · rw [hset.config, h.config]
    cases e.globalOf s <;> rfl
  · intro hnone interval hinterval
    obtain ⟨-, rfl⟩ := Option.or_eq_none_iff.mp hnone
    rw [hset.worker] at hinterval
    rcases workerAfter_cases hinterval with hold | hnew
    · exact h.tick rfl interval hold
    · rw [hnew, h.config]
      rfl

theorem dataDir_iff (c : PhmConfig) :
    (new c : PhmEngine μ).dataDir = c.logDir ++ "/data" ↔ c.logDir ≠ "" := by
  by_cases hdir : c.logDir = ""
  · simp [new, hdir]
  · simp [new, hdir]

theorem globalOf_of_error (he : e.Ready) {x : Fault CheckFault} (h : exec s e = .error x) :
    e.globalOf s = none := by
  cases s with
  | call op => rcases start_or_getStats_of_error he h with ⟨readings, rfl⟩ | rfl <;> rfl
  | _ => rfl

theorem effective_step_iff (h : Traced c loaded e) (hbefore : ∀ g, loaded = some g → e.Effective g)
    (hexec : exec s e = .ok ((), f)) :
    (∀ g, (e.globalOf s).or loaded = some g → f.Effective g) ↔
      ∀ g, e.globalOf s = some g → g = c ∧ c.logDir ≠ "" := by
  have hset := (effect_of_exec h.ready hexec).frame
  have hafter := h.step hexec
  cases hglobal : e.globalOf s with
  | none =>
    rw [hglobal] at hset
    refine iff_of_true ?_ (by simp)
    intro g hg
    have hg : loaded = some g := hg
    have heff := hbefore g hg
    have hctor : e.ctorConfig = g := congrArg Prod.fst (Except.ok.inj heff.config)
    refine ⟨?_, ?_, hset.dataDir.trans heff.data⟩
    · rw [← hctor, ← hset.ctorConfig]
      rfl
    · intro interval hinterval
      rw [hset.worker] at hinterval
      rcases workerAfter_cases hinterval with hold | hnew
      · exact heff.tick interval hold
      · rw [hnew, h.config, hg]
        rfl
  | some g =>
    simp only [Option.some_or, Option.some.injEq, forall_eq']
    constructor
    · intro heff
      obtain rfl : f.ctorConfig = g := congrArg Prod.fst (Except.ok.inj heff.config)
      refine ⟨hafter.ctorConfig, (dataDir_iff (μ := μ) c).mp ?_⟩
      rw [← hafter.dataDir, heff.data, hafter.ctorConfig]
    · rintro ⟨rfl, hdir⟩
      refine ⟨?_, ?_, ?_⟩
      · rw [← hafter.ctorConfig]
        rfl
      · intro interval hinterval
        rw [hset.worker] at hinterval
        rcases workerAfter_cases hinterval with hold | hnew
        · cases hloaded : loaded with
          | none => exact h.tick hloaded interval hold
          | some old =>
            have heff := hbefore old hloaded
            have hctor : e.ctorConfig = old := congrArg Prod.fst (Except.ok.inj heff.config)
            rw [heff.tick interval hold, ← hctor, h.ctorConfig]
        · rw [hnew, h.config]
          cases hloaded : loaded with
          | none => rfl
          | some old =>
            have hctor : e.ctorConfig = old :=
              congrArg Prod.fst (Except.ok.inj (hbefore old hloaded).config)
            rw [Option.getD_some, ← hctor, h.ctorConfig]
      · rw [hafter.dataDir, dataDir_iff]
        exact hdir

end

theorem step_of_error {e : PhmEngine μ} {s : EngineStep μ ε} {x : Fault CheckFault}
    (h : exec s e = .error x) (loaded : Option PhmConfig) :
    step ⟨some e, loaded⟩ s = ⟨none, loaded⟩ := by
  simp only [step, h]

theorem step_of_ok {e f : PhmEngine μ} {s : EngineStep μ ε} (h : exec s e = .ok ((), f))
    (loaded : Option PhmConfig) : step ⟨some e, loaded⟩ s = ⟨some f, (e.globalOf s).or loaded⟩ := by
  simp only [step, h]

theorem governed_iff {e : PhmEngine μ} {loaded : Option PhmConfig} :
    Governed ⟨some e, loaded⟩ ↔ ∀ g, loaded = some g → e.Effective g :=
  ⟨fun h g hg => h e g rfl hg, by rintro h e g ⟨⟩ hg; exact h g hg⟩

omit [IMonitor μ ε] in
theorem unchanged_iff {c : PhmConfig} {e : PhmEngine μ} {loaded : Option PhmConfig}
    {s : EngineStep μ ε} :
    Unchanged c ⟨some e, loaded⟩ s ↔ ∀ g, e.globalOf s = some g → g = c ∧ c.logDir ≠ "" :=
  ⟨fun h g hg => h e g rfl hg, by rintro h e g ⟨⟩ hg; exact h g hg⟩

def Steady (c : PhmConfig) (t : Tenure μ) : Prop := ∀ e, t.engine = some e → Traced c t.loaded e

theorem Steady.step {c : PhmConfig} {t : Tenure μ} (h : t.Steady c) (s : EngineStep μ ε) :
    (t.step s).Steady c := by
  obtain ⟨engine, loaded⟩ := t
  cases engine with
  | none => exact h
  | some e =>
    cases hexec : exec s e with
    | error x =>
      rw [step_of_error hexec]
      rintro f ⟨⟩
    | ok out =>
      rw [step_of_ok hexec]
      rintro f ⟨⟩
      exact (h e rfl).step hexec

theorem governed_step_iff {c : PhmConfig} {t : Tenure μ} (h : t.Steady c) (hgov : t.Governed)
    (s : EngineStep μ ε) : (t.step s).Governed ↔ t.Unchanged c s := by
  obtain ⟨engine, loaded⟩ := t
  cases engine with
  | none => exact iff_of_true hgov (by rintro e g ⟨⟩)
  | some e =>
    rw [unchanged_iff]
    cases hexec : exec s e with
    | error x =>
      rw [step_of_error hexec, globalOf_of_error (h e rfl).ready hexec]
      exact iff_of_true (by rintro e g ⟨⟩) (by rintro g ⟨⟩)
    | ok out =>
      rw [step_of_ok hexec, governed_iff]
      exact effective_step_iff (h e rfl) (governed_iff.mp hgov) hexec

theorem effective_iff (c : PhmConfig) (steps : List (EngineStep μ ε)) :
    let fresh : Tenure μ := { engine := some (new c) }
    Runs.Always step Governed fresh steps ↔ Runs.Each step (Unchanged c) fresh steps := by
  refine Runs.always_iff_each (I := Steady c) (fun _ s h hgov => governed_step_iff h hgov s)
    (fun _ s h => h.step s) ?_ ?_
  · rintro e ⟨⟩
    exact ⟨⟨rfl, registered_new c⟩, rfl, rfl, rfl, by rintro - interval ⟨⟩⟩
  · rintro e g - ⟨⟩

theorem reload_keeps_interval :
    let d : ParseResult := { global := { tickInterval := 50, logDir := "/tmp" } }
    let d' : ParseResult := { global := { tickInterval := 20, logDir := "/srv" } }
    let t : Tenure ReportingMonitor := Runs.run step { engine := some (new {}) }
      [.call (.loadConfiguration "/etc/phm/se_config.json" (.ok d)), .call (.start fun _ _ => {}),
        .call (.reloadConfiguration (.ok d'))]
    t.loaded.map (fun g => (g.tickInterval, g.logDir)) = some (20, "/srv") ∧
      t.engine.map (fun e => (e.ctorConfig.tickInterval, e.worker, e.dataDir)) =
        some (100, some 50, "/var/log/phmd/data") ∧ ¬ t.Governed := by
  intro d d' t
  have hloaded : t.loaded.map (fun g => (g.tickInterval, g.logDir)) = some (20, "/srv") := by
    decide +kernel
  have hengine : t.engine.map (fun e => (e.ctorConfig.tickInterval, e.worker, e.dataDir)) =
      some (100, some 50, "/var/log/phmd/data") := by decide +kernel
  refine ⟨hloaded, hengine, ?_⟩
  intro h
  obtain ⟨g, hg, hglobal⟩ := Option.map_eq_some_iff.mp hloaded
  obtain ⟨e, he, hview⟩ := Option.map_eq_some_iff.mp hengine
  have htick := (h e g he hg).tick 50 (congrArg (·.2.1) hview)
  have hnew : g.tickInterval = 20 := congrArg Prod.fst hglobal
  rw [hnew] at htick
  exact absurd htick (by decide)

end Tenure

end PlatformHealth
