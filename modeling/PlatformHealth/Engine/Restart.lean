import PlatformHealth.Engine.Supervision

namespace PlatformHealth

-- one time the tick loop finds the entity in FATAL after its checks
structure Finding where
  now : Int
  recovery : Bool
  config : SEConfig
  after : SeState

namespace Finding

def restarted (x : Finding) : Bool := x.after ≠ .fatal

-- now is in milliseconds, restart_delay in seconds
structure Allowed (recovery : Bool) (cfg : SEConfig) (now : Int) (earlier : List Finding) : Prop where
  recovery : recovery = true
  budget : (earlier.filter restarted).length < cfg.maxRestartCount.toNat
  delay : ∀ last, earlier.find? restarted = some last → last.now + cfg.restartDelay * 1000 ≤ now

def Budgeted : List Finding → Prop
  | [] => True
  | x :: earlier =>
    Budgeted earlier ∧
      (x.restarted = true → x.config.autoRestart = true ∧ Allowed x.recovery x.config x.now earlier)

theorem Budgeted.length_le {cfg : SEConfig} {xs : List Finding} (h : Budgeted xs)
    (hcfg : ∀ x ∈ xs, x.config = cfg) : (xs.filter restarted).length ≤ cfg.maxRestartCount.toNat := by
  induction xs with
  | nil => simp
  | cons x earlier ih =>
    have hrest := ih h.1 fun y hy => hcfg y (by simp [hy])
    cases hx : x.restarted with
    | false => simpa [hx] using hrest
    | true =>
      have hbudget := (h.2 hx).2.budget
      rw [hcfg x (by simp)] at hbudget
      rw [List.filter_cons_of_pos hx, List.length_cons]
      exact hbudget

theorem Budgeted.stays {x : Finding} {earlier : List Finding} (h : Budgeted (x :: earlier))
    (hspent : x.config.maxRestartCount.toNat ≤ (earlier.filter restarted).length) : x.after = .fatal := by
  by_contra hne
  have hbudget := (h.2 (decide_eq_true hne)).2.budget
  exact absurd hbudget (not_lt.mpr hspent)

end Finding

namespace PhmEngine

variable {μ ε : Type} [IMonitor μ ε]

def foundFatal (se : SupervisedEntity μ) (r : EntityReading ε) : Bool :=
  match (Id.run (se.checkAll SupervisedEntity.silent r.check)).2 with
  | .error _ => false
  | .ok _ => (se.apply (.checkAll r.check)).currentState = .fatal

def found (e : PhmEngine μ) (ref : Nat) : EngineStep μ ε → Option (SupervisedEntity μ × EntityReading ε)
  | .tick readings uptimeMs =>
    if ref ∈ e.reached (.tick readings uptimeMs) then
      (e.objects[ref]?.filter (foundFatal · (readings ref))).map (·, readings ref)
    else none
  | _ => none

section
variable {se : SupervisedEntity μ} {r : EntityReading ε}

theorem currentState_start_reset (se : SupervisedEntity μ) (readings : Nat → ε) :
    (se.reset.apply (.start readings)).currentState ≠ .fatal := by
  have hcore := congrArg SupervisedEntity.currentState (SupervisedEntity.core_apply se.reset (.start readings))
  rw [SupervisedEntity.core_currentState] at hcore
  rw [hcore, SupervisedEntity.actions]
  split
  · change SeState.running ≠ .fatal
    decide
  · change SeState.init ≠ .fatal
    decide

theorem restarts_iff (h : foundFatal se r = true) :
    (entityTick se r).currentState ≠ .fatal ↔ se.config.autoRestart = true := by
  have hcfg : (se.apply (.checkAll r.check)).config = se.config :=
    SupervisedEntity.config_run se [.checkAll r.check]
  have hfatal : (se.apply (.checkAll r.check)).currentState = .fatal := by
    unfold foundFatal at h
    split at h
    · cases h
    · simpa using h
  unfold entityTick
  dsimp only
  rw [hfatal, hcfg]
  cases hauto : se.config.autoRestart with
  | true => exact iff_of_true (currentState_start_reset _ r.restart) rfl
  | false => exact iff_of_false (fun hne => hne hfatal) Bool.false_ne_true

end

end PhmEngine

structure Journal (μ : Type) where
  engine : Option (PhmEngine μ)
  findings : List Finding := []

namespace Journal

open PhmEngine Finding

variable {μ ε : Type} [IMonitor μ ε]

def finding (e : PhmEngine μ) (se : SupervisedEntity μ) (r : EntityReading ε) : Finding where
  now := r.nowMs
  recovery := e.config.enableAutoRecovery
  config := se.config
  after := (entityTick se r).currentState

def step (ref : Nat) (t : Journal μ) (s : EngineStep μ ε) : Journal μ :=
  match t.engine with
  | none => t
  | some e =>
    { engine := match exec s e with
        | .error _ => none
        | .ok (_, f) => some f
      findings := match e.found ref s with
        | none => t.findings
        | some (se, r) => finding e se r :: t.findings }

def Affords (ref : Nat) (t : Journal μ) (s : EngineStep μ ε) : Prop :=
  ∀ e, t.engine = some e → ∀ se r, e.found ref s = some (se, r) → se.config.autoRestart = true →
    Allowed e.config.enableAutoRecovery se.config r.nowMs t.findings

section
variable {e f : PhmEngine μ} {ref : Nat} {se : SupervisedEntity μ} {r : EntityReading ε}

theorem found_cases {s : EngineStep μ ε} (h : e.found ref s = some (se, r)) :
    ∃ readings uptimeMs, s = .tick readings uptimeMs ∧ readings ref = r ∧ e.running = true ∧ ref ∈ e.refs ∧
      e.objects[ref]? = some se ∧ foundFatal se r = true := by
  cases s with
  | tick readings uptimeMs =>
    rw [found] at h
    split at h
    · next hreached =>
      obtain ⟨hrun, href⟩ := mem_reached hreached
      obtain ⟨t, ht, heq⟩ := Option.map_eq_some_iff.mp h
      obtain ⟨rfl, rfl⟩ := Prod.mk.inj heq
      obtain ⟨hse, hfatal⟩ := Option.filter_eq_some_iff.mp ht
      exact ⟨readings, uptimeMs, rfl, rfl, hrun, href, hse, hfatal⟩
    · cases h
  | _ => cases h

theorem after_found {s : EngineStep μ ε} (he : e.Ready) (h : e.found ref s = some (se, r))
    (hexec : exec s e = .ok ((), f)) :
    (f.objects[ref]?).map (·.currentState) = some (finding e se r).after := by
  obtain ⟨readings, uptimeMs, rfl, rfl, hrun, href, hse, -⟩ := found_cases h
  have heffect := effect_of_exec he hexec
  rw [Effect, if_pos hrun] at heffect
  rw [heffect.2.1 ref, if_pos href, hse]
  rfl

end

theorem budgeted_step_iff {t : Journal μ} (ref : Nat) (h : Budgeted t.findings) (s : EngineStep μ ε) :
    Budgeted (t.step ref s).findings ↔ t.Affords ref s := by
  rw [step, Affords]
  cases hengine : t.engine with
  | none => exact iff_of_true h (by simp)
  | some e =>
    simp only [Option.some.injEq, forall_eq']
    cases hfound : e.found ref s with
    | none => exact iff_of_true h (by simp)
    | some p =>
      obtain ⟨se, r⟩ := p
      obtain ⟨-, -, -, -, -, -, -, hfatal⟩ := found_cases hfound
      have hrestarts := restarts_iff hfatal
      have hrestarted : (finding e se r).restarted = true ↔ se.config.autoRestart = true := by
        rw [← hrestarts, restarted, finding, decide_eq_true_iff]
      simp only [Option.some.injEq, Prod.mk.injEq, and_imp, forall_apply_eq_imp_iff, forall_eq']
      constructor
      · rintro ⟨-, hx⟩ hauto
        exact (hx (hrestarted.mpr hauto)).2
      · intro hallowed
        exact ⟨h, fun hx => ⟨hrestarted.mp hx, hallowed (hrestarted.mp hx)⟩⟩

theorem restarts_budgeted_iff (c : PhmConfig) (ref : Nat) (steps : List (EngineStep μ ε)) :
    let fresh : Journal μ := { engine := some (new c) }
    Runs.Always (step ref) (fun t => Budgeted t.findings) fresh steps ↔
      Runs.Each (step ref) (Affords ref) fresh steps :=
  Runs.always_iff_each (I := fun _ => True) (fun _ s _ h => budgeted_step_iff ref h s)
    (fun _ _ _ => trivial) trivial trivial

theorem restart_storm :
    let fatal : Report := { fault := some ⟨{ id := "f", severity := .fatal }, by decide⟩ }
    let cfg : SEConfig :=
      { name := "se", autoRestart := true, maxRestartCount := 1
        monitors := [{ type := .custom, debounceCount := 1 }] }
    let tick (now : Int) : EngineStep ReportingMonitor Report :=
      .tick (fun _ => { check := fun _ => fatal, restart := fun _ => {}, nowMs := now }) 0
    let steps : List (EngineStep ReportingMonitor Report) :=
      [.makeShared cfg, .useEntity 0 (.registerMonitor (some { type := .custom })),
        .useEntity 0 (.start fun _ => {}), .call (.registerEntity (some 0)),
        .call (.start fun _ _ => {}), tick 0, tick 100, tick 200]
    let off : PhmConfig := { enableAutoRecovery := false }
    let t := Runs.run (step 0) { engine := some (new off) } steps
    t.findings.map (fun x => (x.now, x.recovery, x.restarted)) =
      [(200, false, true), (100, false, true), (0, false, true)] ∧ ¬ Budgeted t.findings := by
  intro fatal cfg tick steps off t
  have hfindings : t.findings.map (fun x => (x.now, x.recovery, x.restarted)) =
      [(200, false, true), (100, false, true), (0, false, true)] := by decide +kernel
  refine ⟨hfindings, ?_⟩
  intro h
  cases hlist : t.findings with
  | nil =>
    rw [hlist] at hfindings
    cases hfindings
  | cons x earlier =>
    rw [hlist] at h hfindings
    obtain ⟨hx, -⟩ := List.cons.inj hfindings
    have hoff : x.recovery = false := congrArg (·.2.1) hx
    have hrecovery := (h.2 (congrArg (·.2.2) hx)).2.recovery
    rw [hoff] at hrecovery
    cases hrecovery

end Journal

end PlatformHealth
