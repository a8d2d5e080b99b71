import PlatformHealth.Engine.Restart
import PlatformHealth.Monitors.Builtin

namespace PlatformHealth

open LockDiscipline

theorem verdict_ne_fatal {d c : UInt32} {t s : SeState} (ht : t ≠ .fatal) (hs : s ≠ .fatal) :
    (verdict d c t s).1 ≠ .fatal := by
  have henter (u : SeState) (hu : u ≠ .fatal) : enter s u ≠ .fatal := by
    unfold enter
    split
    · exact hu
    · exact hs
  unfold verdict
  split
  · exact henter .running (by decide)
  · split
    · split
      · exact henter t ht
      · dsimp only
        split
        · decide
        · exact hs
    · exact hs

namespace SupervisedEntity

variable {μ ε : Type} [IMonitor μ ε]

theorem handle_ne_fatal {event : PhmEvent} {se : SupervisedEntity μ} (hsev : event.severity ≠ .fatal)
    (hse : se.currentState ≠ .fatal) : (handle event se).currentState ≠ .fatal := by
  cases h : findConfig se.config event.sourceMonitor with
  | none => rwa [handle_none h]
  | some mc =>
    have htarget : seStateFromSeverity event.severity ≠ .fatal := by
      cases hs : event.severity <;> simp_all [seStateFromSeverity]
    rw [handle_some h]
    exact verdict_ne_fatal htarget hse

theorem checkAll_ne_fatal {se : SupervisedEntity μ} {readings : Nat → ε}
    (hsev : ∀ event ∈ processed readings 0 se.monitors, event.severity ≠ .fatal)
    (hse : se.currentState ≠ .fatal) : (se.apply (.checkAll readings)).currentState ≠ .fatal := by
  rw [← core_currentState, core_apply, actions]
  refine Runs.run_invariant_of_mem (P := fun t : SupervisedEntity Empty => t.currentState ≠ .fatal) ?_ hse
  intro t a ha ht
  obtain ⟨event, hevent, rfl⟩ := List.mem_map.mp ha
  exact handle_ne_fatal (hsev event hevent) ht

end SupervisedEntity

theorem severity_processed (readings : Nat → Reading) (i : Nat) (mons : List BuiltinMonitor) :
    ∀ event ∈ SupervisedEntity.processed readings i mons, event.severity ≠ .fatal := by
  induction mons generalizing i with
  | nil => simp [SupervisedEntity.processed]
  | cons mon rest ih =>
    have hregular := BuiltinMonitor.regular_check mon (readings i)
    rw [SupervisedEntity.processed, hregular.raised, List.nil_append]
    cases hout : (IMonitor.check mon (readings i)).outcome with
    | error fault => simp
    | ok evt =>
      dsimp only
      split
      · exact ih (i + 1)
      · exact List.forall_mem_cons.mpr ⟨hregular.severity evt hout, ih (i + 1)⟩

namespace PhmEngine

section
variable {μ ε : Type} [IMonitor μ ε]

def tickLoop : List ((Nat → EntityReading ε) × Nat) → EngineM μ Unit
  | [] => return
  | (readings, uptimeMs) :: rest => do
    tick readings uptimeMs
    tickLoop rest

theorem tickLoop_invariant {P : PhmEngine μ → Prop}
    (hstep : ∀ e f readings uptimeMs, e.Ready → P e →
      Effect (.tick readings uptimeMs : EngineStep μ ε) e f → P f)
    {loop : List ((Nat → EntityReading ε) × Nat)} {e f : PhmEngine μ} (he : e.Ready) (hP : P e)
    (hloop : tickLoop loop e = .ok ((), f)) : P f := by
  induction loop generalizing e with
  | nil =>
    cases hloop
    exact hP
  | cons it rest ih =>
    obtain ⟨readings, uptimeMs⟩ := it
    change (tick readings uptimeMs e >>= fun out => tickLoop rest out.2) = _ at hloop
    have hkeeps := exec_keeps he (.tick readings uptimeMs : EngineStep μ ε)
    rw [Ends] at hkeeps
    cases htick : tick readings uptimeMs e with
    | error x =>
      rw [htick] at hloop
      cases hloop
    | ok out =>
      obtain ⟨_, g⟩ := out
      have hexec : exec (.tick readings uptimeMs : EngineStep μ ε) e = .ok ((), g) := htick
      rw [hexec] at hkeeps
      rw [htick] at hloop
      exact ih hkeeps (hstep e g readings uptimeMs he hP (effect_of_exec he hexec)) hloop

end

section
variable {se : SupervisedEntity BuiltinMonitor} {r : EntityReading Reading}

theorem checked_ne_fatal (hse : se.currentState ≠ .fatal) :
    (se.apply (.checkAll r.check)).currentState ≠ .fatal :=
  SupervisedEntity.checkAll_ne_fatal (severity_processed r.check 0 se.monitors) hse

theorem restarts_of_ne_fatal (hse : se.currentState ≠ .fatal) : restarts se r = false := by
  have hchecked := checked_ne_fatal (r := r) hse
  simp [restarts, hchecked]

theorem entityTick_ne_fatal (hse : se.currentState ≠ .fatal) : (entityTick se r).currentState ≠ .fatal := by
  have hchecked := checked_ne_fatal (r := r) hse
  simp [entityTick, hchecked]

end

theorem ne_fatal_of_tickLoop {e f : PhmEngine BuiltinMonitor} (he : e.Ready) {ref : Nat}
    {se : SupervisedEntity BuiltinMonitor} (hse : e.objects[ref]? = some se)
    (hstate : se.currentState ≠ .fatal) {loop : List ((Nat → EntityReading Reading) × Nat)}
    (hloop : tickLoop loop e = .ok ((), f)) :
    ∃ se', f.objects[ref]? = some se' ∧ se'.currentState ≠ .fatal := by
  refine tickLoop_invariant (P := fun e => ∃ se', e.objects[ref]? = some se' ∧ se'.currentState ≠ .fatal)
    ?_ he ⟨se, hse, hstate⟩ hloop
  rintro e f readings uptimeMs - ⟨t, ht, hne⟩ heffect
  by_cases hrun : e.running = true
  · rw [Effect, if_pos hrun] at heffect
    rw [heffect.2.1 ref, ht]
    split
    · exact ⟨_, rfl, entityTick_ne_fatal hne⟩
    · exact ⟨t, rfl, hne⟩
  · rw [Effect, if_neg hrun] at heffect
    exact ⟨t, heffect ▸ ht, hne⟩

def RestartedWithin (ref : Nat) (loop : List ((Nat → EntityReading Reading) × Nat))
    (e : PhmEngine BuiltinMonitor) : Prop :=
  ∃ before readings uptimeMs rest f se, loop = before ++ (readings, uptimeMs) :: rest ∧
    tickLoop before e = .ok ((), f) ∧ f.objects[ref]? = some se ∧
    ((se.apply (.checkAll (readings ref).check)).currentState = .fatal ∨ restarts se (readings ref) = true)

theorem not_restartedWithin {e : PhmEngine BuiltinMonitor} (he : e.Ready) {ref : Nat}
    {se : SupervisedEntity BuiltinMonitor} (hse : e.objects[ref]? = some se)
    (hstate : se.currentState ≠ .fatal) (loop : List ((Nat → EntityReading Reading) × Nat)) :
    ¬ RestartedWithin ref loop e := by
  rintro ⟨before, readings, uptimeMs, rest, f, se', -, hloop, hse', hfatal⟩
  obtain ⟨t, ht, hne⟩ := ne_fatal_of_tickLoop he hse hstate hloop
  obtain rfl : se' = t := by simpa [hse'] using ht
  rcases hfatal with hchecked | hrestarts
  · exact checked_ne_fatal hne hchecked
  · rw [restarts_of_ne_fatal hne] at hrestarts
    cases hrestarts

theorem never_restarts {e : PhmEngine BuiltinMonitor} (h : Reachable e) {ref : Nat}
    {se : SupervisedEntity BuiltinMonitor} (hse : e.objects[ref]? = some se)
    (hstate : se.currentState ≠ .fatal) (loop : List ((Nat → EntityReading Reading) × Nat)) :
    ¬ RestartedWithin ref loop e :=
  not_restartedWithin h.ready hse hstate loop

def stateAfter (ref : Nat) (x : Except (Fault CheckFault) (Unit × PhmEngine BuiltinMonitor)) :
    Option SeState :=
  x.toOption.bind fun out => out.2.objects[ref]?.map (·.currentState)

theorem exists_of_stateAfter {ref : Nat} {state : SeState}
    {x : Except (Fault CheckFault) (Unit × PhmEngine BuiltinMonitor)} (h : stateAfter ref x = some state) :
    ∃ e se, x = .ok ((), e) ∧ e.objects[ref]? = some se ∧ se.currentState = state := by
  cases x with
  | error err => cases h
  | ok out =>
    obtain ⟨se, hse, rfl⟩ := Option.map_eq_some_iff.mp h
    exact ⟨out.2, se, rfl, hse, rfl⟩

def seen (current : Option Pid) : EntityReading Reading where
  check := fun _ => .ofCurrent current {}
  restart := fun _ => {}

def aliveOnce (debounceCount : UInt32) : List (EngineStep BuiltinMonitor Reading) :=
  let mc : MonitorConfig :=
    { type := .processLifecycle, params := StringMap.empty.insert "process_name" "worker", debounceCount }
  [.makeShared { name := "se", autoRestart := true, monitors := [mc] },
    .useEntity 0 (.registerMonitor (some (.processLifecycle (.new "process_lifecycle" mc)))),
    .useEntity 0 (.start (seen (some ⟨7, by decide⟩)).check),
    .call (.registerEntity (some 0)), .call (.start fun _ _ => {}),
    .tick (fun _ => seen (some ⟨7, by decide⟩)) 100]

theorem crash_not_restarted :
    ∃ e : PhmEngine BuiltinMonitor, execAll (aliveOnce 2) (new {}) = .ok ((), e) ∧
      ¬ RestartedWithin 0 [(fun _ => seen none, 200), (fun _ => seen none, 300)] e := by
  have hstate : stateAfter 0 (execAll (aliveOnce 2) (new {})) = some .running := by decide +kernel
  obtain ⟨e, se, hrun, hse, hrunning⟩ := exists_of_stateAfter hstate
  refine ⟨e, hrun, never_restarts ((Reachable.new {}).execAll hrun) hse ?_ _⟩
  rw [hrunning]
  decide

theorem crash_stays_error :
    ∃ e f : PhmEngine BuiltinMonitor, execAll (aliveOnce 1) (new {}) = .ok ((), e) ∧ Reachable e ∧
      (e.objects[0]?).map (·.currentState) = some .running ∧
      tickLoop [(fun _ => seen none, 200)] e = .ok ((), f) ∧
      (f.objects[0]?).map (·.currentState) = some .error ∧
      ¬ RestartedWithin 0 [(fun _ => seen none, 200)] e := by
  have hstate : stateAfter 0 (execAll (aliveOnce 1) (new {})) = some .running := by decide +kernel
  have hnext : stateAfter 0 (execAll (aliveOnce 1) (new {}) >>= fun out =>
      tickLoop [(fun _ => seen none, 200)] out.2) = some .error := by decide +kernel
  obtain ⟨e, se, hrun, hse, hrunning⟩ := exists_of_stateAfter hstate
  rw [hrun] at hnext
  obtain ⟨f, se', hloop, hse', herror⟩ := exists_of_stateAfter hnext
  have hreach : Reachable e := (Reachable.new {}).execAll hrun
  refine ⟨e, f, hrun, hreach, by rw [hse, ← hrunning]; rfl, hloop, by rw [hse', ← herror]; rfl, ?_⟩
  refine not_restartedWithin hreach.ready hse ?_ _
  rw [hrunning]
  decide

end PhmEngine

end PlatformHealth
