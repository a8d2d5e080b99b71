import PlatformHealth.Engine.Steps
import PlatformHealth.Entity.Isolation

namespace PlatformHealth

open LockDiscipline

structure FallibleMonitor where
  inner : ReportingMonitor

namespace FallibleMonitor

def check (m : FallibleMonitor) : Except String Report → CheckResult FallibleMonitor
  | .error what => { monitor := m, outcome := .error (.thrown what) }
  | .ok r =>
    let result := m.inner.check r
    { monitor := ⟨result.monitor⟩, raised := result.raised, outcome := result.outcome }

instance : IMonitor FallibleMonitor (Except String Report) where
  start m r :=
    match r with
    | .error _ => (false, m)
    | .ok r => ((IMonitor.start m.inner r).1, ⟨(IMonitor.start m.inner r).2⟩)
  stop m := ⟨IMonitor.stop m.inner⟩
  check := check
  reset m := ⟨IMonitor.reset m.inner⟩
  getState m := m.inner.state
  getType m := m.inner.type
  configure m cfg := ⟨IMonitor.configure m.inner cfg⟩
  getConfig m := m.inner.config
  name m := IMonitor.name m.inner

end FallibleMonitor

namespace PhmEngine

open SupervisedEntity

variable {μ ε : Type} [IMonitor μ ε]

structure TickIsolated (readings : Nat → EntityReading ε) (uptimeMs : Nat) (e : PhmEngine μ) : Prop where
  returns : ∃ f, tick readings uptimeMs e = .ok ((), f)
  isolated : ∀ ref ∈ e.refs, ∀ se, e.objects[ref]? = some se → se.Isolated (readings ref).check

theorem tick_returns_iff {e : PhmEngine μ} (he : e.Ready) (hrun : e.running = true)
    (readings : Nat → EntityReading ε) (uptimeMs : Nat) :
    (∃ f, tick readings uptimeMs e = .ok ((), f)) ↔
      ∀ ref ∈ e.refs, ∀ se, e.objects[ref]? = some se →
        ∀ p ∈ answers (readings ref).check 0 se.monitors, ¬ Throws p := by
  have hends := ends_tick he hrun readings uptimeMs
  rw [Ends] at hends
  constructor
  · rintro ⟨f, hf⟩ ref href se hse
    rw [hf] at hends
    exact (returns_iff se (readings ref).check).mp (hends.2.2 ref href se hse)
  · intro hsafe
    cases htick : tick readings uptimeMs e with
    | ok out => exact ⟨out.2, rfl⟩
    | error fault =>
      rw [htick] at hends
      obtain ⟨ref, href, se, hse, hfails⟩ := hends
      exact absurd ((returns_iff se (readings ref).check).mpr (hsafe ref href se hse)) hfails

theorem tickIsolated_iff {e : PhmEngine μ} (he : e.Ready) (hrun : e.running = true)
    (readings : Nat → EntityReading ε) (uptimeMs : Nat) :
    TickIsolated readings uptimeMs e ↔
      ∀ ref ∈ e.refs, ∀ se, e.objects[ref]? = some se →
        ∀ p ∈ answers (readings ref).check 0 se.monitors, ¬ Throws p := by
  constructor
  · exact fun h => (tick_returns_iff he hrun readings uptimeMs).mp h.returns
  · intro hsafe
    refine ⟨(tick_returns_iff he hrun readings uptimeMs).mpr hsafe, ?_⟩
    intro ref href se hse
    exact (isolated_iff se (readings ref).check).mpr (hsafe ref href se hse)

theorem failing_monitor_isolated_iff :
    (∀ (se : SupervisedEntity μ) (readings : Nat → ε),
      se.Isolated readings ↔ ∀ p ∈ answers readings 0 se.monitors, ¬ Throws p) ∧
    ∀ e : PhmEngine μ, Reachable e → e.running = true →
      ∀ (readings : Nat → EntityReading ε) (uptimeMs : Nat),
        TickIsolated readings uptimeMs e ↔
          ∀ ref ∈ e.refs, ∀ se, e.objects[ref]? = some se →
            ∀ p ∈ answers (readings ref).check 0 se.monitors, ¬ Throws p :=
  ⟨isolated_iff, fun _ he hrun => tickIsolated_iff he.ready hrun⟩

def twoMonitors : List (EngineStep FallibleMonitor (Except String Report)) :=
  let alive : MonitorConfig := { type := .alive, debounceCount := 1 }
  let deadlock : MonitorConfig := { type := .deadlock, debounceCount := 1 }
  [.makeShared { name := "se", monitors := [alive, deadlock] },
    .useEntity 0 (.registerMonitor (some ⟨{ type := .alive }⟩)),
    .useEntity 0 (.registerMonitor (some ⟨{ type := .deadlock }⟩)),
    .useEntity 0 (.start fun _ => .ok {}),
    .call (.registerEntity (some 0)), .call (.start fun _ _ => .ok {})]

def sample (first second : Except String Report) : EntityReading (Except String Report) where
  check := fun i => if i = 0 then first else second
  restart := fun _ => .ok {}

theorem exists_of_view {α β σ : Type} (view : σ → β) {b : β} {x : Except α (Unit × σ)}
    (h : x.toOption.map (fun out => view out.2) = some b) : ∃ e, x = .ok ((), e) ∧ view e = b := by
  cases x with
  | error err => cases h
  | ok out => exact ⟨out.2, rfl, Option.some.inj h⟩

theorem quiet_tick_isolated :
    ∃ e : PhmEngine FallibleMonitor, execAll twoMonitors (new {}) = .ok ((), e) ∧
      TickIsolated (fun _ => sample (.ok {}) (.ok {})) 100 e := by
  have hview : (execAll twoMonitors (new {})).toOption.map (fun out => out.2.running) = some true := by
    decide +kernel
  obtain ⟨e, hrun, hrunning⟩ := exists_of_view running hview
  refine ⟨e, hrun, (failing_monitor_isolated_iff.2 e ((Reachable.new {}).execAll hrun) hrunning _ 100).mpr ?_⟩
  rintro ref - se - p hp ⟨fault, hfault⟩
  obtain ⟨i, hi⟩ := List.mem_iff_getElem?.mp hp
  rw [getElem?_answers] at hi
  obtain ⟨mon, -, rfl⟩ := Option.map_eq_some_iff.mp hi
  simp [IMonitor.check, FallibleMonitor.check, ReportingMonitor.check, sample] at hfault

def faultOf {α : Type} : Except (Fault CheckFault) α → Option CheckFault
  | .error (.raised fault) => some fault
  | _ => none

theorem eq_raised_of_faultOf {α : Type} {x : Except (Fault CheckFault) α} {fault : CheckFault}
    (h : faultOf x = some fault) : x = .error (.raised fault) := by
  unfold faultOf at h
  split at h
  · cases h
    rfl
  · cases h

def failingEvent : FaultEvent where
  event := { id := "deadlock", severity := .error, sourceMonitor := "deadlock" }
  faulty := by decide

def checkedStates (se : SupervisedEntity FallibleMonitor) (r : EntityReading (Except String Report)) :
    SeState × SeState :=
  ((se.apply (.checkAll r.check)).currentState,
    ((se.withAnswers (se.survivors r.check)).apply
      (.checkAll (readingsOf (se.survivors r.check) r.check))).currentState)

theorem throw_escapes_tick :
    ∃ (e : PhmEngine FallibleMonitor) (se : SupervisedEntity FallibleMonitor),
      let r := sample (.error "read failed") (.ok { fault := some failingEvent })
      execAll twoMonitors (new {}) = .ok ((), e) ∧ Reachable e ∧ e.running = true ∧
        e.objects[0]? = some se ∧ checkedStates se r = (.running, .error) ∧ ¬ se.Isolated r.check ∧
        tick (fun _ => r) 100 e = .error (.raised (.thrown "read failed")) ∧
        ¬ TickIsolated (fun _ => r) 100 e := by
  let r := sample (.error "read failed") (.ok { fault := some failingEvent })
  have hview : (execAll twoMonitors (new {})).toOption.map (fun out =>
      (out.2.running, out.2.objects[0]?.map (checkedStates · r), faultOf (tick (fun _ => r) 100 out.2))) =
      some (true, some (.running, .error), some (.thrown "read failed")) := by
    decide +kernel
  obtain ⟨e, hrun, hview⟩ := exists_of_view (fun e => (e.running,
    e.objects[0]?.map (checkedStates · r), faultOf (tick (fun _ => r) 100 e))) hview
  simp only [Prod.mk.injEq] at hview
  obtain ⟨hrunning, hstates, hfault⟩ := hview
  obtain ⟨se, hse, hstates⟩ := Option.map_eq_some_iff.mp hstates
  have htick := eq_raised_of_faultOf hfault
  refine ⟨e, se, hrun, (Reachable.new {}).execAll hrun, hrunning, hse, hstates, ?_, htick, ?_⟩
  · intro h
    have hsame : (checkedStates se r).1 = (checkedStates se r).2 := h.same.state
    rw [hstates] at hsame
    cases hsame
  · rintro ⟨⟨f, hf⟩, -⟩
    rw [htick] at hf
    cases hf

end PhmEngine

end PlatformHealth
