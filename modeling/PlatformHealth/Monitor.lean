import PlatformHealth.Types

namespace PlatformHealth

def monitorTypeToString : MonitorType → String
  | .processLifecycle => "process_lifecycle"
  | .resource => "resource"
  | .deadlock => "deadlock"
  | .alive => "alive"
  | .custom => "custom"

theorem monitorTypeToString_injective : Function.Injective monitorTypeToString := by
  intro s t h
  cases s <;> cases t <;> first | rfl | exact absurd h (by decide)

-- how a call of check() ends when it does not return: an exception, or the null
-- platform_ pointer dereferenced
inductive CheckFault where
  | thrown (what : String)
  | nullPlatform
deriving DecidableEq, Repr

-- raised lists the events handed to the event callback before check() ends
structure CheckResult (μ : Type) where
  monitor : μ
  raised : List PhmEvent := []
  outcome : Except CheckFault PhmEvent

-- ε is what one call may read of the outside: the platform, the clocks, the channel
class IMonitor (μ : Type) (ε : outParam Type) where
  start : μ → ε → Bool × μ
  stop : μ → μ
  check : μ → ε → CheckResult μ
  reset : μ → μ
  getState : μ → SeState
  getType : μ → MonitorType
  configure : μ → MonitorConfig → μ
  getConfig : μ → MonitorConfig
  name : μ → String
  collectMetrics : μ → StringMap ℚ := fun _ => ∅

structure Regular {μ ε : Type} [IMonitor μ ε] (m : μ) (res : CheckResult μ) : Prop where
  raised : res.raised = []
  name : IMonitor.name res.monitor = IMonitor.name m
  idOfRunning : ∀ evt, res.outcome = .ok evt → IMonitor.getState res.monitor = .running → evt.id = ""
  severity : ∀ evt, res.outcome = .ok evt → evt.severity ≠ .fatal
  sourceSe : ∀ evt, res.outcome = .ok evt → evt.sourceSe = ""

section
variable {μ ε : Type} [IMonitor μ ε] {m m' : μ} {event : PhmEvent}

theorem regular_quiet (hname : IMonitor.name m' = IMonitor.name m) :
    Regular m { monitor := m', outcome := .ok {} } := by
  refine ⟨rfl, hname, ?_, ?_, ?_⟩
  · rintro evt ⟨⟩ -
    rfl
  · rintro evt ⟨⟩
    nofun
  · rintro evt ⟨⟩
    rfl

theorem regular_event (hname : IMonitor.name m' = IMonitor.name m) (hstate : IMonitor.getState m' ≠ .running)
    (hseverity : event.severity ≠ .fatal) (hsource : event.sourceSe = "") :
    Regular m { monitor := m', outcome := .ok event } := by
  refine ⟨rfl, hname, ?_, ?_, ?_⟩
  · rintro evt ⟨⟩ hrunning
    exact absurd hrunning hstate
  · rintro evt ⟨⟩
    exact hseverity
  · rintro evt ⟨⟩
    exact hsource

theorem regular_fault (fault : CheckFault) : Regular m { monitor := m, outcome := .error fault } :=
  ⟨rfl, rfl, nofun, nofun, nofun⟩

end

def PhmEvent.Faulty (event : PhmEvent) : Prop :=
  event.id ≠ "" ∧ event.severity ≠ .info

instance (event : PhmEvent) : Decidable event.Faulty :=
  inferInstanceAs (Decidable (event.id ≠ "" ∧ event.severity ≠ .info))

structure FaultEvent where
  event : PhmEvent
  faulty : event.Faulty

structure Report where
  started : Bool := true
  fault : Option FaultEvent := none

structure ReportingMonitor where
  type : MonitorType
  config : MonitorConfig := {}
  state : SeState := .init

namespace ReportingMonitor

def check (m : ReportingMonitor) (r : Report) : CheckResult ReportingMonitor :=
  match r.fault with
  | none => { monitor := m, outcome := .ok {} }
  | some f =>
    { monitor := { m with state := .error }
      outcome := .ok { f.event with sourceMonitor := monitorTypeToString m.type } }

instance : IMonitor ReportingMonitor Report where
  start m r := (r.started, if r.started then { m with state := .running } else m)
  stop m := { m with state := .init }
  check := check
  reset m := { m with state := .init }
  getState := state
  getType := type
  configure m cfg := { m with config := cfg }
  getConfig := config
  name m := monitorTypeToString m.type

end ReportingMonitor

end PlatformHealth
