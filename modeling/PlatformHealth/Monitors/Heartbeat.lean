import PlatformHealth.Channel.HealthChannel
import PlatformHealth.Library.Runs
import PlatformHealth.Monitors.Alive
import Mathlib.Algebra.Ring.Int.Defs

namespace PlatformHealth

open HealthChannel

inductive HeartbeatStep where
  | report (counter now : UInt64)
  | check (now : UInt64) (r : Reading)

-- a supervised process, its channel and the monitor that reads it; beat is the latest report
structure Heartbeat where
  monitor : AliveMonitor
  timeout : Int
  data : HealthChannelData := {}
  beat : Option (UInt64 × UInt64) := none
  raised : List PhmEvent := []

namespace Heartbeat

def observe (h : Heartbeat) (now : UInt64) (r : Reading) : Reading :=
  { r with
    channel := fun name =>
      { r.channel name with
        aliveCounter := getAliveCounter h.data
        isAlive := isAlive h.data h.timeout now } }

def returned : Except CheckFault PhmEvent → List PhmEvent
  | .error _ => []
  | .ok evt => if evt.id = "" then [] else [evt]

def step (h : Heartbeat) : HeartbeatStep → Heartbeat
  | .report counter now =>
    { h with data := HealthChannel.report h.data counter now, beat := some (counter, now) }
  | .check now r =>
    let result := h.monitor.check (h.observe now r)
    { h with monitor := result.monitor, raised := h.raised ++ returned result.outcome }

structure Calm (h : Heartbeat) : Prop where
  quiet : h.raised = []
  running : h.monitor.state = .running

-- within is the time from the latest report, which no gap may exceed
def Regular (h : Heartbeat) : HeartbeatStep → Prop
  | .report counter now => ∀ last time, h.beat = some (last, time) →
      last < counter ∧ time ≤ now ∧ ((now - time).toNat : Int) ≤ h.monitor.config.interval
  | .check now _ => ∀ last time, h.beat = some (last, time) →
      time ≤ now ∧ ((now - time).toNat : Int) ≤ h.monitor.config.interval

-- since the check before this one the process has reported a new counter
def Refreshed (h : Heartbeat) : HeartbeatStep → Prop
  | .report _ _ => True
  | .check _ _ => h.monitor.firstCheck = false → getAliveCounter h.data ≠ h.monitor.lastCounter

structure Attached (h : Heartbeat) : Prop where
  channel : h.monitor.healthChannel ≠ none
  patient : h.monitor.config.interval < h.timeout
  timeout : h.timeout < 2 ^ 63
  silent : h.beat = none → getAliveCounter h.data = 0
  reported : ∀ last time, h.beat = some (last, time) →
    getAliveCounter h.data = last ∧ h.data.lastUpdateMs = time
  behind : h.monitor.lastCounter ≤ getAliveCounter h.data

section
variable {h : Heartbeat} {now : UInt64} {r : Reading} {a : HeartbeatStep}

theorem alive_of_regular (ha : h.Attached) (hreg : h.Regular (.check now r))
    (hfresh : getAliveCounter h.data ≠ h.monitor.lastCounter) :
    HealthChannel.isAlive h.data h.timeout now = true := by
  cases hbeat : h.beat with
  | none =>
    have hbehind := ha.behind
    rw [ha.silent hbeat] at hfresh hbehind
    exact absurd (UInt64.le_antisymm UInt64.zero_le hbehind) hfresh
  | some p =>
    obtain ⟨last, time⟩ := p
    obtain ⟨-, hgap⟩ := hreg last time hbeat
    obtain ⟨-, htime⟩ := ha.reported last time hbeat
    have hpatient := ha.patient
    have hbound := ha.timeout
    have htimeout : (UInt64.ofInt h.timeout).toNat = h.timeout.toNat := by
      rw [UInt64.ofInt, Int.emod_eq_of_lt (by omega) (by omega), UInt64.toNat_ofNat']
      omega
    rw [HealthChannel.isAlive, getStatus, htime, decide_eq_true_eq, UInt64.lt_iff_toNat_lt,
      htimeout]
    omega

theorem check_of_first (ha : h.Attached) (hfirst : h.monitor.firstCheck = true) (now : UInt64)
    (r : Reading) :
    h.monitor.check (h.observe now r) =
      { monitor := { h.monitor with lastCounter := getAliveCounter h.data, firstCheck := false }
        outcome := .ok {} } := by
  obtain ⟨c, hc⟩ := Option.ne_none_iff_exists'.mp ha.channel
  simp [AliveMonitor.check, hc, hfirst, observe]

theorem check_of_new (ha : h.Attached) (hreg : h.Regular (.check now r))
    (hfirst : h.monitor.firstCheck = false)
    (hfresh : getAliveCounter h.data ≠ h.monitor.lastCounter) :
    h.monitor.check (h.observe now r) =
      { monitor := { h.monitor with state := .running, lastCounter := getAliveCounter h.data }
        outcome := .ok {} } := by
  obtain ⟨c, hc⟩ := Option.ne_none_iff_exists'.mp ha.channel
  have halive := alive_of_regular ha hreg hfresh
  have hlt : h.monitor.lastCounter < getAliveCounter h.data :=
    UInt64.lt_of_le_of_ne ha.behind (Ne.symm hfresh)
  simp [AliveMonitor.check, hc, hfirst, observe, halive, hfresh, hlt]

theorem check_of_same (ha : h.Attached) (hfirst : h.monitor.firstCheck = false)
    (hsame : getAliveCounter h.data = h.monitor.lastCounter) :
    (h.monitor.check (h.observe now r)).monitor =
      { h.monitor with state := .warn, lastCounter := getAliveCounter h.data } := by
  obtain ⟨c, hc⟩ := Option.ne_none_iff_exists'.mp ha.channel
  simp [AliveMonitor.check, hc, hfirst, observe, hsame]

theorem check_keeps (ha : h.Attached) (now : UInt64) (r : Reading) :
    (h.monitor.check (h.observe now r)).monitor.healthChannel = h.monitor.healthChannel ∧
      (h.monitor.check (h.observe now r)).monitor.config = h.monitor.config ∧
      (h.monitor.check (h.observe now r)).monitor.lastCounter = getAliveCounter h.data := by
  obtain ⟨c, hc⟩ := Option.ne_none_iff_exists'.mp ha.channel
  unfold AliveMonitor.check
  grind [observe]

theorem attached_step (ha : h.Attached) (hreg : h.Regular a) : (h.step a).Attached := by
  cases a with
  | report counter now =>
    refine ⟨ha.channel, ha.patient, ha.timeout, nofun, ?_, ?_⟩
    · rintro last time ⟨⟩
      exact ⟨rfl, rfl⟩
    · cases hbeat : h.beat with
      | none =>
        have hbehind := ha.behind
        rw [ha.silent hbeat] at hbehind
        exact UInt64.le_trans hbehind UInt64.zero_le
      | some p =>
        obtain ⟨last, time⟩ := p
        obtain ⟨hlt, -⟩ := hreg last time hbeat
        obtain ⟨hlast, -⟩ := ha.reported last time hbeat
        exact UInt64.le_trans (hlast ▸ ha.behind) (UInt64.le_of_lt hlt)
  | check now r =>
    obtain ⟨hchannel, hconfig, hlast⟩ := check_keeps ha now r
    refine ⟨?_, ?_, ha.timeout, ha.silent, ha.reported, ?_⟩
    · exact hchannel ▸ ha.channel
    · exact hconfig ▸ ha.patient
    · exact hlast ▸ UInt64.le_refl _

theorem calm_step_iff (ha : h.Attached) (hreg : h.Regular a) (hcalm : h.Calm) :
    (h.step a).Calm ↔ h.Refreshed a := by
  cases a with
  | report counter now => exact iff_of_true ⟨hcalm.quiet, hcalm.running⟩ trivial
  | check now r =>
    cases hfirst : h.monitor.firstCheck with
    | true =>
      refine iff_of_true ?_ (by simp [Refreshed, hfirst])
      have hcheck := check_of_first ha hfirst now r
      exact ⟨by simp [step, hcheck, returned, hcalm.quiet], by simp [step, hcheck, hcalm.running]⟩
    | false =>
      by_cases hsame : getAliveCounter h.data = h.monitor.lastCounter
      · refine iff_of_false ?_ (by simp [Refreshed, hfirst, hsame])
        rintro ⟨-, hrunning⟩
        simp [step, check_of_same ha hfirst hsame] at hrunning
      · refine iff_of_true ?_ (by simp [Refreshed, hsame])
        have hcheck := check_of_new ha hreg hfirst hsame
        exact ⟨by simp [step, hcheck, returned, hcalm.quiet], by simp [step, hcheck]⟩

end

def opened (name : String) (cfg : MonitorConfig) (channel : String) (timeout : Int) (r : Reading) :
    Heartbeat where
  monitor := { ((AliveMonitor.new name cfg).start r).2 with healthChannel := some channel }
  timeout

theorem attached_opened {name channel : String} {cfg : MonitorConfig} {timeout : Int} {r : Reading}
    (hpatient : cfg.interval < timeout) (hbound : timeout < 2 ^ 63) :
    (opened name cfg channel timeout r).Attached where
  channel := nofun
  patient := hpatient
  timeout := hbound
  silent _ := rfl
  reported := nofun
  behind := UInt64.le_refl _

theorem calm_iff_refreshed (name channel : String) (cfg : MonitorConfig) (timeout : Int) (r : Reading)
    (steps : List HeartbeatStep) (hpatient : cfg.interval < timeout) (hbound : timeout < 2 ^ 63)
    (hregular : Runs.Each step Regular (opened name cfg channel timeout r) steps) :
    Runs.Always step Calm (opened name cfg channel timeout r) steps ↔
      Runs.Each step Refreshed (opened name cfg channel timeout r) steps :=
  Runs.always_iff_each_under (fun _ _ => calm_step_iff) (fun _ _ => attached_step)
    (attached_opened hpatient hbound) ⟨rfl, rfl⟩ hregular

def everyHalfSecond : List HeartbeatStep :=
  [.report 1 0, .check 0 {}, .report 2 500, .check 500 {}, .report 3 1000, .check 1000 {}]

theorem calm_every_half_second :
    Runs.Always step Calm (opened "alive" {} "app" 5000 {}) everyHalfSecond := by
  refine (calm_iff_refreshed "alive" "app" {} 5000 {} everyHalfSecond (by decide) (by decide) ?_).mpr ?_
  · refine ⟨?_, ?_, ?_, ?_, ?_, ?_, trivial⟩ <;> rintro _ _ ⟨⟩ <;> decide
  · refine ⟨trivial, ?_, trivial, ?_, trivial, ?_, trivial⟩ <;> exact fun _ => by decide

def tickedTooOften : List HeartbeatStep := [.report 1 0, .check 100 {}, .check 200 {}]

theorem false_alarm_between_heartbeats :
    let start := opened "alive" {} "app" 5000 {}
    Runs.Each step Regular start tickedTooOften ∧ ¬ Runs.Always step Calm start tickedTooOften ∧
      (Runs.run step start tickedTooOften).monitor.state = .warn := by
  refine ⟨?_, ?_, rfl⟩
  · refine ⟨?_, ?_, ?_, trivial⟩ <;> rintro _ _ ⟨⟩ <;> decide
  · rintro ⟨-, -, -, h⟩
    exact absurd h.running (by decide)

end Heartbeat

end PlatformHealth
