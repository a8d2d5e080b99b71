import PlatformHealth.Channel.HealthChannel
import PlatformHealth.Library.Runs

namespace PlatformHealth

open HealthChannel

inductive ChannelStep where
  | construct
  | report (endpoint : Nat) (counter now : UInt64)
  | reportMetrics (endpoint : Nat) (metrics : Metrics)
  | read (endpoint : Nat)

-- the shared segment of one channel name with its endpoints; counter, time and metrics are
-- those of the latest report and of the latest metrics
structure Segment where
  data : HealthChannelData := {}
  endpoints : Nat := 0
  counter : UInt64 := 0
  time : UInt64 := 0
  metrics : Metrics := ∅

namespace Segment

def step (s : Segment) : ChannelStep → Segment
  | .construct => { s with data := HealthChannel.construct s.data, endpoints := s.endpoints + 1 }
  | .report endpoint counter now =>
    if endpoint < s.endpoints then
      { s with data := HealthChannel.report s.data counter now, counter, time := now }
    else s
  | .reportMetrics endpoint metrics =>
    if endpoint < s.endpoints then
      { s with data := HealthChannel.reportMetrics s.data metrics, metrics }
    else s
  | .read _ => s

structure Current (s : Segment) : Prop where
  counter : 0 < s.endpoints → getAliveCounter s.data = s.counter
  time : 0 < s.endpoints → s.data.lastUpdateMs = s.time
  metrics : 0 < s.endpoints → getMetrics s.data = s.metrics

-- an endpoint is opened while there is nothing yet to lose, and the metrics fit the slots
def Keeps (s : Segment) : ChannelStep → Prop
  | .construct => s.counter = 0 ∧ s.time = 0 ∧ s.metrics = ∅
  | .reportMetrics endpoint metrics => endpoint < s.endpoints → Representable metrics
  | _ => True

theorem current_step_iff {s : Segment} (h : s.Current) (a : ChannelStep) :
    (s.step a).Current ↔ s.Keeps a := by
  cases a with
  | construct =>
    constructor
    · intro hnext
      have hpos : 0 < s.endpoints + 1 := Nat.succ_pos _
      exact ⟨(hnext.counter hpos).symm, (hnext.time hpos).symm, (hnext.metrics hpos).symm⟩
    · rintro ⟨hcounter, htime, hmetrics⟩
      exact ⟨fun _ => hcounter.symm, fun _ => htime.symm, fun _ => hmetrics.symm⟩
  | report endpoint counter now =>
    rw [step]
    split
    · exact iff_of_true ⟨fun _ => rfl, fun _ => rfl, h.metrics⟩ trivial
    · exact iff_of_true h trivial
  | reportMetrics endpoint metrics =>
    rw [step, Keeps]
    split
    · next hopen =>
      rw [← getMetrics_reportMetrics_iff s.data metrics]
      constructor
      · exact fun hnext _ => hnext.metrics (Nat.zero_lt_of_lt hopen)
      · exact fun hread => ⟨h.counter, h.time, fun _ => hread hopen⟩
    · next hclosed => exact iff_of_true h fun hopen => absurd hopen hclosed
  | read endpoint => exact iff_of_true h trivial

theorem current_iff (steps : List ChannelStep) :
    Runs.Always step Current ({} : Segment) steps ↔ Runs.Each step Keeps ({} : Segment) steps :=
  Runs.always_iff_each (I := fun _ => True) (fun _ a _ h => current_step_iff h a)
    (fun _ _ _ => trivial) trivial ⟨fun _ => rfl, fun _ => rfl, fun _ => rfl⟩

theorem restart_clears_report :
    let s := Runs.run step {} [.construct, .report 0 7 100, .construct]
    (s.counter, s.time) = (7, 100) ∧ getAliveCounter s.data = 0 ∧ s.data.lastUpdateMs = 0 ∧
      ¬ s.Current := by
  intro s
  refine ⟨rfl, rfl, rfl, ?_⟩
  intro h
  have hcounter : (0 : UInt64) = 7 := h.counter (by decide)
  exact absurd hcounter (by decide)

end Segment

end PlatformHealth
