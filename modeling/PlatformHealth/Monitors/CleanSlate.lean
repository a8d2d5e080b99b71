import PlatformHealth.Library.Lockstep
import PlatformHealth.Library.Runs
import PlatformHealth.Monitors.Builtin

namespace PlatformHealth

open Lockstep

inductive BuiltinType where
  | processLifecycle
  | resource
  | deadlock
  | alive
deriving DecidableEq, Repr

inductive PriorCall where
  | start (r : Reading)
  | stop
  | check (r : Reading)

structure Moment where
  reading : Reading
  idCounter : Nat := 0
  systemNow : Int := 0

def Moment.again (o : Moment) : Reading :=
  { o.reading with idCounter := o.idCounter, systemNow := o.systemNow }

def PhmEvent.anonymous (evt : PhmEvent) : PhmEvent :=
  { evt with id := if evt.id = "" then "" else "*", timestamp := 0 }

structure Sighting where
  outcome : Except CheckFault PhmEvent
  state : SeState
  metrics : StringMap ℚ

namespace BuiltinMonitor

-- constructed and given its channel; ProcessLifecycleMonitor takes none
def construct (type : BuiltinType) (name : String) (cfg : MonitorConfig) (channel : Option String) :
    BuiltinMonitor :=
  match type with
  | .processLifecycle => processLifecycle (.new name cfg)
  | .resource => resource { ResourceMonitor.new name cfg with healthChannel := channel }
  | .deadlock => deadlock { DeadlockMonitor.new name cfg with healthChannel := channel }
  | .alive => alive { AliveMonitor.new name cfg with healthChannel := channel }

def call (mon : BuiltinMonitor) : PriorCall → BuiltinMonitor
  | .start r => (IMonitor.start mon r).2
  | .stop => IMonitor.stop mon
  | .check r => (IMonitor.check mon r).monitor

def watch (mon : BuiltinMonitor) (r : Reading) : Sighting × BuiltinMonitor :=
  let res := IMonitor.check mon r
  ({ outcome := res.outcome.map PhmEvent.anonymous
     state := IMonitor.getState res.monitor
     metrics := IMonitor.collectMetrics res.monitor }, res.monitor)

structure Indistinguishable (used fresh : BuiltinMonitor) (first : Moment) (later : List Moment) :
    Prop where
  started : (IMonitor.start used first.reading).1 = (IMonitor.start fresh first.again).1
  state : IMonitor.getState (IMonitor.start used first.reading).2 =
    IMonitor.getState (IMonitor.start fresh first.again).2
  metrics : IMonitor.collectMetrics (IMonitor.start used first.reading).2 =
    IMonitor.collectMetrics (IMonitor.start fresh first.again).2
  sightings :
    answers (fun mon (o : Moment) => mon.watch o.reading) (IMonitor.start used first.reading).2 later =
      answers (fun mon (o : Moment) => mon.watch o.again) (IMonitor.start fresh first.again).2 later

def NothingSampled : BuiltinMonitor → Prop
  | resource m => m.lastCpu = 0 ∧ m.lastMemory = 0 ∧ m.lastFd = 0
  | _ => True

def slate : BuiltinMonitor → BuiltinMonitor
  | processLifecycle m => processLifecycle { m with state := .init, pid := -1, platform := false }
  | resource m =>
    resource { m with
      state := .init, pid := -1, platform := false, lastCpu := 0, lastMemory := 0, lastFd := 0 }
  | deadlock m =>
    deadlock { m with state := .init, lastCheckOk := true, lastCheckTime := 0, platform := false }
  | alive m => alive { m with state := .init, lastCounter := 0, firstCheck := true }

section
variable (mon : BuiltinMonitor)

theorem slate_construct (type : BuiltinType) (name : String) (cfg : MonitorConfig)
    (channel : Option String) : slate (construct type name cfg channel) = construct type name cfg channel := by
  cases type <;> rfl

theorem slate_start (r : Reading) : slate (IMonitor.start mon r).2 = slate mon := by
  cases mon with
  | processLifecycle m =>
    change slate (processLifecycle (m.start r).2) = slate (processLifecycle m)
    unfold ProcessLifecycleMonitor.start
    split_ifs <;> rfl
  | resource m =>
    change slate (resource (m.start r).2) = slate (resource m)
    unfold ResourceMonitor.start
    split_ifs <;> rfl
  | deadlock m =>
    change slate (deadlock (m.start r).2) = slate (deadlock m)
    unfold DeadlockMonitor.start
    split_ifs <;> rfl
  | alive m => rfl

theorem slate_check (r : Reading) : slate (IMonitor.check mon r).monitor = slate mon := by
  cases mon with
  | processLifecycle m =>
    change slate (processLifecycle (m.check r).monitor) = slate (processLifecycle m)
    unfold ProcessLifecycleMonitor.check
    dsimp only
    split_ifs <;> rfl
  | resource m =>
    change slate (resource (m.check r).monitor) = slate (resource m)
    unfold ResourceMonitor.check ResourceMonitor.classify
    dsimp only
    split_ifs <;> rfl
  | deadlock m =>
    change slate (deadlock (m.check r).monitor) = slate (deadlock m)
    unfold DeadlockMonitor.check
    dsimp only
    split_ifs <;> rfl
  | alive m =>
    change slate (alive (m.check r).monitor) = slate (alive m)
    unfold AliveMonitor.check
    split
    · rfl
    · dsimp only
      split_ifs <;> rfl

theorem slate_call (c : PriorCall) : slate (mon.call c) = slate mon := by
  cases c with
  | start r => exact slate_start mon r
  | stop => cases mon <;> rfl
  | check r => exact slate_check mon r

theorem slate_run (history : List PriorCall) : slate (Runs.run call mon history) = slate mon :=
  Runs.run_eq_of_each slate history (fun mon c _ => slate_call mon c) mon

theorem start_again (o : Moment) : IMonitor.start mon o.again = IMonitor.start mon o.reading := by
  cases mon <;> rfl

theorem watch_again (o : Moment) : mon.watch o.again = mon.watch o.reading := by
  cases mon with
  | processLifecycle m =>
    have hid (r : Reading) : generateId "phm_mon_proc_" r ≠ "" := generateId_ne_empty (by decide) r
    have hprobe : m.probe o.again = m.probe o.reading := rfl
    simp only [watch, IMonitor.check, lift, ProcessLifecycleMonitor.check, hprobe]
    split
    · rfl
    · split_ifs
      · simp [PhmEvent.anonymous, ProcessLifecycleMonitor.exitEvent, hid, Except.map]
      · rfl
      · rfl
  | resource m =>
    have hid (r : Reading) : generateId "phm_mon_res_" r ≠ "" := generateId_ne_empty (by decide) r
    have hsample : m.sample o.again = m.sample o.reading := rfl
    have hp : o.again.processExists = o.reading.processExists := rfl
    have hg : o.again.getProcessId = o.reading.getProcessId := rfl
    simp only [watch, IMonitor.check, lift, ResourceMonitor.check, ResourceMonitor.classify, hsample, hp, hg]
    split_ifs
    · rfl
    · rfl
    · rfl
    · simp [PhmEvent.anonymous, ResourceMonitor.lostEvent, hid, Except.map]
    · simp [PhmEvent.anonymous, ResourceMonitor.thresholdEvent, hid, Except.map]
    · simp [PhmEvent.anonymous, ResourceMonitor.thresholdEvent, hid, Except.map]
    · rfl
  | deadlock m =>
    have hid (r : Reading) : generateId "phm_mon_dead_" r ≠ "" := generateId_ne_empty (by decide) r
    have hdue : m.due o.again = m.due o.reading := rfl
    have halive : m.alive o.again = m.alive o.reading := rfl
    simp only [watch, IMonitor.check, lift, DeadlockMonitor.check, hdue, halive]
    split_ifs
    · rfl
    · rfl
    · simp [PhmEvent.anonymous, DeadlockMonitor.hangEvent, hid, Except.map, Moment.again]
    · rfl
    · rfl
  | alive m =>
    have hid (r : Reading) : generateId "phm_mon_alive_" r ≠ "" := generateId_ne_empty (by decide) r
    have hc : o.again.channel = o.reading.channel := rfl
    simp only [watch, IMonitor.check, lift, AliveMonitor.check, hc]
    split
    · rfl
    · split_ifs
      · rfl
      · simp [PhmEvent.anonymous, AliveMonitor.frozenEvent, hid, Except.map]
      · rfl
      · rfl

end

-- equal, or deadlock monitors that start() left without a platform: last_check_time_ may differ
inductive Twin : BuiltinMonitor → BuiltinMonitor → Prop
  | same (mon : BuiltinMonitor) : Twin mon mon
  | idle {m n : DeadlockMonitor} : m.platform = false → n.platform = false → m.state = n.state →
      Twin (deadlock m) (deadlock n)

section
variable {used fresh : BuiltinMonitor}

theorem Twin.state (h : Twin used fresh) : IMonitor.getState used = IMonitor.getState fresh := by
  cases h with
  | same => rfl
  | idle _ _ hstate => exact hstate

theorem Twin.metrics (h : Twin used fresh) :
    IMonitor.collectMetrics used = IMonitor.collectMetrics fresh := by
  cases h <;> rfl

theorem Twin.watch (h : Twin used fresh) (o : Moment) :
    (used.watch o.reading).1 = (fresh.watch o.again).1 ∧
      Twin (used.watch o.reading).2 (fresh.watch o.again).2 := by
  rw [watch_again]
  cases h with
  | same => exact ⟨rfl, .same _⟩
  | @idle m n hm hn hstate =>
    have hskip (m : DeadlockMonitor) (hm : m.platform = false) (r : Reading) :
        m.check r = { monitor := m, outcome := .ok {} } := DeadlockMonitor.check_skipped (by simp [hm])
    simp only [BuiltinMonitor.watch, IMonitor.check, hskip m hm, hskip n hn]
    refine ⟨?_, .idle hm hn hstate⟩
    simp only [lift, IMonitor.getState, IMonitor.collectMetrics, hstate]

theorem start_reset (h : NothingSampled used) (r : Reading) :
    (IMonitor.start (IMonitor.reset used) r).1 = (IMonitor.start (slate used) r).1 ∧
      Twin (IMonitor.start (IMonitor.reset used) r).2 (IMonitor.start (slate used) r).2 := by
  cases used with
  | processLifecycle m =>
    have heq : IMonitor.start (IMonitor.reset (processLifecycle m)) r =
        IMonitor.start (slate (processLifecycle m)) r := by
      simp only [IMonitor.start, IMonitor.reset, slate, ProcessLifecycleMonitor.start,
        ProcessLifecycleMonitor.reset]
    rw [heq]
    exact ⟨rfl, .same _⟩
  | resource m =>
    obtain ⟨hcpu, hmemory, hfd⟩ := h
    have heq : IMonitor.start (IMonitor.reset (resource m)) r = IMonitor.start (slate (resource m)) r := by
      simp only [IMonitor.start, IMonitor.reset, slate, ResourceMonitor.start, ResourceMonitor.reset, hcpu,
        hmemory, hfd]
    rw [heq]
    exact ⟨rfl, .same _⟩
  | deadlock m =>
    simp only [IMonitor.start, IMonitor.reset, slate, DeadlockMonitor.start, DeadlockMonitor.reset]
    cases r.created with
    | false => exact ⟨rfl, .idle rfl rfl rfl⟩
    | true => exact ⟨rfl, .same _⟩
  | alive m => exact ⟨rfl, .same _⟩

theorem getD_metrics_start (m : ResourceMonitor) (r : Reading) :
    (IMonitor.collectMetrics (IMonitor.start (resource m) r).2).getD "cpu_usage" 0 = m.lastCpu ∧
      (IMonitor.collectMetrics (IMonitor.start (resource m) r).2).getD "memory_bytes" 0 = m.lastMemory ∧
      (IMonitor.collectMetrics (IMonitor.start (resource m) r).2).getD "fd_count" 0 = m.lastFd := by
  have hkept : (m.start r).2.lastCpu = m.lastCpu ∧ (m.start r).2.lastMemory = m.lastMemory ∧
      (m.start r).2.lastFd = m.lastFd := by
    unfold ResourceMonitor.start
    split_ifs <;> exact ⟨rfl, rfl, rfl⟩
  obtain ⟨hcpu, hmemory, hfd⟩ := hkept
  simp [IMonitor.collectMetrics, IMonitor.start, Std.ExtTreeMap.getD_insert, hcpu, hmemory, hfd]

theorem indistinguishable_iff (used : BuiltinMonitor) (first : Moment) (later : List Moment) :
    Indistinguishable (IMonitor.reset used) (slate used) first later ↔ NothingSampled used := by
  constructor
  · intro h
    have hmetrics := h.metrics
    cases used with
    | resource m =>
      change IMonitor.collectMetrics (IMonitor.start (resource m.reset) _).2 = _ at hmetrics
      obtain ⟨hcpu, hmemory, hfd⟩ := getD_metrics_start m.reset first.reading
      rw [hmetrics] at hcpu hmemory hfd
      obtain ⟨hcpu', hmemory', hfd'⟩ := getD_metrics_start (m := _) first.again
      exact ⟨hcpu.symm.trans hcpu', hmemory.symm.trans hmemory', hfd.symm.trans hfd'⟩
    | _ => trivial
  · intro h
    obtain ⟨hok, htwin⟩ := start_reset h first.reading
    rw [← start_again (slate used) first] at hok htwin
    exact ⟨hok, htwin.state, htwin.metrics, answers_eq (fun _ _ o ht => ht.watch o) htwin later⟩

end

theorem reset_is_fresh_iff (type : BuiltinType) (name : String) (cfg : MonitorConfig)
    (channel : Option String) (history : List PriorCall) (first : Moment) (later : List Moment) :
    let mon := construct type name cfg channel
    Indistinguishable (IMonitor.reset (Runs.run call mon history)) mon first later ↔
      NothingSampled (Runs.run call mon history) := by
  intro mon
  have hslate : slate (Runs.run call mon history) = mon :=
    (slate_run mon history).trans (slate_construct type name cfg channel)
  have hiff := indistinguishable_iff (Runs.run call mon history) first later
  rwa [hslate] at hiff

theorem reset_keeps_last_sample :
    let cfg : MonitorConfig :=
      { params := StringMap.empty.insert "process_name" "worker", errorThreshold := 90 }
    let busy : Reading :=
      { getProcessId := fun _ => 7, processExists := fun _ => true, getCpuUsage := fun _ => 95 }
    let idle : Reading := { busy with getCpuUsage := fun _ => 0 }
    let mon := construct .resource "resource" cfg none
    let used := IMonitor.reset (Runs.run call mon [.start busy, .check busy])
    ((IMonitor.start used idle).2.watch idle).1.state = .error ∧
      ((IMonitor.start mon idle).2.watch idle).1.state = .running ∧
      ¬ Indistinguishable used mon ⟨idle, 0, 0⟩ [⟨idle, 0, 0⟩] := by
  intro cfg busy idle mon used
  have hused : ((IMonitor.start used idle).2.watch idle).1.state = .error := by decide +kernel
  have hfresh : ((IMonitor.start mon idle).2.watch idle).1.state = .running := by decide +kernel
  refine ⟨hused, hfresh, fun h => ?_⟩
  have hstates := congrArg (List.map Sighting.state) h.sightings
  simp only [start_again, answers, watch_again, List.map_cons, hused, hfresh] at hstates
  cases hstates

end BuiltinMonitor

end PlatformHealth
