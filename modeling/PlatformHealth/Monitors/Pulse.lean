import PlatformHealth.Channel.Reports
import PlatformHealth.Library.StoreHistory
import PlatformHealth.Monitors.Heartbeat
import Mathlib.Data.List.Chain

namespace PlatformHealth

open HealthChannel StoreHistory

inductive PulseStep where
  | report (counter now : UInt64)
  | check (now : UInt64) (r : Reading)

def PulseStep.now : PulseStep → UInt64
  | .report _ now => now
  | .check now _ => now

-- how far report() has come
inductive ReportPhase where
  | idle
  | timed (counter now : UInt64)
  | counted (now : UInt64)

-- how far AliveMonitor::check() has come, with what it has loaded
inductive CheckPhase where
  | idle
  | counterLoaded (current : UInt64)
  | statusBegun (current : UInt64) (status : HealthChannelStatus)
  | updateLoaded (current : UInt64) (status : HealthChannelStatus) (lastUpdate : UInt64)

-- one check: how many reports had returned when it began, how many had stored their counter when it
-- loaded the counter, and how many had stored their time when it loaded the time
structure Look where
  completed : Nat := 0
  counters : Nat := 0
  stamps : Nat := 0
  current : UInt64 := 0
  lastUpdate : UInt64 := 0
  now : UInt64 := 0
  raised : List PhmEvent := []

-- the supervised process and the monitor at work at the same time: every load and every store of the
-- channel is a step
structure Pulse where
  monitor : AliveMonitor
  timeout : Int
  data : HealthChannelData := {}
  clock : UInt64 := 0
  reporting : ReportPhase := .idle
  checking : CheckPhase := .idle
  counters : List UInt64 := []
  stamps : List UInt64 := []
  look : Look := {}
  looks : List Look := []

namespace Pulse

def report (p : Pulse) (counter now : UInt64) : Pulse :=
  match p.reporting with
  | .idle => { p with reporting := .timed counter now }
  | .timed counter time =>
    { p with
      data := { p.data with aliveCounter := counter }
      counters := p.counters ++ [counter]
      reporting := .counted time }
  | .counted time =>
    { p with
      data := { p.data with lastUpdateMs := time }
      stamps := p.stamps ++ [time]
      reporting := .idle }

def observe (current : UInt64) (status : HealthChannelStatus) (r : Reading) : Reading :=
  { r with
    channel := fun name =>
      { r.channel name with
        aliveCounter := current
        isAlive := status.isAlive } }

def check (p : Pulse) (now : UInt64) (r : Reading) : Pulse :=
  match p.checking with
  | .idle =>
    { p with
      checking := .counterLoaded p.data.aliveCounter
      look := { completed := p.stamps.length, counters := p.counters.length } }
  | .counterLoaded current =>
    { p with checking := .statusBegun current { aliveCounter := p.data.aliveCounter, lastCheck := now } }
  | .statusBegun current status =>
    { p with
      checking := .updateLoaded current status p.data.lastUpdateMs
      look := { p.look with stamps := p.stamps.length } }
  | .updateLoaded current status lastUpdate =>
    let isAlive := decide (now - lastUpdate < UInt64.ofInt p.timeout)
    let result := p.monitor.check (observe current { status with isAlive } r)
    { p with
      monitor := result.monitor
      checking := .idle
      looks := p.looks ++
        [{ p.look with current, lastUpdate, now, raised := Heartbeat.returned result.outcome }] }

def step (p : Pulse) (a : PulseStep) : Pulse :=
  let p := { p with clock := a.now }
  match a with
  | .report counter now => p.report counter now
  | .check now r => p.check now r

-- the steady clock, which is far from 2 ^ 63 ms
def Steady (p : Pulse) (a : PulseStep) : Prop := p.clock ≤ a.now ∧ a.now.toNat < 2 ^ 63

instance (p : Pulse) (a : PulseStep) : Decidable (p.Steady a) :=
  inferInstanceAs (Decidable (p.clock ≤ a.now ∧ a.now.toNat < 2 ^ 63))

def opened (name : String) (cfg : MonitorConfig) (channel : String) (timeout : Int) (r : Reading) : Pulse where
  monitor := { ((AliveMonitor.new name cfg).start r).2 with healthChannel := some channel }
  timeout

end Pulse

namespace AliveMonitor

variable {m : AliveMonitor} {c : String} {r : Reading}

theorem check_keeps_channel (m : AliveMonitor) (r : Reading) :
    (m.check r).monitor.healthChannel = m.healthChannel := by
  unfold check
  grind

theorem check_counts (hc : m.healthChannel = some c) (r : Reading) :
    (m.check r).monitor.lastCounter = (r.channel c).aliveCounter ∧ (m.check r).monitor.firstCheck = false := by
  unfold check
  grind

theorem check_raises_iff (hc : m.healthChannel = some c) (hfirst : m.firstCheck = false) :
    Heartbeat.returned (m.check r).outcome ≠ [] ↔
      (r.channel c).isAlive = false ∨ (r.channel c).aliveCounter = m.lastCounter := by
  have hid : (m.frozenEvent (r.channel c).aliveCounter r).id ≠ "" := generateId_ne_empty (by decide) r
  unfold check
  rw [hc, hfirst]
  dsimp only
  rw [if_neg Bool.false_ne_true]
  split
  · next hfrozen =>
    have hcause : (r.channel c).isAlive = false ∨ (r.channel c).aliveCounter = m.lastCounter := by
      simpa using hfrozen
    simp [Heartbeat.returned, hid, hcause]
  · next hfine =>
    refine iff_of_false ?_ (by simpa using hfine)
    split <;> simp [Heartbeat.returned]

theorem check_of_first (hc : m.healthChannel = some c) (hfirst : m.firstCheck = true) (r : Reading) :
    Heartbeat.returned (m.check r).outcome = [] := by
  unfold check
  rw [hc, hfirst]
  rfl

end AliveMonitor

namespace Pulse

structure Began (counters stamps : List UInt64) (l : Look) (current : UInt64) : Prop where
  before : l.completed ≤ l.counters
  ahead : l.counters ≤ l.completed + 1
  stored : l.counters ≤ counters.length
  returned : l.completed ≤ stamps.length
  current_eq : current = after 0 counters l.counters

structure Loaded (counters stamps : List UInt64) (l : Look) (current lastUpdate : UInt64) : Prop extends
    Began counters stamps l current where
  fresh : l.completed ≤ l.stamps
  stamped : l.stamps ≤ stamps.length
  update_eq : lastUpdate = after 0 stamps l.stamps

def ReportAt (p : Pulse) : ReportPhase → Prop
  | .idle => p.counters.length = p.stamps.length
  | .timed _ time => p.counters.length = p.stamps.length ∧ time ≤ p.clock
  | .counted time => p.counters.length = p.stamps.length + 1 ∧ time ≤ p.clock

def CheckAt (counters stamps : List UInt64) (l : Look) : CheckPhase → Prop
  | .idle => True
  | .counterLoaded current => Began counters stamps l current
  | .statusBegun current _ => Began counters stamps l current
  | .updateLoaded current _ lastUpdate => Loaded counters stamps l current lastUpdate

def Judged (timeout : Int) (a b : Look) : Prop :=
  b.raised ≠ [] ↔ a.current = b.current ∨
    0 ≤ timeout ∧ timeout ≤ (b.now.toNat : Int) - b.lastUpdate.toNat

def Fits (timeout : Int) : Prop := -2 ^ 63 ≤ timeout ∧ timeout < 2 ^ 63

instance (timeout : Int) : Decidable (Fits timeout) := inferInstanceAs (Decidable (_ ∧ _))

structure Stored (p : Pulse) : Prop where
  timeout : Fits p.timeout
  counter : p.data.aliveCounter = after 0 p.counters p.counters.length
  update : p.data.lastUpdateMs = after 0 p.stamps p.stamps.length
  past : ∀ time ∈ p.stamps, time ≤ p.clock
  reporting : p.ReportAt p.reporting

structure Checked (p : Pulse) : Prop where
  channel : ∃ c, p.monitor.healthChannel = some c
  checking : CheckAt p.counters p.stamps p.look p.checking
  none : p.looks = [] → p.monitor.firstCheck = true
  last : ∀ l ∈ p.looks.getLast?, p.monitor.firstCheck = false ∧ p.monitor.lastCounter = l.current
  loaded : ∀ l ∈ p.looks, Loaded p.counters p.stamps l l.current l.lastUpdate
  first : ∀ l ∈ p.looks.head?, l.raised = []
  judged : p.looks.IsChain (Judged p.timeout)

structure Exact (p : Pulse) : Prop where
  placed : ∀ l ∈ p.looks, l.completed ≤ l.counters ∧ l.counters ≤ l.completed + 1 ∧ l.completed ≤ l.stamps
  first : ∀ l ∈ p.looks.head?, l.raised = []
  next : ∀ earlier a b later, p.looks = earlier ++ a :: b :: later →
    (b.raised ≠ [] ↔ a.counters = b.counters ∨
      0 ≤ p.timeout ∧ p.timeout ≤ (b.now.toNat : Int) - (after 0 p.stamps b.stamps).toNat)

section
variable {p : Pulse} {l : Look} {current lastUpdate now : UInt64} {counters stamps : List UInt64}

theorem Began.mono (h : Began counters stamps l current) (more more' : List UInt64) :
    Began (counters ++ more) (stamps ++ more') l current where
  before := h.before
  ahead := h.ahead
  stored := by
    rw [List.length_append]
    exact Nat.le_add_right_of_le h.stored
  returned := by
    rw [List.length_append]
    exact Nat.le_add_right_of_le h.returned
  current_eq := by rw [after_append more h.stored, h.current_eq]

theorem Loaded.mono (h : Loaded counters stamps l current lastUpdate) (more more' : List UInt64) :
    Loaded (counters ++ more) (stamps ++ more') l current lastUpdate where
  toBegan := h.toBegan.mono more more'
  fresh := h.fresh
  stamped := by
    rw [List.length_append]
    exact Nat.le_add_right_of_le h.stamped
  update_eq := by rw [after_append more' h.stamped, h.update_eq]

theorem CheckAt.mono {phase : CheckPhase} (h : CheckAt counters stamps l phase) (more more' : List UInt64) :
    CheckAt (counters ++ more) (stamps ++ more') l phase := by
  cases phase with
  | idle => trivial
  | counterLoaded current => exact Began.mono h more more'
  | statusBegun current status => exact Began.mono h more more'
  | updateLoaded current status lastUpdate => exact Loaded.mono h more more'

theorem ReportAt.mono {phase : ReportPhase} (h : p.ReportAt phase) (hnow : p.clock ≤ now) :
    ReportAt { p with clock := now } phase := by
  cases phase with
  | idle => exact h
  | timed counter time => exact ⟨h.1, UInt64.le_trans h.2 hnow⟩
  | counted time => exact ⟨h.1, UInt64.le_trans h.2 hnow⟩

theorem Stored.tick (h : p.Stored) (hnow : p.clock ≤ now) : Stored { p with clock := now } where
  timeout := h.timeout
  counter := h.counter
  update := h.update
  past time htime := UInt64.le_trans (h.past time htime) hnow
  reporting := h.reporting.mono hnow

theorem Checked.tick (h : p.Checked) : Checked { p with clock := now } :=
  ⟨h.channel, h.checking, h.none, h.last, h.loaded, h.first, h.judged⟩

theorem Stored.report (h : p.Stored) (counter : UInt64) : (p.report counter p.clock).Stored := by
  have hreporting := h.reporting
  cases hphase : p.reporting with
  | idle =>
    rw [hphase] at hreporting
    simp only [Pulse.report, hphase]
    exact ⟨h.timeout, h.counter, h.update, h.past, hreporting, UInt64.le_refl _⟩
  | timed counter time =>
    rw [hphase] at hreporting
    simp only [Pulse.report, hphase]
    exact ⟨h.timeout, after_concat.symm, h.update, h.past, by simp [hreporting.1], hreporting.2⟩
  | counted time =>
    rw [hphase] at hreporting
    simp only [Pulse.report, hphase]
    refine ⟨h.timeout, h.counter, after_concat.symm, ?_, by simp [ReportAt, hreporting.1]⟩
    intro t ht
    rcases List.mem_append.mp ht with hold | hnew
    · exact h.past t hold
    · exact List.mem_singleton.mp hnew ▸ hreporting.2

theorem Checked.report (h : p.Checked) (counter now : UInt64) : (p.report counter now).Checked := by
  cases hphase : p.reporting with
  | idle =>
    simp only [Pulse.report, hphase]
    exact ⟨h.channel, h.checking, h.none, h.last, h.loaded, h.first, h.judged⟩
  | timed counter time =>
    have hmore {l : Look} (hl : l ∈ p.looks) := (h.loaded l hl).mono [counter] []
    have hchecking := h.checking.mono [counter] []
    simp only [List.append_nil] at hmore hchecking
    simp only [Pulse.report, hphase]
    exact ⟨h.channel, hchecking, h.none, h.last, fun l hl => hmore hl, h.first, h.judged⟩
  | counted time =>
    have hmore {l : Look} (hl : l ∈ p.looks) := (h.loaded l hl).mono [] [time]
    have hchecking := h.checking.mono [] [time]
    simp only [List.append_nil] at hmore hchecking
    simp only [Pulse.report, hphase]
    exact ⟨h.channel, hchecking, h.none, h.last, fun l hl => hmore hl, h.first, h.judged⟩

theorem Stored.began (h : p.Stored) : Began p.counters p.stamps
    { completed := p.stamps.length, counters := p.counters.length } p.data.aliveCounter := by
  have hlength : p.counters.length = p.stamps.length ∨ p.counters.length = p.stamps.length + 1 := by
    have hreporting := h.reporting
    cases hphase : p.reporting with
    | idle =>
      rw [hphase] at hreporting
      exact .inl hreporting
    | timed counter time =>
      rw [hphase] at hreporting
      exact .inl hreporting.1
    | counted time =>
      rw [hphase] at hreporting
      exact .inr hreporting.1
  refine ⟨?_, ?_, Nat.le_refl _, Nat.le_refl _, h.counter⟩
  · change p.stamps.length ≤ p.counters.length
    omega
  · change p.counters.length ≤ p.stamps.length + 1
    omega

theorem Stored.check (h : p.Stored) (now : UInt64) (r : Reading) : (p.check now r).Stored := by
  unfold Pulse.check
  split
  all_goals exact ⟨h.timeout, h.counter, h.update, h.past, h.reporting⟩

theorem Stored.expired_iff (h : p.Stored) (hl : Loaded p.counters p.stamps l current lastUpdate)
    (hclock : p.clock.toNat < 2 ^ 63) :
    ¬ p.clock - lastUpdate < UInt64.ofInt p.timeout ↔
      0 ≤ p.timeout ∧ p.timeout ≤ (p.clock.toNat : Int) - lastUpdate.toNat := by
  have hpast : lastUpdate ≤ p.clock := by
    rcases List.mem_cons.mp (hl.update_eq ▸ after_mem (v := 0) hl.stamped) with hzero | hmem
    · exact hzero ▸ UInt64.zero_le
    · exact h.past lastUpdate hmem
  have halive : isAlive { lastUpdateMs := lastUpdate } p.timeout p.clock = true ↔
      p.timeout < 0 ∨ (p.clock.toNat - lastUpdate.toNat : Int) < p.timeout :=
    isAlive_iff h.timeout.1 h.timeout.2 hpast hclock
  rw [HealthChannel.isAlive, getStatus, decide_eq_true_iff] at halive
  rw [halive]
  omega

theorem Checked.finish (h : p.Checked) (hs : p.Stored) (hclock : p.clock.toNat < 2 ^ 63)
    {status : HealthChannelStatus} (hphase : p.checking = .updateLoaded current status lastUpdate) (r : Reading) :
    (p.check p.clock r).Checked := by
  obtain ⟨c, hc⟩ := h.channel
  have hl : Loaded p.counters p.stamps p.look current lastUpdate := by
    have hchecking := h.checking
    rwa [hphase] at hchecking
  have hexpired := hs.expired_iff hl hclock
  simp only [Pulse.check, hphase]
  generalize hseen : observe current _ r = seen
  have hcurrent : (seen.channel c).aliveCounter = current := hseen ▸ rfl
  have halive : (seen.channel c).isAlive = false ↔
      0 ≤ p.timeout ∧ p.timeout ≤ (p.clock.toNat : Int) - lastUpdate.toNat := by
    rw [← hexpired, ← hseen]
    exact decide_eq_false_iff_not
  obtain ⟨hcounter, hfirst⟩ := AliveMonitor.check_counts hc seen
  refine ⟨⟨c, (AliveMonitor.check_keeps_channel _ _).trans hc⟩, trivial, ?_, ?_, ?_, ?_, ?_⟩
  · intro hnil
    exact absurd hnil (List.append_ne_nil_of_right_ne_nil _ (List.cons_ne_nil _ _))
  · intro l hlast
    rw [List.getLast?_concat, Option.mem_some_iff] at hlast
    exact hlast ▸ ⟨hfirst, hcounter.trans hcurrent⟩
  · intro l hmem
    rcases List.mem_append.mp hmem with hold | hnew
    · exact h.loaded l hold
    · rw [List.mem_singleton.mp hnew]
      exact ⟨⟨hl.before, hl.ahead, hl.stored, hl.returned, hl.current_eq⟩, hl.fresh, hl.stamped, hl.update_eq⟩
  · intro l hhead
    cases hlooks : p.looks with
    | nil =>
      rw [hlooks, List.nil_append, List.head?_cons, Option.mem_some_iff] at hhead
      rw [← hhead]
      exact AliveMonitor.check_of_first hc (h.none hlooks) seen
    | cons first more =>
      rw [hlooks, List.cons_append, List.head?_cons, Option.mem_some_iff] at hhead
      exact h.first l (by rw [hlooks, List.head?_cons, Option.mem_some_iff, hhead])
  · refine List.isChain_append.mpr ⟨h.judged, List.isChain_singleton _, ?_⟩
    intro a ha b hb
    obtain ⟨hrepeated, hlast⟩ := h.last a ha
    rw [List.head?_cons, Option.mem_some_iff] at hb
    rw [← hb, Judged, AliveMonitor.check_raises_iff hc hrepeated, halive, hcurrent, hlast, or_comm, eq_comm]

theorem Checked.check (h : p.Checked) (hs : p.Stored) (hclock : p.clock.toNat < 2 ^ 63) (r : Reading) :
    (p.check p.clock r).Checked := by
  have hchecking := h.checking
  cases hphase : p.checking with
  | idle =>
    simp only [Pulse.check, hphase]
    exact ⟨h.channel, hs.began, h.none, h.last, h.loaded, h.first, h.judged⟩
  | counterLoaded current =>
    rw [hphase] at hchecking
    simp only [Pulse.check, hphase]
    exact ⟨h.channel, hchecking, h.none, h.last, h.loaded, h.first, h.judged⟩
  | statusBegun current status =>
    rw [hphase] at hchecking
    simp only [Pulse.check, hphase]
    have hb : Began p.counters p.stamps p.look current := hchecking
    have hl : Loaded p.counters p.stamps { p.look with stamps := p.stamps.length } current p.data.lastUpdateMs :=
      ⟨⟨hb.before, hb.ahead, hb.stored, hb.returned, hb.current_eq⟩, hb.returned, Nat.le_refl _, hs.update⟩
    exact ⟨h.channel, hl, h.none, h.last, h.loaded, h.first, h.judged⟩
  | updateLoaded current status lastUpdate => exact h.finish hs hclock hphase r

theorem sound_step {a : PulseStep} (hsteady : p.Steady a) (h : p.Stored ∧ p.Checked) :
    (p.step a).Stored ∧ (p.step a).Checked := by
  have hstored : Stored { p with clock := a.now } := h.1.tick hsteady.1
  have hchecked : Checked { p with clock := a.now } := h.2.tick
  cases a with
  | report counter now => exact ⟨hstored.report counter, hchecked.report counter now⟩
  | check now r => exact ⟨hstored.check now r, hchecked.check hstored hsteady.2 r⟩

theorem sound_run {steps : List PulseStep} (h : p.Stored ∧ p.Checked) (hsteady : Runs.Each step Steady p steps) :
    (Runs.run step p steps).Stored ∧ (Runs.run step p steps).Checked := by
  induction steps generalizing p with
  | nil => exact h
  | cons a steps ih => exact ih (sound_step hsteady.1 h) hsteady.2

theorem sound_opened (name : String) (cfg : MonitorConfig) (channel : String) {timeout : Int}
    (htimeout : Fits timeout) (r : Reading) :
    (opened name cfg channel timeout r).Stored ∧ (opened name cfg channel timeout r).Checked :=
  ⟨⟨htimeout, rfl, rfl, nofun, rfl⟩, ⟨⟨channel, rfl⟩, trivial, fun _ => rfl, nofun, nofun, nofun, List.isChain_nil⟩⟩

theorem exact_of_checked (h : p.Checked) (hrising : (0 :: p.counters).Pairwise (· < ·)) : p.Exact where
  placed l hl := ⟨(h.loaded l hl).before, (h.loaded l hl).ahead, (h.loaded l hl).fresh⟩
  first := h.first
  next earlier a b later hlooks := by
    have hjudged := h.judged
    rw [hlooks] at hjudged
    have hab : Judged p.timeout a b := (List.isChain_append_cons_cons.mp hjudged).2.1
    have ha := h.loaded a (by simp [hlooks])
    have hb := h.loaded b (by simp [hlooks])
    have hnodup : (0 :: p.counters).Nodup := hrising.imp fun hlt => UInt64.ne_of_lt hlt
    unfold Judged at hab
    rw [hab, ha.current_eq, hb.current_eq, hb.update_eq, after_inj hnodup ha.stored hb.stored]

end

theorem looks_exact (name : String) (cfg : MonitorConfig) (channel : String) {timeout : Int}
    (htimeout : Fits timeout) (r : Reading) (steps : List PulseStep)
    (hsteady : Runs.Each step Steady (opened name cfg channel timeout r) steps)
    (hrising : (0 :: (Runs.run step (opened name cfg channel timeout r) steps).counters).Pairwise (· < ·)) :
    (Runs.run step (opened name cfg channel timeout r) steps).Exact :=
  exact_of_checked (sound_run (sound_opened name cfg channel htimeout r) hsteady).2 hrising

def lateStamp : List PulseStep :=
  [.report 1 0, .report 1 0, .report 1 10, .check 20 {}, .check 20 {}, .check 20 {}, .check 20 {},
    .report 2 6000, .report 2 6000, .check 6000 {}, .check 6000 {}, .check 6000 {}, .check 6000 {},
    .report 2 6010]

theorem late_stamp_alarms :
    (Runs.run step (opened "alive" {} "app" 5000 {}) lateStamp).Exact :=
  looks_exact "alive" {} "app" (by decide : Fits 5000) {} lateStamp (by decide) (by decide)

example : (Runs.run step (opened "alive" {} "app" 5000 {}) lateStamp).looks.map
    (fun l => (l.counters, l.stamps, l.raised.length)) = [(1, 1, 0), (2, 1, 1)] := by
  rfl

end Pulse

end PlatformHealth
