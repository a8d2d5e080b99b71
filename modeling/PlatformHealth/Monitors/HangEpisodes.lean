import PlatformHealth.Library.EdgeDetector
import PlatformHealth.Monitors.Deadlock

namespace PlatformHealth

open EdgeDetector

def returned {μ : Type} (res : CheckResult μ) : Option PhmEvent :=
  match res.outcome with
  | .ok evt => if evt.id = "" then none else some evt
  | .error _ => none

structure Evaluation where
  time : Int
  alive : Bool
  event : Option PhmEvent

namespace DeadlockMonitor

def checkAt (m : DeadlockMonitor) (r : Reading) : DeadlockMonitor := (m.check r).monitor

def runChecks (m : DeadlockMonitor) (rs : List Reading) : DeadlockMonitor := rs.foldl checkAt m

-- the checks that got as far as asking whether the target is alive
def evaluations : DeadlockMonitor → List Reading → List Evaluation
  | _, [] => []
  | m, r :: rs =>
    (if m.platform && m.due r then [⟨r.steadyNow, m.alive r, returned (m.check r)⟩] else []) ++
      evaluations (m.checkAt r) rs

def events : DeadlockMonitor → List Reading → List PhmEvent
  | _, [] => []
  | m, r :: rs => (returned (m.check r)).toList ++ events (m.checkAt r) rs

structure Tracking (m : DeadlockMonitor) : Prop where
  platform : m.platform = true
  state : m.state = if m.lastCheckOk then .running else .error

section
variable {m : DeadlockMonitor} {r : Reading}

theorem check_evaluated (hm : m.Tracking) (h : m.due r = true) :
    m.check r =
      { monitor :=
          { m with
            lastCheckTime := r.steadyNow
            lastCheckOk := m.alive r
            state := if m.alive r then .running else .error }
        outcome := .ok (if !m.alive r && m.lastCheckOk then m.hangEvent r else {}) } := by
  have hstate := hm.state
  unfold check
  rw [hm.platform, h]
  cases ha : m.alive r <;> cases hok : m.lastCheckOk <;> simp_all

theorem Tracking.checkAt (hm : m.Tracking) (r : Reading) : (m.checkAt r).Tracking := by
  unfold DeadlockMonitor.checkAt
  cases hdue : m.due r with
  | false =>
    rw [check_skipped (by simp [hdue])]
    exact hm
  | true =>
    rw [check_evaluated hm hdue]
    exact ⟨hm.platform, rfl⟩

theorem Tracking.runChecks (hm : m.Tracking) (rs : List Reading) : (m.runChecks rs).Tracking := by
  induction rs generalizing m with
  | nil => exact hm
  | cons r rs ih => exact ih (hm.checkAt r)

theorem tracking_start {m : DeadlockMonitor} (h : (m.start r).1 = true) : (m.start r).2.Tracking := by
  unfold start at h ⊢
  cases hc : r.created with
  | false => simp [hc] at h
  | true => exact ⟨rfl, rfl⟩

end

def detector : Rearming DeadlockMonitor Reading PhmEvent where
  sense m r := if m.platform && m.due r then some (m.alive r) else none
  next := checkAt
  armed := lastCheckOk
  alarm := hangEvent
  unsensed m r h := by
    unfold checkAt check
    grind
  fired m r h := by
    unfold checkAt check
    grind
  rearmed m r h := by
    unfold checkAt check
    grind

section
variable {m : DeadlockMonitor} (hm : m.Tracking)
include hm

theorem returned_check (r : Reading) : returned (m.check r) = detector.emit m r := by
  have hid : (m.hangEvent r).id ≠ "" := generateId_ne_empty (by decide) r
  cases hdue : m.due r with
  | false =>
    rw [check_skipped (by simp [hdue])]
    simp [returned, Detector.emit, detector, hdue]
  | true =>
    rw [check_evaluated hm hdue]
    cases ha : m.alive r <;> cases hok : m.lastCheckOk <;>
      simp [returned, Detector.emit, detector, hdue, hm.platform, ha, hok, hid]

theorem evaluated_eq (rs : List Reading) :
    detector.evaluated m rs = (evaluations m rs).map fun e => (e.alive, e.event) := by
  induction rs generalizing m with
  | nil => rfl
  | cons r rs ih =>
    have hsense : detector.sense m r = if m.due r then some (m.alive r) else none := by
      simp [detector, hm.platform]
    rw [Rearming.evaluated, evaluations, List.map_append, ← ih (hm.checkAt r), returned_check hm,
      hm.platform, hsense]
    cases m.due r <;> rfl

theorem outputs_eq (rs : List Reading) : detector.outputs m rs = events m rs := by
  induction rs generalizing m with
  | nil => rfl
  | cons r rs ih => rw [Detector.outputs, events, returned_check hm, ← ih (hm.checkAt r)]; rfl

theorem spaced (hinterval : m.config.interval * nsPerMs < 9223372036854775808) (rs : List Reading)
    (hclock : (m.lastCheckTime :: rs.map Reading.steadyNow).Pairwise (· ≤ ·)) :
    (m.lastCheckTime :: (evaluations m rs).map Evaluation.time).IsChain
      fun t t' => m.config.interval * nsPerMs ≤ t' - t := by
  induction rs generalizing m with
  | nil => exact .singleton _
  | cons r rs ih =>
    obtain ⟨hlast, hrest⟩ := List.pairwise_cons.mp hclock
    cases hdue : m.due r with
    | false =>
      have hskip : m.checkAt r = m := by rw [checkAt, check_skipped (by simp [hdue])]
      have hclock' : (m.lastCheckTime :: rs.map Reading.steadyNow).Pairwise (· ≤ ·) :=
        hclock.sublist (by simp)
      have hlater := ih (m := m) hm hinterval hclock'
      rw [evaluations, hm.platform, hdue, hskip]
      exact hlater
    | true =>
      have hchecked : (m.checkAt r).lastCheckTime = r.steadyNow ∧ (m.checkAt r).config = m.config := by
        rw [checkAt, check_evaluated hm hdue]
        exact ⟨rfl, rfl⟩
      obtain ⟨htime, hconfig⟩ := hchecked
      have hlater := ih (hm.checkAt r) (by rwa [hconfig]) (by rwa [htime])
      rw [htime, hconfig] at hlater
      rw [evaluations, hm.platform, hdue]
      refine List.isChain_cons_cons.mpr ⟨?_, hlater⟩
      exact Chrono.le_of_not_younger (hlast r.steadyNow (by simp)) hinterval (by simpa [due] using hdue)

end

theorem getLastD_alive (log : List Evaluation) :
    (log.map Evaluation.alive).getLastD true = true ↔ ∀ last ∈ log.getLast?, last.alive = true := by
  rw [List.getLastD_eq_getLast?, List.getLast?_map]
  cases log.getLast? <;> simp

structure OneEventPerHang (m : DeadlockMonitor) (started : Int) (rs : List Reading) : Prop where
  spaced : (started :: (evaluations m rs).map Evaluation.time).IsChain
    fun t t' => m.config.interval * nsPerMs ≤ t' - t
  returned : events m rs = (evaluations m rs).filterMap Evaluation.event
  count : (events m rs).length = episodes ((evaluations m rs).map Evaluation.alive)
  position : ∀ pre e post, evaluations m rs = pre ++ e :: post →
    (e.event.isSome = true ↔ e.alive = false ∧ ∀ last ∈ pre.getLast?, last.alive = true)
  state : ∀ pre, pre <+: rs →
    ((m.runChecks pre).state = .error ↔ ∃ last ∈ (evaluations m pre).getLast?, last.alive = false)

theorem lastCheckTime_start {m : DeadlockMonitor} {r : Reading} (h : (m.start r).1 = true) :
    (m.start r).2.lastCheckTime = r.steadyNow ∧ (m.start r).2.lastCheckOk = true ∧
      (m.start r).2.config = m.config := by
  unfold start at h ⊢
  cases hc : r.created with
  | false => simp [hc] at h
  | true => exact ⟨rfl, rfl, rfl⟩

structure Clocked (readings : List Reading) : Prop where
  nondecreasing : (readings.map Reading.steadyNow).Pairwise (· ≤ ·)
  fits : ∀ r ∈ readings, Chrono.Fits r.steadyNow

section
variable {m : DeadlockMonitor}

theorem one_event_per_hang {r : Reading} {rs : List Reading}
    (hinterval : m.config.interval * nsPerMs < 9223372036854775808) (h : (m.start r).1 = true)
    (hclock : Clocked (r :: rs)) : OneEventPerHang (m.start r).2 r.steadyNow rs := by
  have hm := tracking_start h
  obtain ⟨htime, hok, hconfig⟩ := lastCheckTime_start h
  have hanswers (rs : List Reading) : detector.answers (m.start r).2 rs =
      (evaluations (m.start r).2 rs).map Evaluation.alive := by
    rw [← Rearming.map_fst_evaluated, evaluated_eq hm, List.map_map]
    rfl
  refine ⟨htime ▸ spaced hm (by rwa [hconfig]) rs (by rw [htime]; exact hclock.nondecreasing), ?_, ?_, ?_, ?_⟩
  · rw [← outputs_eq hm, ← Rearming.filterMap_snd_evaluated, evaluated_eq hm, List.filterMap_map]
    rfl
  · rw [← outputs_eq hm, ← hanswers]
    exact Rearming.length_outputs hok rs
  · intro pre e post heq
    have hmapped : detector.evaluated (m.start r).2 rs =
        pre.map (fun e => (e.alive, e.event)) ++ (e.alive, e.event) ::
          post.map (fun e => (e.alive, e.event)) := by
      rw [evaluated_eq hm, heq, List.map_append, List.map_cons]
    have harmed : detector.armed (m.start r).2 = true := hok
    rw [Rearming.isSome_emitted_iff hmapped, harmed, List.map_map]
    exact and_congr_right' (getLastD_alive pre)
  · intro pre _
    have hlast : ((m.start r).2.runChecks pre).lastCheckOk =
        (detector.answers (m.start r).2 pre).getLastD (m.start r).2.lastCheckOk :=
      Rearming.armed_run (D := detector) (m.start r).2 pre
    rw [hok, hanswers] at hlast
    rw [(hm.runChecks pre).state, hlast, List.getLastD_eq_getLast?, List.getLast?_map]
    cases (evaluations (m.start r).2 pre).getLast? with
    | none => simp
    | some last => cases ha : last.alive <;> simp [ha]

theorem early_check (hinterval : 9223372036854775808 ≤ m.config.interval * nsPerMs) :
    ∃ rs, Clocked ({} :: rs) ∧ ¬ OneEventPerHang (m.start {}).2 0 rs := by
  have hbound := Chrono.fits_int64 (m.config.interval * nsPerMs)
  let r : Reading := { steadyNow := max 0 (Chrono.nanoseconds nsPerMs m.config.interval) }
  have hnow : r.steadyNow = max 0 (Chrono.nanoseconds nsPerMs m.config.interval) := rfl
  have hfits : Chrono.Fits r.steadyNow := by
    unfold Chrono.Fits Chrono.nanoseconds at *
    omega
  have hdue : (m.start {}).2.due r = true := by
    have hstart : (m.start {}).2.lastCheckTime = 0 ∧ (m.start {}).2.config = m.config := ⟨rfl, rfl⟩
    have hyoung : ¬ Chrono.Younger nsPerMs m.config.interval 0 r.steadyNow := by
      rw [Chrono.Younger, Int.sub_zero, Chrono.int64_of_fits hfits]
      omega
    simpa [due, hstart] using hyoung
  refine ⟨[r], ⟨?_, ?_⟩, ?_⟩
  · have hpos : 0 ≤ r.steadyNow := by omega
    simpa using hpos
  · intro s hs
    rcases List.mem_cons.mp hs with rfl | hs
    · decide
    · obtain rfl : s = r := by simpa using hs
      exact hfits
  · intro h
    have hspaced := h.spaced
    have hplatform : (m.start {}).2.platform = true := rfl
    rw [evaluations, hplatform, hdue] at hspaced
    have hle : m.config.interval * nsPerMs ≤ r.steadyNow - 0 := (List.isChain_cons_cons.mp hspaced).1
    have hlt := hfits.2
    omega

end

theorem one_event_per_hang_iff (m : DeadlockMonitor) :
    (∀ r rs, (m.start r).1 = true → Clocked (r :: rs) → OneEventPerHang (m.start r).2 r.steadyNow rs) ↔
      m.config.interval ≤ 9223372036854 := by
  have hfits : m.config.interval ≤ 9223372036854 ↔ m.config.interval * nsPerMs < 9223372036854775808 := by
    unfold nsPerMs
    omega
  rw [hfits]
  constructor
  · intro h
    by_contra hinterval
    obtain ⟨rs, hclock, hearly⟩ := early_check (Int.not_lt.mp hinterval)
    exact hearly (h {} rs rfl hclock)
  · exact fun hinterval r rs h hclock => one_event_per_hang hinterval h hclock

theorem check_before_interval :
    let m := DeadlockMonitor.new "deadlock" { interval := 9223372036855 }
    (m.start {}).1 = true ∧ Clocked [{}, { steadyNow := 1000000000 }] ∧
      ¬ OneEventPerHang (m.start {}).2 0 [{ steadyNow := 1000000000 }] := by
  refine ⟨rfl, ⟨by decide, by decide⟩, ?_⟩
  intro h
  exact absurd (List.isChain_cons_cons.mp h.spaced).1 (by decide)

end DeadlockMonitor

end PlatformHealth
