import PlatformHealth.Channel.HealthChannel
import PlatformHealth.Library.Runs
import Mathlib.Algebra.Group.Nat.Defs
import Mathlib.Algebra.Ring.Int.Defs
import Mathlib.Data.List.Induction

namespace PlatformHealth

inductive SupplierCall where
  | report (counter now : UInt64)
  | reportMetrics (metrics : Metrics)

namespace SupplierCall

def time? : SupplierCall → Option UInt64
  | report _ now => some now
  | reportMetrics _ => none

def metrics? : SupplierCall → Option Metrics
  | report _ _ => none
  | reportMetrics metrics => some metrics

end SupplierCall

namespace HealthChannel

def serve (d : HealthChannelData) : SupplierCall → HealthChannelData
  | .report counter now => report d counter now
  | .reportMetrics metrics => reportMetrics d metrics

def reportTimes (calls : List SupplierCall) : List UInt64 := calls.filterMap (·.time?)

def reportedMetrics (calls : List SupplierCall) : List Metrics := calls.filterMap (·.metrics?)

def RecentlyReported (timeout : Int) (times : List UInt64) (now : UInt64) : Prop :=
  ∃ last, times.getLast? = some last ∧ (now.toNat - last.toNat : Int) < timeout

structure Documented (m : Metrics) : Prop where
  size : m.size ≤ 16
  keys : ∀ k ∈ m, k ≠ [] ∧ 0 ∉ k ∧ k.length ≤ 24

section
variable {d : HealthChannelData} {calls : List SupplierCall} {timeout : Int} {now last : UInt64}
  {m : Metrics}

theorem reportTimes_report (counter now : UInt64) (rest : List SupplierCall) :
    reportTimes (.report counter now :: rest) = now :: reportTimes rest := rfl

theorem reportTimes_reportMetrics (metrics : Metrics) (rest : List SupplierCall) :
    reportTimes (.reportMetrics metrics :: rest) = reportTimes rest := rfl

theorem lastUpdate_run (d : HealthChannelData) (calls : List SupplierCall) :
    (Runs.run serve d calls).lastUpdateMs = (reportTimes calls).getLastD d.lastUpdateMs := by
  induction calls generalizing d with
  | nil => rfl
  | cons c rest ih =>
    rw [Runs.run_cons, ih]
    cases c with
    | report counter now => rw [reportTimes_report, List.getLastD_cons, serve, report]
    | reportMetrics metrics => rw [reportTimes_reportMetrics, serve, reportMetrics]

theorem getMetrics_run (h : (reportedMetrics calls).getLast? = some m) :
    ∃ d', getMetrics (Runs.run serve d calls) = getMetrics (reportMetrics d' m) := by
  induction calls using List.reverseRecOn with
  | nil => cases h
  | append_singleton before c ih =>
    rw [Runs.run_append]
    cases c with
    | report counter now =>
      have hbefore : (reportedMetrics before).getLast? = some m := by
        simpa [reportedMetrics, SupplierCall.metrics?] using h
      exact ih hbefore
    | reportMetrics metrics =>
      have hlast : metrics = m := by simpa [reportedMetrics, SupplierCall.metrics?] using h
      exact ⟨Runs.run serve d before, by rw [← hlast]; rfl⟩

theorem toNat_ofTimeout (hlow : -2 ^ 63 ≤ timeout) (hhigh : timeout < 2 ^ 63) :
    (UInt64.ofInt timeout).toNat = if 0 ≤ timeout then timeout.toNat else (timeout + 2 ^ 64).toNat := by
  rw [UInt64.ofInt, UInt64.toNat_ofNat']
  split <;> omega

theorem isAlive_iff (hlow : -2 ^ 63 ≤ timeout) (hhigh : timeout < 2 ^ 63) (hlast : d.lastUpdateMs ≤ now)
    (hclock : now.toNat < 2 ^ 63) :
    isAlive d timeout now = true ↔
      timeout < 0 ∨ (now.toNat - d.lastUpdateMs.toNat : Int) < timeout := by
  have hle : d.lastUpdateMs.toNat ≤ now.toNat := UInt64.le_iff_toNat_le.mp hlast
  rw [isAlive, getStatus, decide_eq_true_iff, UInt64.lt_iff_toNat_lt, UInt64.toNat_sub_of_le _ _ hlast,
    toNat_ofTimeout hlow hhigh]
  split <;> omega

theorem le_now_of_getLast? (hordered : (reportTimes calls ++ [now]).Pairwise (· ≤ ·))
    (h : (reportTimes calls).getLast? = some last) : last ≤ now :=
  (List.pairwise_append.mp hordered).2.2 last (List.mem_of_getLast? h) now (by simp)

end

theorem isAlive_recent_iff (timeout : Int32) (calls : List SupplierCall) (now : UInt64)
    (hordered : (reportTimes calls ++ [now]).Pairwise (· ≤ ·)) (hclock : now.toNat < 2 ^ 63) :
    (isAlive (Runs.run serve {} calls) timeout.toInt now = true ↔
        RecentlyReported timeout.toInt (reportTimes calls) now) ↔
      0 ≤ timeout.toInt ∧ (reportTimes calls = [] → timeout.toInt ≤ now.toNat) := by
  have hupdate := lastUpdate_run {} calls
  have hlow : -2 ^ 63 ≤ timeout.toInt := le_trans (by decide) timeout.le_toInt
  have hhigh : timeout.toInt < 2 ^ 63 := lt_of_lt_of_le timeout.toInt_lt (by decide)
  cases hlast : (reportTimes calls).getLast? with
  | none =>
    have hnever : reportTimes calls = [] := List.getLast?_eq_none_iff.mp hlast
    have hzero : (Runs.run serve {} calls).lastUpdateMs = 0 := by rw [hupdate, hnever]; rfl
    rw [isAlive_iff hlow hhigh (by rw [hzero]; exact UInt64.zero_le) hclock, hzero]
    simp only [RecentlyReported, hnever]
    simp
  | some last =>
    have hsome : reportTimes calls ≠ [] := by
      intro hnever
      rw [hnever] at hlast
      cases hlast
    have hreported : (Runs.run serve {} calls).lastUpdateMs = last := by
      rw [hupdate, List.getLastD_eq_getLast?, hlast]
      rfl
    have hle : last ≤ now := le_now_of_getLast? hordered hlast
    have hnat : last.toNat ≤ now.toNat := UInt64.le_iff_toNat_le.mp hle
    rw [isAlive_iff hlow hhigh (hreported ▸ hle) hclock, hreported]
    simp only [RecentlyReported, hlast, hsome]
    simp
    omega

theorem report_keeps_alive :
    let calls : List SupplierCall := [.report 1 60000, .reportMetrics ∅, .report 2 61000]
    isAlive (Runs.run serve {} calls) (5000 : Int32).toInt 65999 = true ↔
      RecentlyReported (5000 : Int32).toInt [60000, 61000] 65999 := by
  intro calls
  exact (isAlive_recent_iff 5000 calls 65999 (by decide) (by decide)).mpr ⟨by decide, by decide⟩

theorem alive_without_report :
    (isAlive (Runs.run serve {} []) (5000 : Int32).toInt 100 = true ∧
        ¬ RecentlyReported (5000 : Int32).toInt [] 100) ∧
      isAlive (Runs.run serve {} [.report 1 60000]) (-1 : Int32).toInt 90000 = true ∧
        ¬ RecentlyReported (-1 : Int32).toInt [60000] 90000 := by
  refine ⟨⟨by decide, ?_⟩, by decide, ?_⟩
  · rintro ⟨last, hlast, -⟩
    cases hlast
  · rintro ⟨last, hlast, hlt⟩
    cases hlast
    exact absurd hlt (by decide)

section
variable {m : Metrics}

theorem representable_iff_of_documented (h : Documented m) :
    Representable m ↔ ∀ k ∈ m, k.length ≤ 23 := by
  constructor
  · intro hrep k hk
    exact (hrep.keys k hk).fits
  · intro hshort
    exact ⟨h.size, fun k hk => ⟨(h.keys k hk).1, (h.keys k hk).2.1, hshort k hk⟩⟩

end

theorem getMetrics_last_iff (d : HealthChannelData) (calls : List SupplierCall) (m : Metrics)
    (hlast : (reportedMetrics calls).getLast? = some m) (hdoc : Documented m) :
    getMetrics (Runs.run serve d calls) = m ↔ ∀ k ∈ m, k.length ≤ 23 := by
  obtain ⟨d', hd'⟩ := getMetrics_run (d := d) hlast
  rw [hd', getMetrics_reportMetrics_iff, representable_iff_of_documented hdoc]

theorem smaller_map_replaces_larger :
    let cpu : Bytes := [0x63, 0x70, 0x75]
    let rss : Bytes := [0x72, 0x73, 0x73]
    let both : Metrics := ((∅ : Metrics).insert cpu 40).insert rss 7
    let one : Metrics := (∅ : Metrics).insert cpu 3
    getMetrics (Runs.run serve {} [.reportMetrics both, .report 1 5, .reportMetrics one]) = one := by
  intro cpu rss both one
  have hkey : ∀ k ∈ one, k = cpu := fun k hk => Eq.symm (by simpa [one] using hk)
  have hdoc : Documented one := by
    refine ⟨by simp [one, Std.ExtTreeMap.size_insert], fun k hk => ?_⟩
    rw [hkey k hk]
    decide
  refine (getMetrics_last_iff {} [.reportMetrics both, .report 1 5, .reportMetrics one] one rfl hdoc).mpr ?_
  intro k hk
  rw [hkey k hk]
  decide

theorem key_of_24_bytes_cut :
    let key : Bytes := List.replicate 24 0x61
    let m : Metrics := (∅ : Metrics).insert key 1
    Documented m ∧ getMetrics (Runs.run serve {} [.reportMetrics m]) ≠ m := by
  intro key m
  refine ⟨⟨by simp [m, Std.ExtTreeMap.size_insert], ?_⟩, ?_⟩
  · intro k hk
    obtain rfl : key = k := by simpa [m] using hk
    decide
  · intro h
    have hfits := (((getMetrics_reportMetrics_iff {} m).mp h).keys key (by simp [m])).fits
    exact absurd hfits (by decide)

end HealthChannel

end PlatformHealth
