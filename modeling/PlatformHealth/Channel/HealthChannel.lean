import PlatformHealth.Library.ByteString
import PlatformHealth.Library.TreeMap
import PlatformHealth.Platform

namespace PlatformHealth

open ByteString (cString cString_of_notMem)

abbrev Metrics := Std.ExtTreeMap Bytes ℚ compare

-- key is what the 24 bytes of the slot read as a C string
structure MetricSlot where
  key : Bytes := []
  value : ℚ := 0

structure HealthChannelData where
  aliveCounter : UInt64 := 0
  lastUpdateMs : UInt64 := 0
  metricCount : UInt64 := 0
  metrics : Vector MetricSlot 16 := .replicate 16 {}

structure HealthChannelStatus where
  aliveCounter : UInt64 := 0
  isAlive : Bool := false
  lastCheck : UInt64 := 0

namespace HealthChannel

-- the constructor maps the segment and clears it
def construct (_ : HealthChannelData) : HealthChannelData := {}

variable (d : HealthChannelData)

def report (counter now : UInt64) : HealthChannelData :=
  { d with aliveCounter := counter, lastUpdateMs := now }

def slotOf (entry : Bytes × ℚ) : MetricSlot where
  key := (cString entry.1).take 23
  value := entry.2

def reportMetrics (metrics : Metrics) : HealthChannelData :=
  { d with
    metricCount := UInt64.ofNat (min metrics.size 16)
    metrics := .ofFn fun idx =>
      match metrics.toList[idx.val]? with
      | some entry => slotOf entry
      | none => d.metrics[idx] }

def readSlot (result : Metrics) (slot : MetricSlot) : Metrics :=
  if slot.key = [] then result else result.insert slot.key slot.value

def getMetrics : Metrics :=
  (d.metrics.toList.take (min d.metricCount.toNat 16)).foldl readSlot ∅

def getAliveCounter : UInt64 := d.aliveCounter

-- now - last_update is unsigned, and the comparison makes the timeout unsigned too
def getStatus (timeout : Int) (now : UInt64) : HealthChannelStatus where
  aliveCounter := d.aliveCounter
  isAlive := decide (now - d.lastUpdateMs < UInt64.ofInt timeout)
  lastCheck := now

def isAlive (timeout : Int) (now : UInt64) : Bool := (getStatus d timeout now).isAlive

section
variable {d : HealthChannelData} {m : Metrics}

theorem slots_reportMetrics (d : HealthChannelData) (m : Metrics) :
    (reportMetrics d m).metrics.toList.take (min (reportMetrics d m).metricCount.toNat 16) =
      (m.toList.take 16).map slotOf := by
  have hcount : min (reportMetrics d m).metricCount.toNat 16 = min m.size 16 := by
    have hlt : min m.size 16 < 2 ^ 64 := by omega
    rw [reportMetrics, UInt64.toNat_ofNat_of_lt' hlt]
    omega
  rw [hcount]
  apply List.ext_getElem?
  intro i
  rw [List.getElem?_take, List.getElem?_map, List.getElem?_take]
  have hlength : m.toList.length = m.size := Std.ExtTreeMap.length_toList
  by_cases hi : i < 16
  · cases hentry : m.toList[i]? with
    | none =>
      have hge : m.size ≤ i := by simpa [hlength] using hentry
      rw [if_neg (by omega)]
      simp
    | some entry =>
      have hlt : i < m.size := hlength ▸ (List.getElem?_eq_some_iff.mp hentry).1
      rw [if_pos (by omega), if_pos hi]
      simp [reportMetrics, hi, hentry]
  · rw [if_neg (by omega), if_neg hi]
    rfl

theorem getMetrics_reportMetrics (d : HealthChannelData) (m : Metrics) :
    getMetrics (reportMetrics d m) = ((m.toList.take 16).map slotOf).foldl readSlot ∅ := by
  rw [getMetrics, slots_reportMetrics]

structure Spellable (key : Bytes) : Prop where
  nonempty : key ≠ []
  terminated : 0 ∉ key
  fits : key.length ≤ 23

structure Representable (m : Metrics) : Prop where
  size : m.size ≤ 16
  keys : ∀ k ∈ m, Spellable k

theorem slotOf_of_spellable {entry : Bytes × ℚ} (h : Spellable entry.1) :
    slotOf entry = ⟨entry.1, entry.2⟩ := by
  rw [slotOf, cString_of_notMem h.terminated, List.take_of_length_le h.fits]

theorem spellable_slotOf {entry : Bytes × ℚ} (h : (slotOf entry).key ≠ []) :
    Spellable (slotOf entry).key := by
  refine ⟨h, ?_, ?_⟩
  · intro hzero
    have hmem : (0 : UInt8) ∈ cString entry.1 := List.mem_of_mem_take hzero
    simpa using List.mem_takeWhile_imp hmem
  · exact (List.length_take_le 23 _)

theorem keys_foldl_readSlot {slots : List MetricSlot} {result : Metrics}
    (hslots : ∀ slot ∈ slots, slot.key ≠ [] → Spellable slot.key) (h : ∀ k ∈ result, Spellable k) :
    ∀ k ∈ slots.foldl readSlot result, Spellable k := by
  induction slots generalizing result with
  | nil => exact h
  | cons slot rest ih =>
    refine ih (fun s hs => hslots s (by simp [hs])) ?_
    unfold readSlot
    split
    · exact h
    · next hkey =>
      intro k hk
      rcases Std.ExtTreeMap.mem_insert.mp hk with heq | hold
      · rw [← Std.LawfulEqCmp.eq_of_compare heq]
        exact hslots slot (by simp) hkey
      · exact h k hold

theorem size_foldl_readSlot (slots : List MetricSlot) (result : Metrics) :
    (slots.foldl readSlot result).size ≤ result.size + slots.length := by
  induction slots generalizing result with
  | nil => simp
  | cons slot rest ih =>
    have hone : (readSlot result slot).size ≤ result.size + 1 := by
      unfold readSlot
      split
      · omega
      · exact Std.ExtTreeMap.size_insert_le
    have hrest := ih (readSlot result slot)
    rw [List.foldl_cons, List.length_cons]
    omega

theorem getMetrics_reportMetrics_iff (d : HealthChannelData) (m : Metrics) :
    getMetrics (reportMetrics d m) = m ↔ Representable m := by
  rw [getMetrics_reportMetrics]
  constructor
  · intro heq
    rw [← heq]
    refine ⟨?_, keys_foldl_readSlot ?_ (by simp)⟩
    · have hsize := size_foldl_readSlot ((m.toList.take 16).map slotOf) ∅
      have htake := List.length_take_le 16 m.toList
      rw [Std.ExtTreeMap.size_empty, List.length_map] at hsize
      omega
    · intro slot hslot hkey
      obtain ⟨entry, -, rfl⟩ := List.mem_map.mp hslot
      exact spellable_slotOf hkey
  · intro h
    have hlength : m.toList.length = m.size := Std.ExtTreeMap.length_toList
    rw [List.take_of_length_le (hlength ▸ h.size), List.foldl_map]
    conv_rhs => rw [← TreeMap.ofList_toList m, Std.ExtTreeMap.ofList_eq_foldl]
    refine List.foldl_ext _ _ _ ?_
    rintro result ⟨k, v⟩ hmem
    have hk := h.keys k (Std.ExtTreeMap.mem_iff_isSome_getElem?.mpr
      (by rw [Std.ExtTreeMap.mem_toList_iff_getElem?_eq_some.mp hmem]; rfl))
    rw [slotOf_of_spellable hk, readSlot, if_neg hk.nonempty]

end

end HealthChannel

end PlatformHealth
