import PlatformHealth.Library.Binary64
import PlatformHealth.Monitor

namespace PlatformHealth

structure ChannelView where
  aliveCounter : UInt64 := 0
  isAlive : Bool := false
  metrics : StringMap ℚ := ∅

-- one call of a built-in monitor reads each of these at most once; clocks are in
-- nanoseconds, idCounter is the class's static id counter after the increment
structure Reading where
  created : Bool := true
  steadyNow : Int := 0
  systemNow : Int := 0
  idCounter : Nat := 0
  getProcessId : String → Int := fun _ => -1
  processExists : Int → Bool := fun _ => false
  getCpuUsage : Int → ℚ := fun _ => 0
  getMemoryUsageBytes : Int → UInt64 := fun _ => 0
  getOpenFileCount : Int → UInt32 := fun _ => 0
  checkThreadByName : String → Bool := fun _ => true
  channel : String → ChannelView := fun _ => {}

abbrev Pid := {p : Int // 0 < p}

def Reading.ofCurrent (current : Option Pid) (r : Reading) : Reading :=
  { r with
    created := true
    getProcessId := fun _ => (current.map Subtype.val).getD (-1)
    processExists := fun p => decide (current.map Subtype.val = some p) }

theorem getProcessId_ofCurrent (p : Pid) (r : Reading) (n : String) :
    (Reading.ofCurrent (some p) r).getProcessId n = p.val := rfl

theorem processExists_ofCurrent (o : Option Pid) (r : Reading) (p : Pid) :
    (Reading.ofCurrent o r).processExists p.val = true ↔ o = some p := by
  cases o with
  | none => simp [Reading.ofCurrent]
  | some q => simp [Reading.ofCurrent, Subtype.ext_iff]

def generateId (tag : String) (r : Reading) : String :=
  tag ++ toString r.idCounter ++ "_" ++ toString r.systemNow

theorem generateId_ne_empty {tag : String} (h : tag ≠ "") (r : Reading) : generateId tag r ≠ "" := by
  simp [generateId, h]

def toStringDouble (q : ℚ) : String :=
  let n := (Binary64.nearest ((if q < 0 then -q else q) * 1000000)).toNat
  let frac := toString (n % 1000000)
  (if q < 0 then "-" else "") ++ toString (n / 1000000) ++ "." ++
    String.ofList (List.replicate (6 - frac.length) '0') ++ frac

def nsPerMs : Int := 1000000

end PlatformHealth
