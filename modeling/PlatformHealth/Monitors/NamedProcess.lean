import PlatformHealth.Monitors.CleanSlate
import PlatformHealth.Monitors.HangEpisodes

namespace PlatformHealth

def MonitorConfig.named (cfg : MonitorConfig) : Option String := cfg.params["process_name"]?

theorem getD_named (cfg : MonitorConfig) (name : String) :
    cfg.params.getD "process_name" name = cfg.named.getD name := Std.ExtTreeMap.getD_eq_getD_getElem?

-- the value of the platform's getProcessId, where the call reads one
def PriorCall.lookup : PriorCall → String → Int
  | .start r => r.getProcessId
  | .stop => fun _ => -1
  | .check r => r.getProcessId

namespace BuiltinMonitor

def processName : BuiltinMonitor → String
  | processLifecycle m => m.processName
  | resource m => m.processName
  | _ => ""

def pid : BuiltinMonitor → Int
  | processLifecycle m => m.pid
  | resource m => m.pid
  | _ => -1

def platform : BuiltinMonitor → Bool
  | processLifecycle m => m.platform
  | resource m => m.platform
  | deadlock m => m.platform
  | alive _ => false

structure Traced where
  mon : BuiltinMonitor
  pidName : String := ""

namespace Traced

def looksUp (t : Traced) : PriorCall → Bool
  | .start r => r.created && t.mon.processName != ""
  | .stop => false
  | .check _ => t.mon.platform && decide (t.mon.pid ≤ 0) && t.mon.processName != ""

def call (t : Traced) (c : PriorCall) : Traced where
  mon := t.mon.call c
  pidName := if t.looksUp c then t.mon.processName else t.pidName

def subject (t : Traced) : String := if 0 < t.mon.pid then t.pidName else t.mon.processName

def configure (t : Traced) (cfg : MonitorConfig) : Traced := { t with mon := IMonitor.configure t.mon cfg }

def ReportsOn (cfg : MonitorConfig) (t : Traced) : PriorCall → Prop
  | .check r => returned (IMonitor.check t.mon r) ≠ none → cfg.named = some t.subject
  | _ => True

end Traced

def OnlyNamed (t : Traced) (cfg : MonitorConfig) : Prop :=
  ∀ later : List Reading, Runs.Each Traced.call (Traced.ReportsOn cfg) (t.configure cfg) (later.map .check)

def CanReport : BuiltinMonitor → Prop
  | processLifecycle m => m.platform = true ∧ m.state ≠ .init
  | resource m => m.platform = true ∧ m.processName ≠ ""
  | _ => False

structure Follows (name : String) (t : Traced) : Prop where
  processName : t.mon.processName = name
  pidName : 0 < t.mon.pid → t.pidName = name

def Settled : BuiltinMonitor → Prop
  | processLifecycle m =>
    m.state = .init ∨ m.processName ≠ "" ∧ (m.state = .running ∨ m.state = .error ∧ m.pid ≤ 0)
  | resource m => m.processName = "" → m.pid ≤ 0
  | _ => False

section
variable {mon : BuiltinMonitor} {t : Traced} {name : String} {cfg : MonitorConfig}

theorem processName_slate (mon : BuiltinMonitor) : (slate mon).processName = mon.processName := by
  cases mon <;> rfl

theorem processName_call (mon : BuiltinMonitor) (c : PriorCall) :
    (mon.call c).processName = mon.processName := by
  rw [← processName_slate, slate_call, processName_slate]

theorem pid_call (t : Traced) (c : PriorCall) (h : 0 < (t.call c).mon.pid) :
    (t.call c).mon.pid = if t.looksUp c then c.lookup t.mon.processName else t.mon.pid := by
  obtain ⟨mon, pidName⟩ := t
  cases mon with
  | processLifecycle m =>
    cases c with
    | start r =>
      change 0 < (m.start r).2.pid at h
      change (m.start r).2.pid = if r.created && m.processName != "" then r.getProcessId m.processName else m.pid
      unfold ProcessLifecycleMonitor.start at h ⊢
      grind
    | stop => rfl
    | check r =>
      change 0 < (m.check r).monitor.pid at h
      change (m.check r).monitor.pid =
        if m.platform && decide (m.pid ≤ 0) && m.processName != "" then r.getProcessId m.processName else m.pid
      unfold ProcessLifecycleMonitor.check ProcessLifecycleMonitor.probe at h ⊢
      grind
  | resource m =>
    cases c with
    | start r =>
      change (m.start r).2.pid = if r.created && m.processName != "" then r.getProcessId m.processName else m.pid
      unfold ResourceMonitor.start
      grind
    | stop => rfl
    | check r =>
      change 0 < (m.check r).monitor.pid at h
      change (m.check r).monitor.pid =
        if m.platform && decide (m.pid ≤ 0) && m.processName != "" then r.getProcessId m.processName else m.pid
      unfold ResourceMonitor.check ResourceMonitor.classify ResourceMonitor.sample at h ⊢
      grind
  | deadlock m => cases c <;> exact absurd (show (0 : Int) < -1 from h) (by decide)
  | alive m => cases c <;> exact absurd (show (0 : Int) < -1 from h) (by decide)

theorem Follows.call (h : Follows name t) (c : PriorCall) : Follows name (t.call c) := by
  refine ⟨(processName_call t.mon c).trans h.processName, fun hpid => ?_⟩
  have hcall := pid_call t c hpid
  change (if t.looksUp c then t.mon.processName else t.pidName) = name
  cases hlooks : t.looksUp c with
  | true => exact h.processName
  | false =>
    rw [hcall, hlooks] at hpid
    exact h.pidName hpid

theorem Follows.subject (h : Follows name t) : t.subject = name := by
  unfold Traced.subject
  split_ifs with hpid
  · exact h.pidName hpid
  · exact h.processName

theorem Follows.only {later : List Reading} (h : Follows name t) (hnamed : cfg.named = some name) :
    Runs.Each Traced.call (Traced.ReportsOn cfg) t (later.map .check) := by
  refine Runs.each_of_invariant (I := Follows name) ?_ h (Runs.each_true t _)
  intro t c h _
  refine ⟨?_, h.call c⟩
  cases c with
  | check r => exact fun _ => hnamed.trans (congrArg some h.subject.symm)
  | _ => trivial

theorem Settled.call (h : Settled mon) (c : PriorCall) : Settled (mon.call c) := by
  cases mon with
  | processLifecycle m =>
    cases c with
    | start r =>
      change Settled (processLifecycle (m.start r).2)
      unfold ProcessLifecycleMonitor.start
      grind [Settled]
    | stop => exact .inl rfl
    | check r =>
      change Settled (processLifecycle (m.check r).monitor)
      unfold ProcessLifecycleMonitor.check ProcessLifecycleMonitor.probe
      grind [Settled]
  | resource m =>
    cases c with
    | start r =>
      change Settled (resource (m.start r).2)
      unfold ResourceMonitor.start
      grind [Settled]
    | stop => exact h
    | check r =>
      change Settled (resource (m.check r).monitor)
      unfold ResourceMonitor.check ResourceMonitor.classify ResourceMonitor.sample
      grind [Settled]
  | deadlock m => exact h.elim
  | alive m => exact h.elim

def Silent : BuiltinMonitor → Prop
  | processLifecycle m => m.platform = false ∨ m.state = .init
  | resource m => m.platform = false ∨ m.processName = "" ∧ m.pid ≤ 0
  | _ => False

theorem Silent.check (h : Silent mon) (r : Reading) :
    returned (IMonitor.check mon r) = none ∧ Silent (IMonitor.check mon r).monitor := by
  cases mon with
  | processLifecycle m =>
    change returned (m.check r) = none ∧ Silent (processLifecycle (m.check r).monitor)
    unfold ProcessLifecycleMonitor.check
    grind [Silent, returned]
  | resource m =>
    change returned (m.check r) = none ∧ Silent (resource (m.check r).monitor)
    unfold ResourceMonitor.check
    grind [Silent, returned]
  | deadlock m => exact h.elim
  | alive m => exact h.elim

theorem Silent.only {later : List Reading} (h : Silent t.mon) :
    Runs.Each Traced.call (Traced.ReportsOn cfg) t (later.map .check) := by
  induction later generalizing t with
  | nil => trivial
  | cons r rs ih =>
    obtain ⟨hnone, hnext⟩ := h.check r
    exact ⟨fun hreport => absurd hnone hreport, ih (t := t.call (.check r)) hnext⟩

theorem named_of_report (h : OnlyNamed t cfg) (pre : List Reading) (r : Reading)
    (hreport : returned (IMonitor.check (Runs.run Traced.call (t.configure cfg) (pre.map .check)).mon r) ≠ none) :
    cfg.named = some (Runs.run Traced.call (t.configure cfg) (pre.map .check)).subject := by
  have hsplit : (pre ++ [r]).map PriorCall.check = pre.map .check ++ .check r :: [] := by simp
  exact (Runs.each_iff_split _ _).mp (h (pre ++ [r])) _ _ _ hsplit hreport

def present : Reading := { getProcessId := fun _ => 1, processExists := fun _ => true }

def deserted : Reading := {}

theorem returned_deserted_processLifecycle {m : ProcessLifecycleMonitor} (hplatform : m.platform = true)
    (hstate : m.state = .running) : returned (IMonitor.check (processLifecycle m) deserted) ≠ none := by
  have hid : generateId "phm_mon_proc_" deserted ≠ "" := generateId_ne_empty (by decide) _
  have hlost : (m.probe deserted).2 = false := by
    unfold ProcessLifecycleMonitor.probe
    split_ifs <;> rfl
  change returned (m.check deserted) ≠ none
  simp [ProcessLifecycleMonitor.check, hplatform, hstate, hlost, returned, ProcessLifecycleMonitor.exitEvent, hid]

theorem returned_deserted_resource {m : ResourceMonitor} (hplatform : m.platform = true)
    (hpid : 0 < m.pid) : returned (IMonitor.check (resource m) deserted) ≠ none := by
  have hid : generateId "phm_mon_res_" deserted ≠ "" := generateId_ne_empty (by decide) _
  have hpid : ¬ m.pid ≤ 0 := Int.not_le.mpr hpid
  change returned (m.check deserted) ≠ none
  simp [ResourceMonitor.check, hplatform, hpid, deserted, returned, ResourceMonitor.lostEvent]
  exact hid

def FollowsNamed (cfg : MonitorConfig) (mon : BuiltinMonitor) : Prop :=
  CanReport mon → cfg.named = some mon.processName ∨ mon.pid ≤ 0 ∧ cfg.named ≠ none

theorem processName_configure (h : Settled mon) (cfg : MonitorConfig) :
    (IMonitor.configure mon cfg : BuiltinMonitor).processName = cfg.named.getD mon.processName := by
  cases mon with
  | processLifecycle m => exact getD_named cfg m.processName
  | resource m => exact getD_named cfg m.processName
  | deadlock m => exact h.elim
  | alive m => exact h.elim

theorem pid_configure (mon : BuiltinMonitor) (cfg : MonitorConfig) :
    (IMonitor.configure mon cfg : BuiltinMonitor).pid = mon.pid := by
  cases mon <;> rfl

theorem Follows.configure (h : Follows name t) (hsettled : Settled t.mon) {new : String}
    (hnamed : cfg.named = some new) (hkept : name = new ∨ t.mon.pid ≤ 0) :
    Follows new (t.configure cfg) := by
  refine ⟨?_, fun hpid => ?_⟩
  · rw [Traced.configure, processName_configure hsettled, hnamed]
    rfl
  · rw [Traced.configure, pid_configure] at hpid
    rcases hkept with rfl | hwaits
    · exact h.pidName hpid
    · exact absurd hwaits (Int.not_le.mpr hpid)

theorem silent_configure (hsettled : Settled mon) (hcan : ¬ CanReport mon)
    (hnamed : cfg.named = none ∨ 0 < mon.pid) : Silent (IMonitor.configure mon cfg) := by
  cases mon with
  | processLifecycle m =>
    change m.platform = false ∨ m.state = .init
    rw [CanReport, not_and_not_right] at hcan
    cases hplatform : m.platform with
    | false => exact .inl rfl
    | true => exact .inr (hcan hplatform)
  | resource m =>
    change m.platform = false ∨ cfg.params.getD "process_name" m.processName = "" ∧ m.pid ≤ 0
    rw [CanReport, not_and_not_right] at hcan
    cases hplatform : m.platform with
    | false => exact .inl rfl
    | true =>
      have hname := hcan hplatform
      have hpid : m.pid ≤ 0 := hsettled hname
      have hnone : cfg.named = none := hnamed.resolve_right (Int.not_lt.mpr hpid)
      refine .inr ⟨?_, hpid⟩
      rw [getD_named, hnone]
      exact hname
  | deadlock m => exact hsettled.elim
  | alive m => exact hsettled.elim

theorem onlyNamed_of_followsNamed (hfollows : Follows name t) (hsettled : Settled t.mon)
    (h : FollowsNamed cfg t.mon) : OnlyNamed t cfg := by
  intro later
  by_cases hcan : CanReport t.mon
  · rcases h hcan with hnamed | ⟨hpid, hsome⟩
    · exact (hfollows.configure hsettled hnamed (.inl hfollows.processName.symm)).only hnamed
    · obtain ⟨new, hnamed⟩ := Option.ne_none_iff_exists'.mp hsome
      exact (hfollows.configure hsettled hnamed (.inr hpid)).only hnamed
  · cases hnamed : cfg.named with
    | none => exact (silent_configure hsettled hcan (.inl hnamed)).only
    | some new =>
      rcases Int.lt_or_le 0 t.mon.pid with hpid | hpid
      · exact (silent_configure hsettled hcan (.inr hpid)).only
      · exact (hfollows.configure hsettled hnamed (.inr hpid)).only hnamed

theorem check_present_processLifecycle {m : ProcessLifecycleMonitor} (hplatform : m.platform = true)
    (hstate : m.state = .error) (hpid : m.pid ≤ 0) (hname : m.processName ≠ "") :
    (m.check present).monitor = { m with state := .running, pid := 1 } := by
  have hprobe : m.probe present = (1, true) := by
    rw [ProcessLifecycleMonitor.probe, if_neg (Int.not_lt.mpr hpid), if_neg hname]
    rfl
  simp [ProcessLifecycleMonitor.check, hplatform, hstate, hprobe]

theorem check_present_resource {m : ResourceMonitor} (hplatform : m.platform = true) (hpid : m.pid ≤ 0)
    (hname : m.processName ≠ "") : (m.check present).monitor = { m with pid := 1 } := by
  simp [ResourceMonitor.check, hplatform, hpid, hname, present]

theorem followsNamed_of_onlyNamed (hfollows : Follows name t) (hsettled : Settled t.mon)
    (h : OnlyNamed t cfg) : FollowsNamed cfg t.mon := by
  intro hcan
  -- a process that is gone is reported at once; one not found yet, after it was there for one check()
  have hlost (hnow : returned (IMonitor.check (IMonitor.configure t.mon cfg) deserted) ≠ none) :
      cfg.named = some (t.configure cfg).subject := named_of_report h [] deserted hnow
  have hfound (hnext : returned (IMonitor.check
      (IMonitor.check (IMonitor.configure t.mon cfg) present).monitor deserted) ≠ none) : cfg.named ≠ none := by
    rw [named_of_report h [present] deserted hnext]
    exact Option.some_ne_none _
  have hsubject (hpid : 0 < t.mon.pid) : (t.configure cfg).subject = t.mon.processName := by
    rw [hfollows.processName, ← hfollows.pidName hpid, Traced.subject, Traced.configure, pid_configure, if_pos hpid]
  obtain ⟨mon, pidName⟩ := t
  cases mon with
  | processLifecycle m =>
    obtain ⟨hplatform, hstate⟩ := hcan
    rcases hsettled with hinit | ⟨hname, hrunning | ⟨herror, hpid⟩⟩
    · exact absurd hinit hstate
    · have hnow := hlost (returned_deserted_processLifecycle hplatform hrunning)
      rcases Int.lt_or_le 0 m.pid with hpid | hpid
      · exact .inl (hnow.trans (congrArg some (hsubject hpid)))
      · exact .inr ⟨hpid, hnow ▸ Option.some_ne_none _⟩
    · refine .inr ⟨hpid, fun hnone => hfound ?_ hnone⟩
      have hkept : (m.configure cfg).processName ≠ "" := by
        rwa [ProcessLifecycleMonitor.configure, getD_named, hnone]
      have hback := check_present_processLifecycle (m := m.configure cfg) hplatform herror hpid hkept
      change returned (IMonitor.check (processLifecycle ((m.configure cfg).check present).monitor) deserted) ≠ none
      rw [hback]
      exact returned_deserted_processLifecycle hplatform rfl
  | resource m =>
    obtain ⟨hplatform, hname⟩ := hcan
    rcases Int.lt_or_le 0 m.pid with hpid | hpid
    · have hnow := hlost (returned_deserted_resource hplatform hpid)
      exact .inl (hnow.trans (congrArg some (hsubject hpid)))
    · refine .inr ⟨hpid, fun hnone => hfound ?_ hnone⟩
      have hkept : (m.configure cfg).processName ≠ "" := by
        rwa [ResourceMonitor.configure, getD_named, hnone]
      have hback := check_present_resource (m := m.configure cfg) hplatform hpid hkept
      change returned (IMonitor.check (resource ((m.configure cfg).check present).monitor) deserted) ≠ none
      rw [hback]
      exact returned_deserted_resource hplatform (show (0 : Int) < 1 by decide)
  | deadlock m => exact hcan.elim
  | alive m => exact hcan.elim

end

end BuiltinMonitor

end PlatformHealth
