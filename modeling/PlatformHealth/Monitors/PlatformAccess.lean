import PlatformHealth.Library.Runs
import PlatformHealth.Monitors.Builtin

namespace PlatformHealth

inductive MonitorUse (ε : Type) where
  | start (r : ε)
  | stop
  | reset
  | configure (cfg : MonitorConfig)
  | check (r : ε)
  | collectMetrics

section
variable {μ ε : Type} [IMonitor μ ε]

def invoke (mon : μ) : MonitorUse ε → Except CheckFault μ
  | .start r => .ok (IMonitor.start mon r).2
  | .stop => .ok (IMonitor.stop mon)
  | .reset => .ok (IMonitor.reset mon)
  | .configure cfg => .ok (IMonitor.configure mon cfg)
  | .check r => do
    let _ ← (IMonitor.check mon r).outcome
    return (IMonitor.check mon r).monitor
  | .collectMetrics => .ok mon

def invokeAll (mon : μ) (calls : List (MonitorUse ε)) : Except CheckFault μ := calls.foldlM invoke mon

end

inductive PlatformUser where
  | processLifecycle
  | resource
  | deadlock
deriving DecidableEq, Repr

def PlatformUser.new (user : PlatformUser) (name : String) (cfg : MonitorConfig) : BuiltinMonitor :=
  match user with
  | .processLifecycle => .processLifecycle (.new name cfg)
  | .resource => .resource (.new name cfg)
  | .deadlock => .deadlock (.new name cfg)

structure PlatformAccess where
  present : Bool := false
  processName : String

namespace PlatformAccess

def track (a : PlatformAccess) : MonitorUse Reading → PlatformAccess
  | .start r => { a with present := r.created }
  | .stop => { a with present := false }
  | .configure cfg => { a with processName := cfg.params.getD "process_name" a.processName }
  | _ => a

def Shielded (a : PlatformAccess) : MonitorUse Reading → Prop
  | .check _ => a.present = true ∨ a.processName = ""
  | _ => True

def trackAny (o : Option PlatformAccess) (c : MonitorUse Reading) : Option PlatformAccess :=
  o.map (·.track c)

def ShieldedAny (o : Option PlatformAccess) (c : MonitorUse Reading) : Prop := ∀ a ∈ o, a.Shielded c

-- the other monitors return at once when the platform is absent
def of : BuiltinMonitor → Option PlatformAccess
  | .resource m => some ⟨m.platform, m.processName⟩
  | _ => none

section
variable {m : ResourceMonitor} {mon : BuiltinMonitor} {r : Reading} {c : MonitorUse Reading}

theorem check_of_absent (hplatform : m.platform = false) (hname : m.processName ≠ "") :
    (m.check r).outcome = .error .nullPlatform := by
  simp [ResourceMonitor.check, hplatform, hname]

theorem check_of_shielded (h : m.platform = true ∨ m.processName = "") (fault : CheckFault) :
    (m.check r).outcome ≠ .error fault := by
  unfold ResourceMonitor.check ResourceMonitor.classify
  grind

theorem access_check (m : ResourceMonitor) (r : Reading) :
    (m.check r).monitor.platform = m.platform ∧ (m.check r).monitor.processName = m.processName := by
  unfold ResourceMonitor.check ResourceMonitor.classify ResourceMonitor.sample
  grind

theorem access_start (m : ResourceMonitor) (r : Reading) :
    (m.start r).2.platform = r.created ∧ (m.start r).2.processName = m.processName := by
  unfold ResourceMonitor.start
  grind

theorem outcome_of_guarded (h : of mon = none) (r : Reading) (fault : CheckFault) :
    (IMonitor.check mon r).outcome ≠ .error fault := by
  cases mon with
  | processLifecycle m =>
    change (m.check r).outcome ≠ .error fault
    unfold ProcessLifecycleMonitor.check
    grind
  | resource m => cases h
  | deadlock m =>
    change (m.check r).outcome ≠ .error fault
    unfold DeadlockMonitor.check
    grind
  | alive m =>
    change (m.check r).outcome ≠ .error fault
    unfold AliveMonitor.check
    grind

theorem outcome_of_shielded (h : ShieldedAny (of mon) (.check r)) (fault : CheckFault) :
    (IMonitor.check mon r).outcome ≠ .error fault := by
  cases mon with
  | resource m => exact check_of_shielded (h _ rfl) fault
  | _ => exact outcome_of_guarded rfl r fault

theorem of_check (mon : BuiltinMonitor) (r : Reading) : of (IMonitor.check mon r).monitor = of mon := by
  cases mon with
  | resource m =>
    obtain ⟨hplatform, hname⟩ := access_check m r
    change some (PlatformAccess.mk (m.check r).monitor.platform (m.check r).monitor.processName) = _
    rw [hplatform, hname]
    rfl
  | _ => rfl

theorem invoke_of_shielded (mon : BuiltinMonitor) (c : MonitorUse Reading)
    (h : ShieldedAny (of mon) c) :
    ∃ next, invoke mon c = .ok next ∧ of next = trackAny (of mon) c := by
  cases c with
  | check r =>
    refine ⟨(IMonitor.check mon r).monitor, ?_, ?_⟩
    · cases hout : (IMonitor.check mon r).outcome with
      | error fault => exact absurd hout (outcome_of_shielded h fault)
      | ok evt => rw [invoke, hout]; rfl
    · rw [of_check]
      cases of mon <;> rfl
  | start r =>
    refine ⟨_, rfl, ?_⟩
    cases mon with
    | resource m =>
      obtain ⟨hplatform, hname⟩ := access_start m r
      change some (PlatformAccess.mk (m.start r).2.platform (m.start r).2.processName) = _
      rw [hplatform, hname]
      rfl
    | _ => rfl
  | _ => exact ⟨_, rfl, by cases mon <;> rfl⟩

theorem invoke_of_exposed (mon : BuiltinMonitor) (c : MonitorUse Reading)
    (h : ¬ ShieldedAny (of mon) c) : invoke mon c = .error .nullPlatform := by
  cases mon with
  | resource m =>
    cases c with
    | check r =>
      obtain ⟨hplatform, hname⟩ : m.platform = false ∧ m.processName ≠ "" := by
        simpa [ShieldedAny, Shielded, of] using h
      have habsent : (IMonitor.check (BuiltinMonitor.resource m) r).outcome = .error .nullPlatform :=
        check_of_absent hplatform hname
      rw [invoke, habsent]
      rfl
    | _ => exact absurd (fun _ _ => trivial) h
  | _ => exact absurd (by rintro _ ⟨⟩) h

end

theorem invokeAll_ne_null_iff (mon : BuiltinMonitor) (calls : List (MonitorUse Reading)) :
    invokeAll mon calls ≠ .error .nullPlatform ↔
      Runs.Each trackAny ShieldedAny (of mon) calls :=
  Runs.foldlM_ne_fault_iff of invoke_of_shielded invoke_of_exposed mon calls

theorem each_none (calls : List (MonitorUse Reading)) :
    Runs.Each trackAny ShieldedAny none calls :=
  Runs.each_of_invariant (I := (· = none)) (by rintro _ c rfl -; exact ⟨by rintro _ ⟨⟩, rfl⟩) rfl
    (Runs.each_true _ _)

theorem each_some (a : PlatformAccess) (calls : List (MonitorUse Reading)) :
    Runs.Each trackAny ShieldedAny (some a) calls ↔
      ∀ pre r post, calls = pre ++ .check r :: post →
        (Runs.run track a pre).present = true ∨ (Runs.run track a pre).processName = "" := by
  have hview : Runs.Each track Shielded a calls ↔
      Runs.Each trackAny ShieldedAny (some a) (calls.map id) :=
    Runs.each_iff_of_view (I := fun _ => True) (R := fun _ => True) some id
      (fun _ _ _ _ => trivial) (fun _ _ _ _ => rfl) (fun _ _ _ _ => by simp [ShieldedAny]) trivial
      fun _ _ => trivial
  rw [List.map_id] at hview
  rw [← hview, Runs.each_iff_split]
  constructor
  · intro h pre r post heq
    exact h pre (.check r) post heq
  · intro h pre c post heq
    cases c with
    | check r => exact h pre r post heq
    | _ => trivial

end PlatformAccess

namespace PlatformUser

open PlatformAccess

theorem check_never_null_iff (user : PlatformUser) (name : String) (cfg : MonitorConfig)
    (calls : List (MonitorUse Reading)) :
    invokeAll (user.new name cfg) calls ≠ .error .nullPlatform ↔
      (user = .resource → ∀ pre r post, calls = pre ++ .check r :: post →
        let a := Runs.run track { processName := cfg.params.getD "process_name" "" } pre
        a.present = true ∨ a.processName = "") := by
  rw [invokeAll_ne_null_iff]
  cases user with
  | processLifecycle => exact iff_of_true (each_none calls) (by rintro ⟨⟩)
  | deadlock => exact iff_of_true (each_none calls) (by rintro ⟨⟩)
  | resource =>
    rw [forall_prop_of_true rfl]
    exact each_some _ calls

theorem check_before_start_dereferences_null :
    let cfg : MonitorConfig := { params := StringMap.empty.insert "process_name" "worker" }
    invokeAll (resource.new "cpu" cfg) [.check {}] = .error .nullPlatform := by
  intro cfg
  exact invoke_of_exposed (resource.new "cpu" cfg) (.check {}) fun h => by
    have hname : cfg.params.getD "process_name" "" ≠ "" := by simp [cfg]
    rcases h _ rfl with hplatform | hempty
    · cases hplatform
    · exact hname hempty

end PlatformUser

end PlatformHealth
