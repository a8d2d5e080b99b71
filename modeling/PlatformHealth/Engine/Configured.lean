import PlatformHealth.Engine.Steps
import PlatformHealth.Monitors.Builtin

namespace PlatformHealth

open LockDiscipline

abbrev MonitorFactoryFunc (μ : Type) := String → MonitorConfig → Option μ

abbrev FactoryRegistry (μ : Type) := MonitorType → Option (MonitorFactoryFunc μ)

namespace MonitorFactory

variable {μ : Type}

def registerFactory (type : MonitorType) (factory : MonitorFactoryFunc μ)
    (registry : FactoryRegistry μ) : FactoryRegistry μ :=
  Function.update registry type (some factory)

def create (registry : FactoryRegistry μ) (type : MonitorType) (name : String) (cfg : MonitorConfig) :
    Option μ :=
  (registry type).bind fun factory => factory name cfg

def registeredTypes (registry : FactoryRegistry μ) : List MonitorType :=
  [.processLifecycle, .resource, .deadlock, .alive, .custom].filter fun type =>
    (registry type).isSome

def builtin : FactoryRegistry BuiltinMonitor :=
  registerFactory .processLifecycle (fun name cfg => some (.processLifecycle (.new name cfg))) <|
  registerFactory .resource (fun name cfg => some (.resource (.new name cfg))) <|
  registerFactory .deadlock (fun name cfg => some (.deadlock (.new name cfg))) <|
  registerFactory .alive (fun name cfg => some (.alive (.new name cfg))) fun _ => none

end MonitorFactory

structure ChannelAccess (μ ε : Type) where
  channel : μ → Option String
  view : ε → String → ChannelView

namespace BuiltinMonitor

def channelAccess : ChannelAccess BuiltinMonitor Reading where
  channel
    | processLifecycle _ => none
    | resource m => m.healthChannel
    | deadlock m => m.healthChannel
    | alive m => m.healthChannel
  view r c := r.channel c

end BuiltinMonitor

def readsChannel : MonitorType → Bool
  | .resource | .deadlock | .alive => true
  | .processLifecycle | .custom => false

namespace SupervisedEntity

variable {μ ε : Type} [IMonitor μ ε]

structure Watches (access : ChannelAccess μ ε) (se : SupervisedEntity μ) (mc : MonitorConfig) (mon : μ) :
    Prop where
  registered : mon ∈ se.monitors
  type : IMonitor.getType mon = mc.type
  config : IMonitor.getConfig mon = mc
  channel : readsChannel mc.type = true → access.channel mon = some se.healthChannel.name

def Frozen (access : ChannelAccess μ ε) (channel : String) (prev next : Nat → ε) : Prop :=
  ∀ i j, (access.view (prev i) channel).aliveCounter = (access.view (next j) channel).aliveCounter

def DetectsFreeze (access : ChannelAccess μ ε) (se : SupervisedEntity μ) : Prop :=
  ∀ (started : Nat → ε) (ticks : List (Nat → ε)) (prev next : Nat → ε),
    Frozen access se.healthChannel.name prev next →
      ∃ i mon evt, (Runs.run apply se
          (.start started :: ((ticks ++ [prev]).map .checkAll))).monitors[i]? = some mon ∧
        IMonitor.getType mon = .alive ∧ (IMonitor.check mon (next i)).outcome = .ok evt ∧ evt.id ≠ ""

end SupervisedEntity

namespace PhmEngine

open MonitorFactory

variable {μ ε : Type} [IMonitor μ ε]

structure Configured (registry : FactoryRegistry μ) (access : ChannelAccess μ ε) (result : ParseResult)
    (e : PhmEngine μ) : Prop where
  watched : ∀ cfg ∈ result.entities, ∀ mc ∈ cfg.monitors, mc.enabled = true →
    mc.type ∈ registeredTypes registry →
      ∃ se, e.named cfg.name = some se ∧ ∃ mon, se.Watches access mc mon
  detects : ∀ cfg ∈ result.entities, ∀ mc ∈ cfg.monitors, mc.enabled = true → mc.type = .alive →
    .alive ∈ registeredTypes registry →
      ∃ se, e.named cfg.name = some se ∧ se.DetectsFreeze access

def Unwatched (e : PhmEngine μ) : Prop := ∀ se ∈ e.objects, se.monitors = []

section
variable {e : PhmEngine μ}

theorem Unwatched.append (h : e.Unwatched) {se : SupervisedEntity μ} (hse : se.monitors = []) :
    Unwatched { e with objects := e.objects ++ [se] } := by
  intro t ht
  rcases List.mem_append.mp ht with hold | hnew
  · exact h t hold
  · obtain rfl := List.mem_singleton.mp hnew
    exact hse

theorem Unwatched.store (h : e.Unwatched) {ref : Nat} {se : SupervisedEntity μ}
    (hse : se.monitors = []) : (e.store ref se).Unwatched := by
  intro t ht
  rcases List.mem_or_eq_of_mem_set ht with hold | rfl
  · exact h t hold
  · exact hse

theorem unwatched_added (h : e.Unwatched) (cfg : SEConfig) : (e.added cfg).Unwatched := by
  unfold added
  split
  · exact h
  · exact h.append rfl

theorem unwatched_enrolled (h : e.Unwatched) (ref : Nat) : (e.enrolled ref).Unwatched := by
  unfold enrolled
  split
  · exact h
  · next se hse =>
    split
    · exact h
    · exact h.store (h se (List.mem_of_getElem? hse))

theorem unwatched_loaded (h : e.Unwatched) (path : String) (result : ParseResult) :
    (e.loaded path result).Unwatched :=
  Runs.run_invariant (P := Unwatched) (fun _ cfg h => unwatched_added h cfg)
    (s := { e with config := result.global }) h result.entities

theorem Unwatched.monitors_named (h : e.Unwatched) {name : String} {se : SupervisedEntity μ}
    (hse : e.named name = some se) : se.monitors = [] := by
  obtain ⟨ref, -, hobj⟩ := Option.bind_eq_some_iff.mp hse
  exact h se (List.mem_of_getElem? hobj)

end

theorem configured_iff (registry : FactoryRegistry μ) (access : ChannelAccess μ ε) (c : PhmConfig)
    (path : String) (result : ParseResult) :
    ∃ e : PhmEngine μ, loadConfiguration path (.ok result) (new c) = .ok (true, e) ∧
      (Configured registry access result e ↔
        ∀ cfg ∈ result.entities, ∀ mc ∈ cfg.monitors, mc.enabled = true →
          mc.type ∉ registeredTypes registry) := by
  have hnew : (new c : PhmEngine μ).Unwatched := by simp [Unwatched, new]
  refine ⟨_, loadConfiguration_eq rfl path result, ?_, ?_⟩
  · intro h cfg hcfg mc hmc henabled htype
    obtain ⟨se, hse, mon, hmon⟩ := h.watched cfg hcfg mc hmc henabled htype
    have hnone := (unwatched_loaded hnew path result).monitors_named hse
    have hmem := hmon.registered
    rw [hnone] at hmem
    exact List.not_mem_nil hmem
  · intro h
    refine ⟨?_, ?_⟩
    · intro cfg hcfg mc hmc henabled htype
      exact absurd htype (h cfg hcfg mc hmc henabled)
    · intro cfg hcfg mc hmc henabled halive htype
      exact absurd (halive ▸ htype) (h cfg hcfg mc hmc henabled)

theorem alive_monitor_unwatched :
    let result : ParseResult := { entities := [{ name := "se", monitors := [{ type := .alive }] }] }
    ∃ (e : PhmEngine BuiltinMonitor) (se : SupervisedEntity BuiltinMonitor),
      loadConfiguration "/etc/phm/se_config.json" (.ok result) (new {}) = .ok (true, e) ∧
      e.named "se" = some se ∧
      (Id.run (((se.apply (.start fun _ => {})).apply (.checkAll fun _ => {})).checkAll
        SupervisedEntity.silent fun _ => {})).2 = .ok [] ∧
      ¬ Configured builtin BuiltinMonitor.channelAccess result e := by
  intro result
  refine ⟨_, _, loadConfiguration_eq rfl _ _, rfl, rfl, ?_⟩
  intro h
  obtain ⟨se, hse, mon, hmon⟩ := h.watched _ (List.mem_singleton.mpr rfl) _ (List.mem_singleton.mpr rfl)
    rfl (by decide)
  obtain rfl := Option.some.inj hse
  exact List.not_mem_nil hmon.registered

section
variable {e f : PhmEngine μ}

theorem monitors_apply_of_nil {se : SupervisedEntity μ} (h : se.monitors = []) {op : EntityOp μ ε}
    (hop : ∀ mon, op ≠ .registerMonitor (some mon)) : (se.apply op).monitors = [] := by
  cases op with
  | registerMonitor monitor =>
    cases monitor with
    | none => exact h
    | some mon => exact absurd rfl (hop mon)
  | start readings =>
    simp only [SupervisedEntity.apply, SupervisedEntity.start, h, SupervisedEntity.startMonitors,
      SupervisedEntity.transitionTo_silent]
    split <;> rfl
  | stop => simp [SupervisedEntity.apply, SupervisedEntity.stop, h]
  | checkAll readings => rw [SupervisedEntity.monitors_checkAll, h]; rfl
  | onMonitorEvent event => exact (SupervisedEntity.monitors_handle event _).trans h
  | drainEvents => exact h
  | reset => simp [SupervisedEntity.apply, SupervisedEntity.reset, SupervisedEntity.stop, h]

theorem unwatched_iff : e.Unwatched ↔
    ∀ (ref : Nat) (se : SupervisedEntity μ), e.objects[ref]? = some se → se.monitors = [] := by
  constructor
  · exact fun h ref se hse => h se (List.mem_of_getElem? hse)
  · intro h se hse
    obtain ⟨ref, href⟩ := List.mem_iff_getElem?.mp hse
    exact h ref se href

theorem Unwatched.swept {g : Nat → SupervisedEntity μ → SupervisedEntity μ} {refs : List Nat}
    (h : e.Unwatched) (hswept : Swept g refs e.objects f.objects)
    (hg : ∀ ref se, se.monitors = [] → (g ref se).monitors = []) : f.Unwatched := by
  rw [unwatched_iff] at h ⊢
  intro ref se hse
  rw [hswept ref] at hse
  split at hse
  · obtain ⟨t, ht, rfl⟩ := Option.map_eq_some_iff.mp hse
    exact hg ref t (h ref t ht)
  · exact h ref se hse

theorem Unwatched.modify (h : e.Unwatched) (ref : Nat) :
    Unwatched { e with objects := e.objects.modify ref SupervisedEntity.stop } := by
  have hswept : Swept (fun _ => SupervisedEntity.stop) [ref] e.objects
      (e.objects.modify ref SupervisedEntity.stop) := by
    intro other
    rw [List.getElem?_modify]
    rcases eq_or_ne ref other with rfl | hne
    · simp
    · simp [hne, hne.symm]
  exact h.swept hswept fun _ se hse => by simp [SupervisedEntity.stop, hse]

theorem Unwatched.stopAll (h : e.Unwatched) (refs : List Nat) :
    Unwatched { e with objects := stopAll refs e.objects } := by
  induction refs generalizing e with
  | nil => exact h
  | cons ref rest ih => exact ih (h.modify ref)

theorem monitors_entityTick_of_nil {se : SupervisedEntity μ} (h : se.monitors = []) (r : EntityReading ε) :
    (entityTick se r).monitors = [] := by
  have hchecked : (se.apply (.checkAll r.check)).monitors = [] :=
    monitors_apply_of_nil h (by simp)
  unfold entityTick
  dsimp only
  split
  · refine monitors_apply_of_nil ?_ (by simp)
    simp [SupervisedEntity.reset, SupervisedEntity.stop, hchecked]
  · exact hchecked

theorem monitors_launched_of_nil {se : SupervisedEntity μ} (h : se.monitors = [])
    (readings : Nat → Nat → ε) (ref : Nat) : (launched readings ref se).monitors = [] := by
  unfold launched
  split
  · exact monitors_apply_of_nil h (by simp)
  · exact h

theorem Unwatched.step {s : EngineStep μ ε} (h : e.Unwatched) (hstep : Effect s e f)
    (hs : ∀ ref mon, s ≠ .useEntity ref (.registerMonitor (some mon))) : f.Unwatched := by
  cases hstep.change with
  | inert _ => exact h
  | added cfg => exact unwatched_added h cfg
  | enrolled ref => exact unwatched_enrolled h ref
  | removed name =>
    unfold PhmEngine.removed
    split
    · exact h
    · next ref _ => exact h.modify ref
  | loaded path result => exact unwatched_loaded h path result
  | reloaded result _ => exact unwatched_loaded h e.configPath result
  | started readings objects _ hswept =>
    exact h.swept hswept fun ref se hse => monitors_launched_of_nil hse readings ref
  | stopped =>
    unfold PhmEngine.stopped
    split
    · exact h.stopAll e.refs
    · exact h
  | calledBack installed => exact h
  | ticked readings uptimeMs objects reported _ hswept =>
    exact h.swept hswept fun ref se hse => monitors_entityTick_of_nil hse (readings ref)
  | shared cfg => exact h.append rfl
  | used op hse =>
    refine h.store (monitors_apply_of_nil (h _ (List.mem_of_getElem? hse)) ?_)
    rintro mon rfl
    exact hs _ mon rfl

end

end PhmEngine

end PlatformHealth
