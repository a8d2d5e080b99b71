import PlatformHealth.Entity.Answers
import PlatformHealth.Entity.Counters

namespace PlatformHealth

inductive DeliveryOp (ε : Type) where
  | checkAll (readings : Nat → ε)
  | onMonitorEvent (event : PhmEvent)
  | drainEvents

namespace SupervisedEntity

variable {μ ε : Type} [IMonitor μ ε]

def raised (p : μ × ε) : List PhmEvent := (IMonitor.check p.1 p.2).raised

-- the two styles that IMonitor documents: return the event, or raise it and return it as well
structure Delivers (p : μ × ε) : Prop where
  outcome : ∃ evt, (IMonitor.check p.1 p.2).outcome = .ok evt
  raised : raised p = [] ∨ ∃ evt, reported p = some evt ∧ raised p = [evt]

def generated (ps : List (μ × ε)) : List PhmEvent := ps.filterMap reported

def delivered (p : μ × ε) : List PhmEvent := raised p ++ (reported p).toList

def Advances (se : SupervisedEntity μ) (event : PhmEvent) : Prop :=
  findConfig se.config event.sourceMonitor ≠ none ∧ seStateFromSeverity event.severity ≠ .running ∧
    seStateToIndex se.currentState < seStateToIndex (seStateFromSeverity event.severity)

instance (se : SupervisedEntity μ) (event : PhmEvent) : Decidable (se.Advances event) :=
  inferInstanceAs (Decidable (_ ∧ _ ∧ _))

def advances (se : SupervisedEntity μ) : List PhmEvent → Nat
  | [] => 0
  | event :: rest => (if se.Advances event then 1 else 0) + advances (handle event se) rest

def tally (se : SupervisedEntity Empty) : List (μ × ε) → List Nat
  | [] => []
  | p :: rest => se.advances (delivered p) :: tally (Runs.run act se ((delivered p).map .event)) rest

section
variable {ps : List (μ × ε)}

theorem length_raised_le (h : ∀ p ∈ ps, Delivers p) :
    (ps.flatMap raised).length ≤ (generated ps).length := by
  induction ps with
  | nil => simp [generated]
  | cons p rest ih =>
    have hrest := ih fun q hq => h q (by simp [hq])
    rw [List.flatMap_cons, List.length_append]
    rcases (h p (by simp)).raised with hnone | ⟨evt, hevt, hraised⟩
    · rw [hnone, List.length_nil, Nat.zero_add]
      refine hrest.trans ?_
      cases hp : reported p <;> simp [generated, hp]
    · simp only [hraised, generated, List.filterMap_cons, hevt, List.length_cons, List.length_nil]
      rw [generated] at hrest
      omega

theorem raised_eq_generated_iff (h : ∀ p ∈ ps, Delivers p) :
    ps.flatMap raised = generated ps ↔ ∀ p ∈ ps, ∀ evt, reported p = some evt → raised p = [evt] := by
  induction ps with
  | nil => simp [generated]
  | cons p rest ih =>
    have hrest : ∀ q ∈ rest, Delivers q := fun q hq => h q (by simp [hq])
    have hcons : generated (p :: rest) = (reported p).toList ++ generated rest := by
      cases hp : reported p <;> simp [generated, hp]
    rw [List.flatMap_cons, hcons, List.forall_mem_cons, ← ih hrest]
    rcases (h p (by simp)).raised with hnone | ⟨evt, hevt, hraised⟩
    · cases hp : reported p with
      | none => simp [hnone]
      | some evt =>
        refine iff_of_false ?_ (by simp [hnone])
        intro heq
        have hlength := congrArg List.length heq
        have hle := length_raised_le hrest
        simp only [hnone, List.nil_append, Option.toList_some, List.singleton_append,
          List.length_cons] at hlength
        omega
    · simp [hevt, hraised]

end

section
variable {event : PhmEvent} {se : SupervisedEntity μ}

def CountsOnce (se : SupervisedEntity μ) (event : PhmEvent) : Prop :=
  se.Advances event → ∃ mc, findConfig se.config event.sourceMonitor = some mc ∧
    debounceOf mc ≤ se.count event.sourceMonitor + 1 ∧
    isTransitionAllowed se.currentState (seStateFromSeverity event.severity) = true

theorem advances_twice_iff : se.advances [event, event] ≤ 1 ↔ se.CountsOnce event := by
  have hcfg : (handle event se).config = se.config := config_act se (.event event)
  have hsum : se.advances [event, event] ≤ 1 ↔
      (se.Advances event → ¬ (handle event se).Advances event) := by
    simp only [advances]
    by_cases h : se.Advances event <;> by_cases h' : (handle event se).Advances event <;> simp [h, h']
  rw [hsum, CountsOnce]
  refine forall_congr' fun hadv => ?_
  obtain ⟨hconfig, hrun, hlt⟩ := hadv
  obtain ⟨mc, hmc⟩ := Option.ne_none_iff_exists'.mp hconfig
  have hagain : (handle event se).Advances event ↔
      seStateToIndex (handle event se).currentState < seStateToIndex (seStateFromSeverity event.severity) := by
    rw [Advances, hcfg]
    exact ⟨fun h => h.2.2, fun h => ⟨hconfig, hrun, h⟩⟩
  rw [hagain, currentState_handle hmc]
  simp only [hmc, Option.some.injEq, exists_eq_left', verdict, hrun, if_false, hlt, if_true]
  by_cases hd : debounceOf mc ≤ se.count event.sourceMonitor + 1
  · cases hallowed : isTransitionAllowed se.currentState (seStateFromSeverity event.severity) <;>
      simp [hd, enter, hallowed, hlt]
  · have hbelow : seStateToIndex (if se.currentState = .running then .suspect else se.currentState) <
        seStateToIndex (seStateFromSeverity event.severity) := by
      split
      · cases hs : event.severity <;> simp_all [seStateFromSeverity, seStateToIndex]
      · exact hlt
    simp [hd, hbelow]

end

def OnceEach (se : SupervisedEntity Empty) : List (μ × ε) → Prop
  | [] => True
  | p :: rest =>
    (∀ evt, reported p = some evt → se.CountsOnce evt) ∧
      OnceEach (Runs.run act se ((delivered p).map .event)) rest

theorem tally_le_iff {se : SupervisedEntity Empty} {ps : List (μ × ε)}
    (h : ∀ p ∈ ps, Delivers p) (hraised : ∀ p ∈ ps, ∀ evt, reported p = some evt → raised p = [evt]) :
    (∀ n ∈ tally se ps, n ≤ 1) ↔ OnceEach se ps := by
  induction ps generalizing se with
  | nil => simp [tally, OnceEach]
  | cons p rest ih =>
    have hrest := @ih (Runs.run act se ((delivered p).map .event)) (fun q hq => h q (by simp [hq]))
      fun q hq => hraised q (by simp [hq])
    rw [tally, List.forall_mem_cons, OnceEach, hrest]
    refine and_congr_left fun _ => ?_
    cases hp : reported p with
    | none =>
      have hquiet : delivered p = [] := by
        rcases (h p (by simp)).raised with hnone | ⟨evt, hevt, -⟩
        · simp [delivered, hnone, hp]
        · simp [hp] at hevt
      simp [hquiet, advances]
    | some evt =>
      have htwice : delivered p = [evt, evt] := by
        rw [delivered, hraised p (by simp) evt hp, hp]
        rfl
      rw [htwice, advances_twice_iff]
      simp

theorem pendingEvents_onMonitorEvents (events : List PhmEvent) (se : SupervisedEntity μ) :
    (Id.run (onMonitorEvents silent events se)).pendingEvents = se.pendingEvents ++ events := by
  induction events generalizing se with
  | nil => simp [onMonitorEvents]
  | cons event rest ih =>
    have hrest := ih (Id.run (onMonitorEvent silent event se))
    have hone : (Id.run (onMonitorEvent silent event se)).pendingEvents = se.pendingEvents ++ [event] :=
      pendingEvents_handle event { se with pendingEvents := se.pendingEvents ++ [event] }
    rw [hone, List.append_assoc, List.singleton_append] at hrest
    exact hrest

theorem pendingEvents_checkMonitors {readings : Nat → ε} {i : Nat} {mons : List μ}
    (h : ∀ p ∈ answers readings i mons, Delivers p) (se : SupervisedEntity μ) (events : List PhmEvent) :
    (Id.run (checkMonitors silent readings i mons se events)).2.1.pendingEvents =
      se.pendingEvents ++ (answers readings i mons).flatMap raised := by
  induction mons generalizing i se events with
  | nil => simp [checkMonitors, answers]
  | cons mon rest ih =>
    obtain ⟨⟨evt, hout⟩, -⟩ := h (mon, readings i) (by simp [answers])
    have hrest : ∀ p ∈ answers readings (i + 1) rest, Delivers p := fun p hp => h p (by simp [answers, hp])
    have hraised := pendingEvents_onMonitorEvents (IMonitor.check mon (readings i)).raised se
    simp only [checkMonitors, answers, List.flatMap_cons, hout]
    by_cases hid : evt.id = ""
    · have hnext := ih hrest (Id.run (onMonitorEvents silent (IMonitor.check mon (readings i)).raised se)) events
      rw [hraised, List.append_assoc] at hnext
      simpa [hid, raised] using hnext
    · have hnext := ih hrest (handle evt (Id.run (onMonitorEvents silent
        (IMonitor.check mon (readings i)).raised se))) (events ++ [evt])
      rw [pendingEvents_handle, hraised, List.append_assoc] at hnext
      simp only [hid, if_false]
      exact hnext

end SupervisedEntity

-- the other style: the monitor hands its event to the callback before it returns it
structure EagerMonitor where
  inner : ReportingMonitor

namespace EagerMonitor

def check (m : EagerMonitor) (r : Report) : CheckResult EagerMonitor where
  monitor := ⟨(m.inner.check r).monitor⟩
  raised :=
    match (m.inner.check r).outcome with
    | .error _ => []
    | .ok evt => if evt.id = "" then [] else [evt]
  outcome := (m.inner.check r).outcome

instance : IMonitor EagerMonitor Report where
  start m r := ((IMonitor.start m.inner r).1, ⟨(IMonitor.start m.inner r).2⟩)
  stop m := ⟨IMonitor.stop m.inner⟩
  check := check
  reset m := ⟨IMonitor.reset m.inner⟩
  getState m := m.inner.state
  getType m := m.inner.type
  configure m cfg := ⟨IMonitor.configure m.inner cfg⟩
  getConfig m := m.inner.config
  name m := IMonitor.name m.inner

end EagerMonitor

namespace SupervisedEntity

theorem raised_eager (p : EagerMonitor × Report) : raised p = (reported p).toList := by
  obtain ⟨evt, hout⟩ := (returns_reporting (p.1.inner, p.2)).outcome
  have hcheck : (IMonitor.check p.1 p.2).outcome = .ok evt := hout
  have hraised : raised p = if evt.id = "" then [] else [evt] := by
    change (match (p.1.inner.check p.2).outcome with | .error _ => [] | .ok evt => _) = _
    rw [show (p.1.inner.check p.2).outcome = .ok evt from hout]
  rw [hraised, reported, hcheck]
  by_cases hid : evt.id = "" <;> simp [hid]

theorem delivers_eager (p : EagerMonitor × Report) : Delivers p := by
  refine ⟨(returns_reporting (p.1.inner, p.2)).outcome, ?_⟩
  cases hp : reported p with
  | none => exact .inl (by rw [raised_eager, hp]; rfl)
  | some evt => exact .inr ⟨evt, rfl, by rw [raised_eager, hp]; rfl⟩

end SupervisedEntity

structure Delivery (μ : Type) where
  entity : SupervisedEntity μ
  generated : List PhmEvent
  drained : List PhmEvent := []
  advances : List Nat := []

namespace Delivery

open SupervisedEntity

variable {μ ε : Type} [IMonitor μ ε]

def perform (t : Delivery μ) : DeliveryOp ε → Delivery μ
  | .checkAll readings =>
    { t with
      entity := t.entity.apply (.checkAll readings)
      generated := t.generated ++ SupervisedEntity.generated (answers readings 0 t.entity.monitors)
      advances := t.advances ++ tally t.entity.core (answers readings 0 t.entity.monitors) }
  | .onMonitorEvent event =>
    { t with
      entity := t.entity.apply (.onMonitorEvent event : EntityOp μ ε)
      generated := t.generated ++ [event]
      advances := t.advances ++ [t.entity.advances [event]] }
  | .drainEvents =>
    { t with
      entity := t.entity.drainEvents.1
      drained := t.drained ++ t.entity.drainEvents.2 }

structure Accounted (t : Delivery μ) : Prop where
  queue : t.drained ++ t.entity.pendingEvents = t.generated
  once : ∀ n ∈ t.advances, n ≤ 1

def Single (t : Delivery μ) : DeliveryOp ε → Prop
  | .checkAll readings =>
    (∀ p ∈ answers readings 0 t.entity.monitors, ∀ evt, reported p = some evt → raised p = [evt]) ∧
      OnceEach t.entity.core (answers readings 0 t.entity.monitors)
  | _ => True

theorem accounted_perform_iff (hmon : ∀ p : μ × ε, Delivers p) {t : Delivery μ} (h : t.Accounted)
    (op : DeliveryOp ε) : (t.perform op).Accounted ↔ t.Single op := by
  cases op with
  | checkAll readings =>
    have hall : ∀ p ∈ answers readings 0 t.entity.monitors, Delivers p := fun p _ => hmon p
    have hpending : (t.entity.apply (.checkAll readings)).pendingEvents =
        t.entity.pendingEvents ++ (answers readings 0 t.entity.monitors).flatMap raised :=
      pendingEvents_checkMonitors hall t.entity []
    have hqueue : (t.perform (.checkAll readings)).drained ++
          (t.perform (.checkAll readings)).entity.pendingEvents =
        (t.perform (.checkAll readings)).generated ↔
        ∀ p ∈ answers readings 0 t.entity.monitors, ∀ evt, reported p = some evt → raised p = [evt] := by
      rw [← raised_eq_generated_iff hall]
      simp only [perform, hpending]
      rw [← List.append_assoc, h.queue, List.append_cancel_left_eq]
    constructor
    · intro hnext
      have hraised := hqueue.mp hnext.queue
      exact ⟨hraised, (tally_le_iff hall hraised).mp (List.forall_mem_append.mp hnext.once).2⟩
    · rintro ⟨hraised, honce⟩
      exact ⟨hqueue.mpr hraised,
        List.forall_mem_append.mpr ⟨h.once, (tally_le_iff hall hraised).mpr honce⟩⟩
  | onMonitorEvent event =>
    have hpending : (t.entity.apply (.onMonitorEvent event : EntityOp μ ε)).pendingEvents =
        t.entity.pendingEvents ++ [event] :=
      pendingEvents_handle event { t.entity with pendingEvents := t.entity.pendingEvents ++ [event] }
    refine iff_of_true ⟨?_, ?_⟩ trivial
    · simp only [perform, hpending]
      rw [← List.append_assoc, h.queue]
    · refine List.forall_mem_append.mpr ⟨h.once, ?_⟩
      simp only [List.mem_singleton, forall_eq, SupervisedEntity.advances]
      split <;> simp
  | drainEvents =>
    refine iff_of_true ⟨?_, h.once⟩ trivial
    simpa [perform, SupervisedEntity.drainEvents] using h.queue

theorem accounted_iff (hmon : ∀ p : μ × ε, Delivers p) (se : SupervisedEntity μ)
    (ops : List (DeliveryOp ε)) :
    let t : Delivery μ := { entity := se, generated := se.pendingEvents }
    Runs.Always perform Accounted t ops ↔ Runs.Each perform Single t ops :=
  Runs.always_iff_each (I := fun _ => True) (fun _ op _ h => accounted_perform_iff hmon h op)
    (fun _ _ _ => trivial) trivial ⟨List.nil_append _, by simp⟩

theorem confirmed_event_delivered :
    let cfg : SEConfig := { monitors := [{ type := .custom, debounceCount := 1 }] }
    let error : Report := { fault := some ⟨{ id := "e", severity := .error }, by decide⟩ }
    let se : SupervisedEntity EagerMonitor := Runs.run apply (new cfg)
      [.registerMonitor (some ⟨{ type := .custom }⟩), .start fun _ => {}]
    Runs.Always perform Accounted { entity := se, generated := se.pendingEvents }
      [.checkAll fun _ => error, .drainEvents] := by
  intro cfg error se
  refine (accounted_iff delivers_eager se _).mpr ⟨⟨?_, ?_, trivial⟩, trivial, trivial⟩
  · intro p _ evt hp
    rw [raised_eager, hp]
    rfl
  · intro evt hevt _
    obtain rfl := Option.some.inj hevt
    exact ⟨_, rfl, by decide +kernel, by decide +kernel⟩

theorem event_lost_or_counted_twice :
    let cfg : SEConfig := { monitors := [{ type := .custom, debounceCount := 2 }] }
    let error : Report := { fault := some ⟨{ id := "e", severity := .error }, by decide⟩ }
    let silent : SupervisedEntity ReportingMonitor := Runs.run apply (new cfg)
      [.registerMonitor (some { type := .custom }), .start fun _ => {}]
    let eager : SupervisedEntity EagerMonitor := Runs.run apply (new cfg)
      [.registerMonitor (some ⟨{ type := .custom }⟩), .start fun _ => {}]
    let lost := Runs.run perform { entity := silent, generated := silent.pendingEvents }
      [.checkAll fun _ => error, .drainEvents]
    let twice := Runs.run perform { entity := eager, generated := eager.pendingEvents }
      [.checkAll fun _ => error, .drainEvents]
    (lost.generated.map (·.id) = ["e"] ∧ lost.drained.map (·.id) = [] ∧ ¬ lost.Accounted) ∧
      twice.advances = [2] ∧ twice.entity.currentState = .error ∧ ¬ twice.Accounted := by
  intro cfg error silent eager lost twice
  have hadvances : twice.advances = [2] := by decide +kernel
  have hgenerated : lost.generated.map (·.id) = ["e"] := by decide +kernel
  have hdrained : lost.drained.map (·.id) = [] := by decide +kernel
  have hpending : lost.entity.pendingEvents = [] := rfl
  refine ⟨⟨hgenerated, hdrained, ?_⟩, hadvances, by decide +kernel, ?_⟩
  · intro h
    have hids := congrArg (List.map (·.id)) h.queue
    rw [hpending, List.append_nil, hgenerated, hdrained] at hids
    cases hids
  · intro h
    have hone := h.once 2 (by rw [hadvances]; exact List.mem_singleton.mpr rfl)
    exact absurd hone (by decide)

end Delivery

end PlatformHealth
