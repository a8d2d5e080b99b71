import PlatformHealth.Engine.Callbacks
import PlatformHealth.Entity.Counters

namespace PlatformHealth

theorem ne_of_allowed {s t : SeState} (h : isTransitionAllowed s t = true) : t ≠ s := by
  rintro rfl
  revert h
  cases t <;> decide

namespace SupervisedEntity

variable {μ ε : Type} [IMonitor μ ε]

theorem changes_append (se : SupervisedEntity μ) (as bs : List Action) :
    changes se (as ++ bs) = changes se as ++ changes (Runs.run act se as) bs := by
  induction as generalizing se with
  | nil => rfl
  | cons a as ih =>
    simp only [List.cons_append, changes, Runs.run_cons, ih]
    split <;> rfl

section
variable {m : Type → Type} [Monad m] (cb : StateChangeCallback m)

def announce (se : SupervisedEntity μ) (new : SeState) : m Unit :=
  if se.currentState ≠ new && se.stateCb then cb se.config.name se.currentState new else pure ()

-- reset() writes current_state_ itself and calls nobody
def replay (name : String) : List StateChange → m Unit
  | [] => pure ()
  | c :: cs => do
    match c.cause with
    | .reset => pure ()
    | _ => cb name c.old c.new
    replay name cs

def tell (se : SupervisedEntity μ) (cs : List StateChange) : m Unit :=
  if se.stateCb then replay cb se.config.name cs else pure ()

theorem announce_self (se : SupervisedEntity μ) : announce cb se se.currentState = pure () := by
  simp [announce]

theorem tell_nil (se : SupervisedEntity μ) : tell cb se [] = pure () := by
  cases h : se.stateCb <;> simp [tell, h, replay]

theorem tell_of_core {se se' : SupervisedEntity μ} {as : List Action}
    (h : se'.core = Runs.run act se.core as) (cs : List StateChange) :
    tell cb se' cs = tell cb se cs := by
  have hcfg : (Runs.run act se.core as).config = se.core.config :=
    Runs.run_eq_of_each config as (fun t a _ => config_act t a) se.core
  have hcb : (Runs.run act se.core as).stateCb = se.core.stateCb :=
    Runs.run_eq_of_each stateCb as (fun t a _ => stateCb_act t a) se.core
  rw [← h] at hcfg hcb
  change se'.config = se.config at hcfg
  change se'.stateCb = se.stateCb at hcb
  simp only [tell, hcb, hcfg]

variable [LawfulMonad m] (se : SupervisedEntity μ)

theorem replay_append (name : String) (cs ds : List StateChange) :
    replay cb name (cs ++ ds) = (replay cb name cs >>= fun _ => replay cb name ds) := by
  induction cs with
  | nil => simp [replay]
  | cons c cs ih =>
    cases h : c.cause <;> simp [replay, ih, h]

theorem tell_append (cs ds : List StateChange) :
    tell cb se (cs ++ ds) = (tell cb se cs >>= fun _ => tell cb se ds) := by
  cases h : se.stateCb <;> simp [tell, h, replay_append]

theorem tell_event {event : PhmEvent} {new : SeState}
    (h : (handle event se).currentState = new) :
    tell cb se (changes se.core [.event event]) = announce cb se new := by
  have hcore : (handle event se.core).currentState = new := by
    rw [← core_handle]
    exact h
  simp only [changes, act, hcore, core_currentState, announce]
  by_cases hne : new = se.currentState
  · simp [hne, tell, replay]
  · cases hcb : se.stateCb <;> simp [hne, Ne.symm hne, tell, replay, hcb]

theorem transitionTo_eq (target : SeState) :
    transitionTo cb target se = (announce cb se (enter se.currentState target) >>= fun _ =>
      pure ({ se with currentState := enter se.currentState target },
        isTransitionAllowed se.currentState target)) := by
  unfold transitionTo enter
  cases hallowed : isTransitionAllowed se.currentState target with
  | false => simp [announce_self]
  | true =>
    have hne := (ne_of_allowed hallowed).symm
    cases hcb : se.stateCb <;> simp [announce, hne, hcb]

theorem processMonitorResult_eq (event : PhmEvent) :
    processMonitorResult cb event se =
      (tell cb se (changes se.core [.event event]) >>= fun _ => pure (handle event se)) := by
  cases h : findConfig se.config event.sourceMonitor with
  | none =>
    rw [tell_event cb se (congrArg currentState (handle_none h)), handle_none h, announce_self]
    simp [processMonitorResult, h]
  | some mc =>
    have hself : enter .running .running = .running := rfl
    have hsuspect : enter .running .suspect = .suspect := rfl
    have hset (key : String) (entry : DebounceEntry) (new : SeState) :
        announce cb (se.setEntry key entry) new = announce cb se new := rfl
    rw [tell_event cb se (currentState_handle h), handle_some h]
    simp only [processMonitorResult, h, transitionTo_eq, verdict, count, hset]
    by_cases ht : seStateFromSeverity event.severity = .running
    · by_cases hc : se.currentState = .running
      · have hquiet : announce cb se .running = pure () := by
          rw [← hc]
          exact announce_self cb se
        simp [ht, hc, hself, hquiet, setEntry]
      · simp [ht, hc, setEntry]
    · by_cases hlt : seStateToIndex se.currentState < seStateToIndex (seStateFromSeverity event.severity)
      · simp only [ht, hlt, if_true, if_false]
        by_cases hd : debounceOf mc ≤ (se.debounceMap.getD event.sourceMonitor {}).consecutiveCount + 1
        · simp [hd, StringMap.insert_insert, setEntry]
        · by_cases hc : se.currentState = .running <;> simp [hd, hc, hsuspect, setEntry, announce_self]
      · simp [ht, hlt, setEntry, announce_self]

theorem onMonitorEvent_eq (event : PhmEvent) :
    onMonitorEvent cb event se =
      (tell cb se (changes se.core [.event event]) >>= fun _ =>
        pure (Id.run (onMonitorEvent silent event se))) :=
  processMonitorResult_eq cb { se with pendingEvents := se.pendingEvents ++ [event] } event

theorem tell_actions (t : SupervisedEntity Empty) (as bs : List Action) :
    tell cb se (changes t (as ++ bs)) =
      (tell cb se (changes t as) >>= fun _ => tell cb se (changes (Runs.run act t as) bs)) := by
  rw [changes_append, tell_append]

theorem onMonitorEvents_eq (events : List PhmEvent) :
    onMonitorEvents cb events se =
      (tell cb se (changes se.core (events.map .event)) >>= fun _ =>
        pure (Id.run (onMonitorEvents silent events se))) := by
  induction events generalizing se with
  | nil => simp [onMonitorEvents, changes, tell_nil]
  | cons event rest ih =>
    have hcore : core (Id.run (onMonitorEvent silent event se)) =
        Runs.run act se.core [.event event] := core_onMonitorEvent event se
    have hsplit := tell_actions cb se se.core [.event event] (rest.map .event)
    rw [List.singleton_append] at hsplit
    rw [onMonitorEvents, onMonitorEvent_eq, List.map_cons, hsplit]
    simp only [bind_assoc, pure_bind, ih, tell_of_core cb hcore, hcore]
    rfl

theorem checkMonitors_eq (readings : Nat → ε) (i : Nat) (mons : List μ) (events : List PhmEvent) :
    checkMonitors cb readings i mons se events =
      (tell cb se (changes se.core ((processed readings i mons).map .event)) >>= fun _ =>
        pure (Id.run (checkMonitors silent readings i mons se events))) := by
  induction mons generalizing i se events with
  | nil => simp [checkMonitors, processed, changes, tell_nil]
  | cons mon rest ih =>
    have hraised := core_onMonitorEvents (IMonitor.check mon (readings i)).raised se
    rw [processed, List.map_append, tell_actions, ← hraised]
    simp only [checkMonitors, onMonitorEvents_eq cb se, bind_assoc, pure_bind]
    cases hout : (IMonitor.check mon (readings i)).outcome with
    | error fault => simp [changes, tell_nil]
    | ok evt =>
      by_cases hid : evt.id = ""
      · simp only [hid, if_true, ih, bind_assoc, pure_bind, tell_of_core cb hraised]
        rfl
      · have hevt : core (handle evt (Id.run (onMonitorEvents silent
            (IMonitor.check mon (readings i)).raised se))) =
            Runs.run act (core (Id.run (onMonitorEvents silent
              (IMonitor.check mon (readings i)).raised se))) [.event evt] := core_handle evt _
        have hsplit := tell_actions cb se
          (core (Id.run (onMonitorEvents silent (IMonitor.check mon (readings i)).raised se)))
          [.event evt] ((processed readings (i + 1) rest).map .event)
        rw [List.singleton_append] at hsplit
        simp only [hid, if_false, List.map_cons, hsplit, processMonitorResult_eq cb, ih, bind_assoc,
          pure_bind, tell_of_core cb hraised, tell_of_core cb hevt, hevt]
        rfl

theorem checkAll_eq (readings : Nat → ε) :
    se.checkAll cb readings =
      (tell cb se (changes se.core (se.actions (.checkAll readings))) >>= fun _ =>
        pure (Id.run (se.checkAll silent readings))) := by
  simp only [checkAll, checkMonitors_eq cb, bind_assoc, pure_bind]
  rfl

theorem start_eq (readings : Nat → ε) :
    se.start cb readings =
      (tell cb se (changes se.core (se.actions (.start readings))) >>= fun _ =>
        pure (Id.run (se.start silent readings))) := by
  have henter : enter .init .running = .running := rfl
  simp only [start, actions, transitionTo_eq cb, transitionTo_silent]
  cases hok : (startMonitors readings 0 se.monitors).2 with
  | false => simp [changes, tell_nil]
  | true =>
    by_cases hinit : se.currentState = .init
    · cases hcb : se.stateCb <;>
        simp [hinit, hcb, henter, announce, tell, changes, act, replay]
    · simp [hinit, changes, act, tell_nil]

theorem perform_eq (op : EntityOp μ ε) :
    se.perform cb op =
      (tell cb se (changes se.core (se.actions op)) >>= fun _ => pure (se.apply op)) := by
  cases op with
  | registerMonitor monitor => simp [perform, actions, apply, changes, tell_nil]
  | start readings => simp only [perform, start_eq cb, bind_assoc, pure_bind]; rfl
  | stop => simp [perform, actions, apply, changes, tell_nil]
  | checkAll readings => simp only [perform, checkAll_eq cb, bind_assoc, pure_bind]; rfl
  | onMonitorEvent event => exact onMonitorEvent_eq cb se event
  | drainEvents => simp [perform, actions, apply, changes, tell_nil]
  | reset =>
    have hquiet : tell cb se (changes se.core (se.actions (.reset : EntityOp μ ε))) = pure () := by
      by_cases hinit : se.currentState = .init
      · simp [actions, changes, act, hinit, tell_nil]
      · cases hcb : se.stateCb <;>
          simp [actions, changes, act, Ne.symm hinit, tell, replay, hcb]
    rw [hquiet]
    simp [perform, apply]

end

end SupervisedEntity

end PlatformHealth
