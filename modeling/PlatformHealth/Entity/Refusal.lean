import PlatformHealth.Entity.Counters

namespace PlatformHealth

open SupervisedEntity

theorem enter_init {v : Severity} (hv : v ≠ .info) : enter .init (seStateFromSeverity v) = .init := by
  cases v <;> first | exact absurd rfl hv | rfl

theorem verdict_init {v : Severity} (hv : v ≠ .info) (d c : UInt32) :
    (verdict d c (seStateFromSeverity v) .init).1 = .init := by
  have hne := seStateFromSeverity_ne_running hv
  unfold verdict
  rw [if_neg hne, enter_init hv]
  split_ifs <;> simp_all

theorem init_of_faults (events : List PhmEvent) (se : SupervisedEntity Empty)
    (hinit : se.currentState = .init) (hfault : ∀ e ∈ events, e.severity ≠ .info) :
    (Runs.run act se (events.map .event)).currentState = .init := by
  induction events generalizing se with
  | nil => exact hinit
  | cons e rest ih =>
    refine ih (se.act (.event e)) ?_ (fun x hx => hfault x (by simp [hx]))
    have hsev := hfault e (by simp)
    cases hmc : findConfig se.config e.sourceMonitor with
    | none => rwa [act, handle_none hmc]
    | some mc => rw [act, currentState_handle hmc, hinit, verdict_init hsev]

theorem enter_fatal {s : SeState} (hs : s = .suspect ∨ s = .warn) : enter s .fatal = s := by
  rcases hs with rfl | rfl <;> rfl

theorem fatal_of_le {s : SeState} (h : seStateToIndex .fatal ≤ seStateToIndex s) : s = .fatal := by
  cases s <;> simp [seStateToIndex] at h ⊢

section
variable {source : String} {mc : MonitorConfig} {se : SupervisedEntity Empty} {events : List PhmEvent}

def FatalFrom (source : String) (events : List PhmEvent) : Prop :=
  ∀ e ∈ events, e.sourceMonitor = source ∧ e.severity = .fatal

theorem handle_fatal {event : PhmEvent} (hbelow : CountersBelow se)
    (hmc : findConfig se.config event.sourceMonitor = some mc) (hsev : event.severity = .fatal)
    (hstate : se.currentState ≠ .fatal) :
    (handle event se).currentState =
        (if threshold mc ≤ (se.count event.sourceMonitor).toNat + 1 then
          enter se.currentState .fatal
        else if se.currentState = .running then .suspect else se.currentState) ∧
      ((handle event se).count event.sourceMonitor).toNat =
        if threshold mc ≤ (se.count event.sourceMonitor).toNat + 1 then 0
        else (se.count event.sourceMonitor).toNat + 1 := by
  have hfault : event.severity ≠ .info := by simp [hsev]
  have hlt : seStateToIndex se.currentState < seStateToIndex (seStateFromSeverity event.severity) := by
    rw [hsev]
    cases hs : se.currentState <;> simp [hs, seStateFromSeverity, seStateToIndex] at hstate ⊢
  by_cases hd : threshold mc ≤ (se.count event.sourceMonitor).toNat + 1
  · simpa [hd, hsev, seStateFromSeverity] using handle_confirms hbelow hmc hfault hlt hd
  · simpa [hd] using handle_counts hbelow hmc hfault hlt (not_le.mp hd)

theorem fatal_stays (hstate : se.currentState = .fatal) (hev : FatalFrom source events) :
    (Runs.run act se (events.map .event)).currentState = .fatal := by
  induction events generalizing se with
  | nil => exact hstate
  | cons e rest ih =>
    have hfault : e.severity ≠ .info := by simp [(hev e (by simp)).2]
    have hup := handle_mono hfault se
    rw [hstate] at hup
    have hnext : (se.act (.event e)).currentState = .fatal := fatal_of_le hup
    exact ih hnext (fun x hx => hev x (by simp [hx]))

theorem fatal_from_error (hbelow : CountersBelow se) (hmc : findConfig se.config source = some mc)
    (hstate : se.currentState = .error) (hev : FatalFrom source events)
    (hdue : threshold mc ≤ (se.count source).toNat + events.length) :
    (Runs.run act se (events.map .event)).currentState = .fatal := by
  induction events generalizing se with
  | nil => exact absurd (hbelow _ _ hmc) (not_lt.mpr hdue)
  | cons e rest ih =>
    obtain ⟨rfl, hsev⟩ := hev e (by simp)
    have hrest : FatalFrom e.sourceMonitor rest := fun x hx => hev x (by simp [hx])
    obtain ⟨hnext, hcount⟩ := handle_fatal hbelow hmc hsev (by simp [hstate])
    by_cases hd : threshold mc ≤ (se.count e.sourceMonitor).toNat + 1
    · rw [if_pos hd, hstate] at hnext
      rw [List.map_cons, Runs.run_cons]
      exact fatal_stays hnext hrest
    · simp only [hstate, hd, if_false, reduceCtorEq] at hnext hcount
      refine ih (hbelow.act (.event e)) (by rwa [config_act]) hnext hrest ?_
      simp only [List.length_cons] at hdue
      simp only [act, hcount]
      omega

theorem fatal_refused (hbelow : CountersBelow se) (hmc : findConfig se.config source = some mc)
    (hstate : se.currentState = .suspect ∨ se.currentState = .warn) (hev : FatalFrom source events) :
    (Runs.run act se (events.map .event)).currentState = se.currentState := by
  induction events generalizing se with
  | nil => rfl
  | cons e rest ih =>
    obtain ⟨rfl, hsev⟩ := hev e (by simp)
    have hne : se.currentState ≠ .fatal := by rcases hstate with h | h <;> simp [h]
    have hrun : se.currentState ≠ .running := by rcases hstate with h | h <;> simp [h]
    have hsame : (handle e se).currentState = se.currentState := by
      rw [(handle_fatal hbelow hmc hsev hne).1, enter_fatal hstate, if_neg hrun, ite_self]
    exact (ih (hbelow.act (.event e)) (by rwa [config_act]) (by simpa only [act, hsame] using hstate)
      (fun x hx => hev x (by simp [hx]))).trans hsame

theorem fatal_from_running (hbelow : CountersBelow se) (hmc : findConfig se.config source = some mc)
    (hstate : se.currentState = .running) (hev : FatalFrom source events) (hne : events ≠ []) :
    (Runs.run act se (events.map .event)).currentState =
      if threshold mc ≤ (se.count source).toNat + 1 then .fatal else .suspect := by
  cases events with
  | nil => exact absurd rfl hne
  | cons e rest =>
    obtain ⟨rfl, hsev⟩ := hev e (by simp)
    have hrest : FatalFrom e.sourceMonitor rest := fun x hx => hev x (by simp [hx])
    have hnext := (handle_fatal hbelow hmc hsev (by simp [hstate])).1
    by_cases hd : threshold mc ≤ (se.count e.sourceMonitor).toNat + 1
    · rw [if_pos hd]
      rw [if_pos hd, hstate] at hnext
      rw [List.map_cons, Runs.run_cons]
      exact fatal_stays hnext hrest
    · rw [if_neg hd]
      simp only [hstate, hd, if_false, if_true] at hnext
      rw [List.map_cons, Runs.run_cons]
      exact (fatal_refused (hbelow.act (.event e)) (by rwa [config_act]) (.inl hnext) hrest).trans
        hnext

end

section
variable {μ ε : Type} [IMonitor μ ε]

theorem fatal_after_threshold (cfg : SEConfig) (ops : List (EntityOp μ ε)) (source : String)
    (mc : MonitorConfig) (hmc : findConfig cfg source = some mc) (events : List PhmEvent)
    (hlen : events.length = threshold mc) (hev : FatalFrom source events) :
    let se := Runs.run apply (new cfg) ops
    (se.currentState = .error → (submit se events).currentState = .fatal) ∧
      (se.currentState = .running → (submit se events).currentState =
        if threshold mc ≤ (se.count source).toNat + 1 then .fatal else .suspect) ∧
      (se.currentState = .suspect ∨ se.currentState = .warn →
        (submit se events).currentState = se.currentState) := by
  intro se
  have hbelow : CountersBelow se.core := countersBelow_run (countersBelow_new cfg) ops
  have hconfig : findConfig se.core.config source = some mc := by
    rw [← hmc]
    exact congrArg (findConfig · source) (config_run (new cfg) ops)
  have hne : events ≠ [] := List.ne_nil_of_length_pos (hlen ▸ threshold_pos mc)
  have hcore : (submit se events).currentState =
      (Runs.run act se.core (events.map .event)).currentState :=
    congrArg (fun t : SupervisedEntity Empty => t.currentState) (core_submit se events)
  rw [hcore]
  exact ⟨fun h => fatal_from_error hbelow hconfig h hev (by omega),
    fun h => fatal_from_running hbelow hconfig h hev hne,
    fun h => fatal_refused hbelow hconfig h hev⟩

theorem fatal_from_error_once :
    let cfg : SEConfig := { monitors := [{ debounceCount := 2 }, { type := .resource, debounceCount := 3 }] }
    let failed : PhmEvent := { sourceMonitor := "custom", severity := .error }
    let fatal : PhmEvent := { sourceMonitor := "custom", severity := .fatal }
    let se : SupervisedEntity ReportingMonitor :=
      Runs.run apply (new cfg) [.start fun _ => {}, .onMonitorEvent failed, .onMonitorEvent failed]
    se.currentState = .error ∧ (submit se [fatal, fatal]).currentState = .fatal := by
  intro cfg failed fatal se
  have herror : se.currentState = .error := by decide
  exact ⟨herror, (fatal_after_threshold cfg _ "custom" _ rfl [fatal, fatal] (by decide)
    (by simp [FatalFrom, fatal])).1 herror⟩

theorem fatal_lost_in_suspect :
    let cfg : SEConfig := { monitors := [{ debounceCount := 2 }] }
    let fatal : PhmEvent := { sourceMonitor := "custom", severity := .fatal }
    let se : SupervisedEntity ReportingMonitor := Runs.run apply (new cfg) [.start fun _ => {}]
    ∃ mc, findConfig cfg "custom" = some mc ∧ threshold mc = 2 ∧ se.currentState = .running ∧
      (submit se [fatal, fatal]).currentState ≠ .fatal :=
  ⟨_, rfl, by decide, by decide, by decide⟩

theorem fresh_entity_never_debounces (cfg : SEConfig) (source : String) (mc : MonitorConfig)
    (severity : Severity) (hsev : severity ∈ [.warning, .error, .critical]) (events : List PhmEvent)
    (hev : ∀ e ∈ events, e.sourceMonitor = source ∧ e.severity = severity) :
    (submit (new cfg : SupervisedEntity μ) events).currentState ≠
      if events.length < threshold mc then .suspect else seStateFromSeverity severity := by
  have hfault : severity ≠ .info := by
    rintro rfl
    simp at hsev
  have hinit := init_of_faults events (new cfg : SupervisedEntity μ).core rfl
    (fun e he => (hev e he).2 ▸ hfault)
  rw [← core_submit] at hinit
  rw [show (submit (new cfg : SupervisedEntity μ) events).currentState = .init from hinit]
  split_ifs
  · simp
  · revert hsev
    cases severity <;> simp [seStateFromSeverity]

end

theorem fresh_entity_refuses_error :
    let cfg : SEConfig := { monitors := [{ debounceCount := 3 }, { type := .resource, debounceCount := 2 }] }
    let fault : PhmEvent := { sourceMonitor := "resource", severity := .critical }
    (submit (new cfg : SupervisedEntity ReportingMonitor) [fault]).currentState ≠ .suspect ∧
      (submit (new cfg : SupervisedEntity ReportingMonitor) [fault, fault, fault]).currentState ≠ .error := by
  intro cfg fault
  have hnever (events : List PhmEvent) (hevents : ∀ e ∈ events, e = fault) :=
    @fresh_entity_never_debounces ReportingMonitor cfg "resource" { type := .resource, debounceCount := 2 } .critical
      (by decide) events fun e he => by rw [hevents e he]; exact ⟨rfl, rfl⟩
  exact ⟨hnever [fault] (by simp), hnever [fault, fault, fault] (by simp)⟩

theorem fresh_entity_stays_init :
    let cfg : SEConfig := { monitors := [{ debounceCount := 3 }] }
    let fault : PhmEvent := { sourceMonitor := "custom", severity := .error }
    let se : SupervisedEntity ReportingMonitor := new cfg
    ∃ mc, findConfig cfg "custom" = some mc ∧ threshold mc = 3 ∧
      (submit se [fault]).currentState ≠ .suspect ∧
      (submit se [fault, fault, fault]).currentState ≠ .error :=
  ⟨_, rfl, by decide, by decide, by decide⟩

end PlatformHealth
