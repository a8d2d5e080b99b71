import PlatformHealth.Entity.Refusal
import PlatformHealth.Entity.Reports
import PlatformHealth.Library.Periodic

namespace PlatformHealth

open SupervisedEntity Periodic

def Fatal (e : PhmEvent) : Prop := e.severity = .fatal

theorem submit_mono (es : List PhmEvent) (se : SupervisedEntity Empty)
    (hfault : ∀ e ∈ es, e.severity ≠ .info) :
    seStateToIndex se.currentState ≤
      seStateToIndex (Runs.run act se (es.map .event)).currentState := by
  induction es generalizing se with
  | nil => rfl
  | cons e rest ih =>
    exact (handle_mono (hfault e (by simp)) se).trans
      (ih (handle e se) (fun x hx => hfault x (by simp [hx])))

structure Calm (se : SupervisedEntity Empty) : Prop where
  below : CountersBelow se
  state : se.currentState = .running ∨ se.currentState = .suspect
  zero : se.currentState = .running →
    ∀ source mc, findConfig se.config source = some mc → (se.count source).toNat = 0

section
variable {se : SupervisedEntity Empty} {e : PhmEvent} {mc : MonitorConfig}

theorem Calm.le_suspect (h : Calm se) : seStateToIndex se.currentState ≤ seStateToIndex .suspect := by
  rcases h.state with hs | hs <;> simp [hs, seStateToIndex]

theorem Calm.lt_target (h : Calm se) (hsev : e.severity ≠ .info) :
    seStateToIndex se.currentState < seStateToIndex (seStateFromSeverity e.severity) :=
  h.le_suspect.trans_lt (warn_le_seStateFromSeverity hsev)

theorem Calm.counts (h : Calm se) (hmc : findConfig se.config e.sourceMonitor = some mc)
    (hsev : e.severity ≠ .info) (hd : (se.count e.sourceMonitor).toNat + 1 < threshold mc) :
    Calm (handle e se) := by
  have hnext := (handle_counts h.below hmc hsev (h.lt_target hsev) hd).1
  have hsuspect : (handle e se).currentState = .suspect := by
    rcases h.state with hs | hs <;> simpa [hs] using hnext
  exact ⟨h.below.act (.event e), .inr hsuspect, by simp [hsuspect]⟩

theorem Calm.suspect_of_due (h : Calm se) (hmc : findConfig se.config e.sourceMonitor = some mc)
    (hone : threshold mc ≠ 1) (hd : threshold mc ≤ (se.count e.sourceMonitor).toNat + 1) :
    se.currentState = .suspect := by
  rcases h.state with hs | hs
  · have hzero := h.zero hs _ _ hmc
    have hpos := threshold_pos mc
    omega
  · exact hs

theorem Calm.refuses (h : Calm se) (hmc : findConfig se.config e.sourceMonitor = some mc)
    (hone : threshold mc ≠ 1) (hd : threshold mc ≤ (se.count e.sourceMonitor).toNat + 1)
    (hsev : e.severity = .fatal) : Calm (handle e se) := by
  have hfault : e.severity ≠ .info := by simp [hsev]
  have hnext := (handle_confirms h.below hmc hfault (h.lt_target hfault) hd).1
  have hsuspect : (handle e se).currentState = .suspect := by
    rw [hnext, h.suspect_of_due hmc hone hd, hsev]
    exact enter_fatal (.inl rfl)
  exact ⟨h.below.act (.event e), .inr hsuspect, by simp [hsuspect]⟩

theorem Calm.confirms (h : Calm se) (hmc : findConfig se.config e.sourceMonitor = some mc)
    (hone : threshold mc ≠ 1) (hd : threshold mc ≤ (se.count e.sourceMonitor).toNat + 1)
    (hsev : e.severity ≠ .info) (hnot : e.severity ≠ .fatal) :
    seStateToIndex .warn ≤ seStateToIndex (handle e se).currentState := by
  have hnext := (handle_confirms h.below hmc hsev (h.lt_target hsev) hd).1
  rw [h.suspect_of_due hmc hone hd] at hnext
  rw [hnext]
  revert hsev hnot
  cases e.severity <;> decide

end

def NthFatal (se : SupervisedEntity Empty) (es : List PhmEvent) : Prop :=
  ∀ source mc, findConfig se.config source = some mc →
    EveryNth (threshold mc) (se.count source).toNat Fatal (es.filter (·.sourceMonitor = source))

theorem everyNth_other {n c : Nat} {source : String} {e : PhmEvent} {rest : List PhmEvent}
    (h : source ≠ e.sourceMonitor) :
    EveryNth n c Fatal ((e :: rest).filter (·.sourceMonitor = source)) ↔
      EveryNth n c Fatal (rest.filter (·.sourceMonitor = source)) := by
  rw [List.filter_cons, if_neg (by simpa using h.symm)]

section
variable {se : SupervisedEntity Empty} {e : PhmEvent} {mc : MonitorConfig} {rest : List PhmEvent}

theorem nthFatal_of_unconfigured (h : findConfig se.config e.sourceMonitor = none) :
    NthFatal se (e :: rest) ↔ NthFatal se rest := by
  refine forall_congr' fun source => forall_congr' fun mc => imp_congr_right fun hsource => ?_
  refine everyNth_other ?_
  rintro rfl
  simp [h] at hsource

theorem nthFatal_cons (hmc : findConfig se.config e.sourceMonitor = some mc)
    (hcount : ((handle e se).count e.sourceMonitor).toNat ≡
      (se.count e.sourceMonitor).toNat + 1 [MOD threshold mc]) :
    NthFatal se (e :: rest) ↔
      (threshold mc ∣ (se.count e.sourceMonitor).toNat + 1 → Fatal e) ∧
        NthFatal (handle e se) rest := by
  have hcfg : (handle e se).config = se.config := config_act se (.event e)
  have hself : EveryNth (threshold mc) (se.count e.sourceMonitor).toNat Fatal
      ((e :: rest).filter (·.sourceMonitor = e.sourceMonitor)) ↔
      (threshold mc ∣ (se.count e.sourceMonitor).toNat + 1 → Fatal e) ∧
        EveryNth (threshold mc) ((handle e se).count e.sourceMonitor).toNat Fatal
          (rest.filter (·.sourceMonitor = e.sourceMonitor)) := by
    rw [List.filter_cons, if_pos (by simp), everyNth_cons, everyNth_congr hcount]
  constructor
  · intro h
    have hthis := hself.mp (h _ _ hmc)
    refine ⟨hthis.1, fun source mc' hsource => ?_⟩
    rw [hcfg] at hsource
    rcases eq_or_ne source e.sourceMonitor with rfl | hs
    · obtain rfl : mc = mc' := by simpa [hmc] using hsource
      exact hthis.2
    · rw [count_handle_of_ne se hs]
      exact (everyNth_other hs).mp (h _ _ hsource)
  · rintro ⟨hthis, h⟩ source mc' hsource
    rcases eq_or_ne source e.sourceMonitor with rfl | hs
    · obtain rfl : mc = mc' := by simpa [hmc] using hsource
      exact hself.mpr ⟨hthis, h _ _ (hcfg ▸ hmc)⟩
    · have hother := h source mc' (hcfg ▸ hsource)
      rw [count_handle_of_ne se hs] at hother
      exact (everyNth_other hs).mpr hother

end

theorem calm_iff (es : List PhmEvent) (se : SupervisedEntity Empty) (hcalm : Calm se)
    (hfault : ∀ e ∈ es, e.severity ≠ .info)
    (hone : ∀ e ∈ es, ∀ mc, findConfig se.config e.sourceMonitor = some mc → threshold mc ≠ 1) :
    seStateToIndex (Runs.run act se (es.map .event)).currentState ≤ seStateToIndex .suspect ↔
      NthFatal se es := by
  induction es generalizing se with
  | nil => exact iff_of_true hcalm.le_suspect (fun source mc _ => by simp)
  | cons e rest ih =>
    have hsev := hfault e (by simp)
    have hfaults : ∀ x ∈ rest, x.severity ≠ .info := fun x hx => hfault x (by simp [hx])
    have hones (se' : SupervisedEntity Empty) (hcfg : se'.config = se.config) : ∀ x ∈ rest, ∀ mc,
        findConfig se'.config x.sourceMonitor = some mc → threshold mc ≠ 1 := by
      rw [hcfg]
      exact fun x hx => hone x (by simp [hx])
    rw [List.map_cons, Runs.run_cons, act]
    cases hmc : findConfig se.config e.sourceMonitor with
    | none => rw [handle_none hmc, ih se hcalm hfaults (hones se rfl), nthFatal_of_unconfigured hmc]
    | some mc =>
      have hcfg : (handle e se).config = se.config := config_act se (.event e)
      have hN := hone e (by simp) mc hmc
      have hbelow := hcalm.below _ _ hmc
      rcases Nat.lt_or_ge ((se.count e.sourceMonitor).toNat + 1) (threshold mc) with hd | hd
      · have hstep := (handle_counts hcalm.below hmc hsev (hcalm.lt_target hsev) hd).2
        have hnot : ¬ threshold mc ∣ (se.count e.sourceMonitor).toNat + 1 := fun hdvd =>
          absurd (Nat.le_of_dvd (by omega) hdvd) (not_le.mpr hd)
        rw [ih (handle e se) (hcalm.counts hmc hsev hd) hfaults (hones _ hcfg),
          nthFatal_cons hmc (by rw [hstep])]
        simp [hnot]
      · have heq : threshold mc = (se.count e.sourceMonitor).toNat + 1 := by omega
        have hzero := (handle_confirms hcalm.below hmc hsev (hcalm.lt_target hsev) hd).2
        rw [nthFatal_cons hmc (by rw [hzero, ← heq]; simp [Nat.ModEq])]
        by_cases hfatal : e.severity = .fatal
        · rw [ih (handle e se) (hcalm.refuses hmc hN hd hfatal) hfaults (hones _ hcfg)]
          exact (and_iff_right fun _ => hfatal).symm
        · have hup := (hcalm.confirms hmc hN hd hsev hfatal).trans
            (submit_mono rest (handle e se) hfaults)
          refine iff_of_false (not_le.mpr (Nat.lt_of_lt_of_le (by decide) hup)) fun h => ?_
          exact hfatal (h.1 (heq ▸ dvd_rfl))

section
variable (cfg : SEConfig) (mons : List ReportingMonitor) (readings : Nat → Report)

def started : ReportingEntity :=
  (Runs.run apply (new cfg) (mons.map fun m => .registerMonitor (some m))).apply (.start readings)

def severities (ticks : List (Nat → Report)) (i : Nat) : List Severity :=
  ticks.filterMap fun r => (r i).fault.map (·.event.severity)

def faultyChecks (ticks : List (Nat → Report)) (i : Nat) : List Bool :=
  ticks.map fun r => (r i).fault.isSome

def ticksEvents (ts : List MonitorType) (ticks : List (Nat → Report)) : List PhmEvent :=
  ticks.flatMap fun r => eventsOf r 0 ts

theorem nodup_started : (types (started cfg mons readings)).Nodup := by
  rw [started, types_start]
  refine Runs.run_invariant_of_mem (P := fun se => (types se).Nodup) ?_ (by simp [types, new])
  intro se op hop hse
  obtain ⟨m, -, rfl⟩ := List.mem_map.mp hop
  exact nodup_registerMonitor hse (some m)

theorem core_registered : (Runs.run apply (new cfg) (mons.map fun m =>
    EntityOp.registerMonitor (ε := Report) (some m))).core = (new cfg : ReportingEntity).core := by
  refine Runs.run_eq_of_each core _ ?_ (new cfg)
  intro se op hop
  obtain ⟨m, -, rfl⟩ := List.mem_map.mp hop
  exact core_apply se (.registerMonitor (some m))

theorem core_started : (started cfg mons readings).core = (new cfg : ReportingEntity).core ∨
    (started cfg mons readings).core = (new cfg : ReportingEntity).core.act .started := by
  rw [started, core_apply, core_registered, actions]
  split
  · exact .inr rfl
  · exact .inl rfl

theorem config_started : (started cfg mons readings).config = cfg := by
  rcases core_started cfg mons readings with h | h <;>
    exact congrArg (fun t : SupervisedEntity Empty => t.config) h

theorem count_started (source : String) : (started cfg mons readings).core.count source = 0 := by
  rcases core_started cfg mons readings with h | h <;> rw [h] <;>
    exact count_new (μ := ReportingMonitor) cfg source

theorem state_started : (started cfg mons readings).currentState = .init ∨
    (started cfg mons readings).currentState = .running := by
  rcases core_started cfg mons readings with h | h
  · exact .inl (congrArg (fun t : SupervisedEntity Empty => t.currentState) h)
  · exact .inr (congrArg (fun t : SupervisedEntity Empty => t.currentState) h)

theorem calm_started (h : (started cfg mons readings).currentState = .running) :
    Calm (started cfg mons readings).core := by
  refine ⟨fun source mc _ => ?_, .inl h, fun _ source mc _ => ?_⟩
  · rw [count_started]
    exact threshold_pos mc
  · rw [count_started]
    rfl

end

theorem faulty_ticksEvents (ts : List MonitorType) (ticks : List (Nat → Report)) :
    ∀ e ∈ ticksEvents ts ticks, e.severity ≠ .info := by
  intro e he
  obtain ⟨r, -, hmem⟩ := List.mem_flatMap.mp he
  exact faulty_eventsOf r 0 ts e hmem

theorem filter_ticksEvents {ts : List MonitorType} (hnodup : ts.Nodup) {j : Nat} {type : MonitorType}
    (hj : ts[j]? = some type) (ticks : List (Nat → Report)) :
    ((ticksEvents ts ticks).filter (·.sourceMonitor = monitorTypeToString type)).map (·.severity) =
      severities ticks j := by
  induction ticks with
  | nil => rfl
  | cons r rest ih =>
    have hcons : ticksEvents ts (r :: rest) = eventsOf r 0 ts ++ ticksEvents ts rest := rfl
    have hhead : (eventsOf r 0 ts).filter (·.sourceMonitor = monitorTypeToString type) =
        (faultEvent type (r (0 + j))).toList := filter_eventsOf hnodup 0 j hj
    rw [hcons, List.filter_append, hhead, List.map_append, ih, Nat.zero_add, severities, severities,
      List.filterMap_cons]
    cases h : (r j).fault with
    | none => simp [faultEvent, h]
    | some f => simp [faultEvent, h]

theorem filter_ticksEvents_of_notMem {ts : List MonitorType} {source : String}
    (h : ∀ type ∈ ts, monitorTypeToString type ≠ source) (ticks : List (Nat → Report)) :
    (ticksEvents ts ticks).filter (·.sourceMonitor = source) = [] := by
  induction ticks with
  | nil => rfl
  | cons r rest ih =>
    rw [ticksEvents, List.flatMap_cons, List.filter_append, filter_eventsOf_of_notMem h]
    exact ih

theorem currentState_ticks (se : ReportingEntity) (ticks : List (Nat → Report)) :
    (Runs.run apply se (ticks.map .checkAll)).currentState =
      (Runs.run act se.core ((ticksEvents (types se) ticks).map .event)).currentState := by
  have h := core_run se (ticks.map .checkAll)
  rw [trace_ticks] at h
  exact congrArg (fun t : SupervisedEntity Empty => t.currentState) h

theorem always_low_iff (se : ReportingEntity) (ticks : List (Nat → Report)) :
    Runs.Always apply (fun se => seStateToIndex se.currentState ≤ seStateToIndex .suspect) se
        (ticks.map .checkAll) ↔
      seStateToIndex (Runs.run apply se (ticks.map .checkAll)).currentState ≤
        seStateToIndex .suspect := by
  constructor
  · intro h
    exact (Runs.always_iff_prefix _ _).mp h _ List.prefix_rfl
  · intro h
    induction ticks generalizing se with
    | nil => exact h
    | cons r rest ih =>
      refine ⟨?_, ih (se.apply (.checkAll r)) h⟩
      have hup := submit_mono (ticksEvents (types se) (r :: rest)) se.core (faulty_ticksEvents _ _)
      rw [← currentState_ticks] at hup
      exact hup.trans h

section
variable (cfg : SEConfig) (mons : List ReportingMonitor) (readings : Nat → Report)
  (ticks : List (Nat → Report))

def NeverConfirmedInARow : Prop :=
  ∀ i mon mc, (started cfg mons readings).monitors[i]? = some mon →
    findConfig cfg (IMonitor.name mon) = some mc →
      ¬ List.replicate (threshold mc) true <:+: faultyChecks ticks i

def NthFaultsFatal : Prop :=
  ∀ i mon mc, (started cfg mons readings).monitors[i]? = some mon →
    findConfig cfg (IMonitor.name mon) = some mc →
      EveryNth (threshold mc) 0 (· = .fatal) (severities ticks i)

variable {cfg mons readings ticks}

theorem threshold_ne_one (h : NeverConfirmedInARow cfg mons readings ticks) {e : PhmEvent}
    (he : e ∈ ticksEvents (types (started cfg mons readings)) ticks) {mc : MonitorConfig}
    (hmc : findConfig cfg e.sourceMonitor = some mc) : threshold mc ≠ 1 := by
  obtain ⟨r, hr, hmem⟩ := List.mem_flatMap.mp he
  obtain ⟨j, type, hj, hsource, hfault⟩ := source_eventsOf hmem
  obtain ⟨mon, hmon, rfl⟩ : ∃ mon, (started cfg mons readings).monitors[j]? = some mon ∧
      mon.type = type := by simpa [types] using hj
  intro hone
  rw [hsource] at hmc
  refine h j mon mc hmon hmc ?_
  have hchecked : true ∈ faultyChecks ticks j := List.mem_map.mpr ⟨r, hr, by simpa using hfault⟩
  obtain ⟨before, after, heq⟩ := List.append_of_mem hchecked
  rw [hone, heq]
  exact ⟨before, after, by simp⟩

theorem nthFaultsFatal_iff : NthFaultsFatal cfg mons readings ticks ↔
    ∀ source mc, findConfig cfg source = some mc → EveryNth (threshold mc) 0 Fatal
      ((ticksEvents (types (started cfg mons readings)) ticks).filter
        (·.sourceMonitor = source)) := by
  have hnodup := nodup_started cfg mons readings
  have hmap (mc : MonitorConfig) {j : Nat} {mon : ReportingMonitor}
      (hj : (started cfg mons readings).monitors[j]? = some mon) :
      EveryNth (threshold mc) 0 (· = .fatal) (severities ticks j) ↔
        EveryNth (threshold mc) 0 Fatal
          ((ticksEvents (types (started cfg mons readings)) ticks).filter
            (·.sourceMonitor = IMonitor.name mon)) := by
    have htype : (types (started cfg mons readings))[j]? = some mon.type := by simp [types, hj]
    rw [← filter_ticksEvents hnodup htype ticks, everyNth_map]
    rfl
  constructor
  · intro h source mc hmc
    by_cases hmem : ∃ type ∈ types (started cfg mons readings), monitorTypeToString type = source
    · obtain ⟨type, htype, rfl⟩ := hmem
      obtain ⟨mon, hmon, rfl⟩ := List.mem_map.mp htype
      obtain ⟨j, hj⟩ := List.mem_iff_getElem?.mp hmon
      exact (hmap mc hj).mp (h j mon mc hj hmc)
    · rw [filter_ticksEvents_of_notMem fun type htype heq => hmem ⟨type, htype, heq⟩]
      exact everyNth_nil
  · intro h j mon mc hj hmc
    exact (hmap mc hj).mpr (h _ mc hmc)

theorem never_confirms_iff (hsparse : NeverConfirmedInARow cfg mons readings ticks) :
    Runs.Always apply (fun se => se.currentState ∉ [.warn, .error, .fatal])
        (started cfg mons readings) (ticks.map .checkAll) ↔
      (started cfg mons readings).currentState = .init ∨
        NthFaultsFatal cfg mons readings ticks := by
  have hlow (s : SeState) : s ∉ [.warn, .error, .fatal] ↔
      seStateToIndex s ≤ seStateToIndex .suspect := by cases s <;> decide
  simp only [hlow]
  rw [always_low_iff, currentState_ticks]
  rcases state_started cfg mons readings with hinit | hrun
  · refine iff_of_true ?_ (.inl hinit)
    rw [init_of_faults _ _ hinit (faulty_ticksEvents _ _)]
    decide
  · rw [calm_iff _ _ (calm_started _ _ _ hrun) (faulty_ticksEvents _ _)
      (fun e he mc hmc => threshold_ne_one hsparse he (by simpa [config_started] using hmc))]
    simp only [hrun, reduceCtorEq, false_or, nthFaultsFatal_iff, NthFatal, core_config,
      config_started, count_started, UInt32.toNat_zero]

theorem one_fault_never_confirms :
    let cfg : SEConfig := { monitors := [{ debounceCount := 3 }, { type := .resource, debounceCount := 2 }] }
    let mons : List ReportingMonitor := [{ type := .custom }]
    let fault : Nat → Report := fun _ => { fault := some ⟨{ id := "f", severity := .error }, by decide⟩ }
    let ticks : List (Nat → Report) := [fault, fun _ => {}, fault]
    Runs.Always apply (fun se => se.currentState ∉ [.warn, .error, .fatal])
        (started cfg mons fun _ => {}) (ticks.map .checkAll) := by
  intro cfg mons fault ticks
  have hfirst {i : Nat} {mon : ReportingMonitor} {mc : MonitorConfig}
      (hmon : (started cfg mons fun _ => {}).monitors[i]? = some mon)
      (hmc : findConfig cfg (IMonitor.name mon) = some mc) : i = 0 ∧ threshold mc = 3 := by
    cases i with
    | zero =>
      obtain rfl : mon = _ := (Option.some.inj hmon).symm
      obtain rfl : mc = _ := (Option.some.inj hmc).symm
      decide
    | succ i => exact nomatch (show (none : Option ReportingMonitor) = some mon from hmon)
  have hsparse : NeverConfirmedInARow cfg mons (fun _ => {}) ticks := by
    intro i mon mc hmon hmc
    obtain ⟨rfl, hthreshold⟩ := hfirst hmon hmc
    rw [hthreshold]
    decide
  refine (never_confirms_iff hsparse).mpr (.inr fun i mon mc hmon hmc k x hx hdvd => ?_)
  obtain ⟨rfl, hthreshold⟩ := hfirst hmon hmc
  rw [hthreshold] at hdvd
  have hfew : k < 2 := (List.getElem?_eq_some_iff.mp hx).1
  omega

theorem confirmed_by_separate_faults :
    let cfg : SEConfig := { monitors := [{ debounceCount := 2 }] }
    let mons : List ReportingMonitor := [{ type := .custom }]
    let fault : Nat → Report := fun _ => { fault := some ⟨{ id := "f", severity := .error }, by decide⟩ }
    let ticks : List (Nat → Report) := [fault, fun _ => {}, fault]
    NeverConfirmedInARow cfg mons (fun _ => {}) ticks ∧
      (Runs.run apply (started cfg mons fun _ => {}) (ticks.map .checkAll)).currentState ∈
        [.warn, .error, .fatal] := by
  refine ⟨?_, by decide⟩
  intro i mon mc hmon hmc
  cases i with
  | zero =>
    obtain rfl : mon = _ := (Option.some.inj hmon).symm
    obtain rfl : mc = _ := (Option.some.inj hmc).symm
    decide
  | succ i => exact nomatch (show (none : Option ReportingMonitor) = some mon from hmon)

end

end PlatformHealth
