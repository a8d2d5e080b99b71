import PlatformHealth.Entity.Answers
import PlatformHealth.Entity.Counters
import PlatformHealth.Library.Confluence

namespace PlatformHealth

structure Vote where
  target : SeState
  due : Bool
deriving DecidableEq, Repr

def settle (s : SeState) : Option Vote → SeState
  | none => s
  | some v =>
    if seStateToIndex s < seStateToIndex v.target then
      if v.due then enter s v.target else if s = .running then .suspect else s
    else s

def Fault : Option Vote → Prop
  | none => True
  | some v => v.target = .warn ∨ v.target = .error ∨ v.target = .fatal

instance (v : Option Vote) : Decidable (Fault v) := by
  cases v <;> unfold Fault <;> infer_instance

def dueFatal : Option Vote := some ⟨.fatal, true⟩

def dueError : Option Vote := some ⟨.error, true⟩

def OrderFree (s : SeState) (votes : List (Option Vote)) : Prop :=
  match s with
  | .running => dueFatal ∉ votes ∨ ∀ v ∈ votes, v = none ∨ v = dueError ∨ v = dueFatal
  | .suspect | .warn => dueFatal ∉ votes ∨ dueError ∉ votes
  | _ => True

def gain : Option Vote → Nat
  | none => 0
  | some v => if v.due then seStateToIndex v.target else seStateToIndex .suspect

section
variable {s : SeState} {v : Option Vote}

theorem rank_settle_of_calm (hs : s ≠ .init) (hv : Fault v) (hcalm : v ≠ dueFatal) :
    seStateToIndex (settle s v) = seStateToIndex s ⊔ gain v := by
  rcases v with _ | ⟨t, d⟩
  · simp [settle, gain]
  · cases s <;> cases t <;> cases d <;> first | rfl | simp_all [Fault, dueFatal]

theorem settle_ne_init (hs : s ≠ .init) (v : Option Vote) : settle s v ≠ .init := by
  rcases v with _ | ⟨t, d⟩
  · exact hs
  · cases s <;> cases t <;> cases d <;> first | decide | simp_all

theorem rank_settle_of_failed (hs : s = .error ∨ s = .fatal) (v : Option Vote) :
    seStateToIndex (settle s v) = seStateToIndex s ⊔ gain v ∧
      (settle s v = .error ∨ settle s v = .fatal) := by
  rcases v with _ | ⟨t, d⟩
  · simpa [settle, gain] using hs
  · rcases hs with rfl | rfl <;> cases t <;> cases d <;> decide

theorem rank_settle_of_decided (hs : s = .running ∨ s = .error ∨ s = .fatal)
    (hv : v = none ∨ v = dueError ∨ v = dueFatal) :
    seStateToIndex (settle s v) = seStateToIndex s ⊔ gain v ∧
      (settle s v = .running ∨ settle s v = .error ∨ settle s v = .fatal) := by
  rcases hv with rfl | rfl | rfl <;> rcases hs with rfl | rfl | rfl <;> decide

theorem rank_settle_of_doubt (hs : s = .suspect ∨ s = .warn) (hv : Fault v) (herr : v ≠ dueError) :
    seStateToIndex (settle s v) = seStateToIndex s ⊔ (if v = dueFatal then 0 else gain v) ∧
      (settle s v = .suspect ∨ settle s v = .warn) := by
  rcases v with _ | ⟨t, d⟩
  · simpa [settle, gain, dueFatal] using hs
  · rcases hs with rfl | rfl <;> cases t <;> cases d <;>
      first | decide | simp_all [Fault, dueError]

end

section
variable {s : SeState} {votes votes' : List (Option Vote)}

theorem settle_perm_of_failed (hs : s = .error ∨ s = .fatal) (hperm : votes.Perm votes') :
    Runs.run settle s votes = Runs.run settle s votes' :=
  Runs.run_perm_of_rank settle (M := fun _ => True)
    (fun _ v hs _ => (rank_settle_of_failed hs v).2)
    (fun _ v hs _ => (rank_settle_of_failed hs v).1) seStateToIndex_injective hperm (by simp) hs

variable (hfault : ∀ v ∈ votes, Fault v)
  (hperm : votes.Perm votes')
include hfault hperm

theorem settle_perm_of_calm (hs : s ≠ .init) (hcalm : dueFatal ∉ votes) :
    Runs.run settle s votes = Runs.run settle s votes' :=
  Runs.run_perm_of_rank settle (M := fun v => Fault v ∧ v ≠ dueFatal)
    (fun _ v hs _ => settle_ne_init hs v) (fun _ _ hs hv => rank_settle_of_calm hs hv.1 hv.2)
    seStateToIndex_injective hperm
    (fun v hv => ⟨hfault v hv, fun heq => hcalm (heq ▸ hv)⟩) hs

theorem settle_perm_of_doubt (hs : s = .suspect ∨ s = .warn) (herr : dueError ∉ votes) :
    Runs.run settle s votes = Runs.run settle s votes' :=
  Runs.run_perm_of_rank settle (M := fun v => Fault v ∧ v ≠ dueError)
    (fun _ _ hs hv => (rank_settle_of_doubt hs hv.1 hv.2).2)
    (fun _ _ hs hv => (rank_settle_of_doubt hs hv.1 hv.2).1) seStateToIndex_injective hperm
    (fun v hv => ⟨hfault v hv, fun heq => herr (heq ▸ hv)⟩) hs

theorem settle_perm (hs : s ≠ .init) (h : OrderFree s votes) :
    Runs.run settle s votes = Runs.run settle s votes' := by
  cases s with
  | init => exact absurd rfl hs
  | running =>
    rcases h with hcalm | hdecided
    · exact settle_perm_of_calm hfault hperm hs hcalm
    · exact Runs.run_perm_of_rank settle (fun _ _ hs hv => (rank_settle_of_decided hs hv).2)
        (fun _ _ hs hv => (rank_settle_of_decided hs hv).1) seStateToIndex_injective hperm hdecided
        (.inl rfl)
  | suspect =>
    rcases h with hcalm | herr
    · exact settle_perm_of_calm hfault hperm hs hcalm
    · exact settle_perm_of_doubt hfault hperm (.inl rfl) herr
  | warn =>
    rcases h with hcalm | herr
    · exact settle_perm_of_calm hfault hperm hs hcalm
    · exact settle_perm_of_doubt hfault hperm (.inr rfl) herr
  | error => exact settle_perm_of_failed (.inl rfl) hperm
  | fatal => exact settle_perm_of_failed (.inr rfl) hperm

end

section
variable {s : SeState} {votes : List (Option Vote)}

theorem run_fatal (votes : List (Option Vote)) : Runs.run settle .fatal votes = .fatal := by
  refine Runs.run_invariant (P := (· = SeState.fatal)) ?_ rfl votes
  rintro _ v rfl
  rcases v with _ | ⟨t, d⟩
  · rfl
  · cases t <;> rfl

theorem run_ne_fatal (hs : s ≠ .fatal) (hcalm : dueFatal ∉ votes) : Runs.run settle s votes ≠ .fatal := by
  refine Runs.run_invariant_of_mem (P := (· ≠ SeState.fatal)) ?_ hs
  intro t v hv ht
  have hne : v ≠ dueFatal := fun heq => hcalm (heq ▸ hv)
  rcases v with _ | ⟨u, d⟩
  · exact ht
  · cases t <;> cases u <;> cases d <;> first | decide | simp_all [dueFatal]

theorem run_error (hdue : dueFatal ∈ votes) : Runs.run settle .error votes = .fatal := by
  induction votes with
  | nil => simp at hdue
  | cons v vs ih =>
    rw [Runs.run_cons]
    rcases (rank_settle_of_failed (.inl rfl) v).2 with herror | hfatal
    · have hne : dueFatal ≠ v := by
        rintro rfl
        exact absurd herror (by decide)
      rw [herror]
      exact ih (by simpa [hne] using hdue)
    · rw [hfatal, run_fatal]

theorem refused_order (hs : s = .suspect ∨ s = .warn) (votes : List (Option Vote)) :
    ∃ votes', votes.Perm votes' ∧ Runs.run settle s votes' ≠ .fatal := by
  refine ⟨_, (List.filter_append_perm (· = dueFatal) votes).symm, ?_⟩
  have hrefused : Runs.run settle s (votes.filter (· = dueFatal)) = s := by
    refine Runs.run_invariant_of_mem (P := (· = s)) ?_ rfl
    rintro t v hv rfl
    obtain rfl : v = dueFatal := by simpa using (List.mem_filter.mp hv).2
    rcases hs with rfl | rfl <;> rfl
  rw [Runs.run_append, hrefused]
  refine run_ne_fatal ?_ (by simp)
  rcases hs with rfl | rfl <;> decide

theorem orders_differ (hfault : ∀ v ∈ votes, Fault v) (h : ¬ OrderFree s votes) :
    (∃ votes', votes.Perm votes' ∧ Runs.run settle s votes' = .fatal) ∧
      ∃ votes', votes.Perm votes' ∧ Runs.run settle s votes' ≠ .fatal := by
  have hdoubt (hs : s = .suspect ∨ s = .warn) (hfatal : dueFatal ∈ votes) (herr : dueError ∈ votes) :
      (∃ votes', votes.Perm votes' ∧ Runs.run settle s votes' = .fatal) ∧
        ∃ votes', votes.Perm votes' ∧ Runs.run settle s votes' ≠ .fatal := by
    refine ⟨⟨_, List.perm_cons_erase herr, ?_⟩, refused_order hs votes⟩
    have hstep : settle s dueError = .error := by rcases hs with rfl | rfl <;> rfl
    rw [Runs.run_cons, hstep]
    exact run_error ((List.mem_erase_of_ne (by decide)).mpr hfatal)
  cases s with
  | running =>
    obtain ⟨hfatal, v, hv, hnone, herror, hnot⟩ : dueFatal ∈ votes ∧
        ∃ v ∈ votes, v ≠ none ∧ v ≠ dueError ∧ v ≠ dueFatal := by
      simpa [OrderFree] using h
    refine ⟨⟨_, List.perm_cons_erase hfatal, run_fatal _⟩, ?_⟩
    have hstep : settle .running v = .suspect ∨ settle .running v = .warn := by
      have hf := hfault v hv
      rcases v with _ | ⟨t, d⟩
      · exact absurd rfl hnone
      · cases t <;> cases d <;> simp_all [Fault, dueError, dueFatal] <;> decide
    obtain ⟨rest, hperm, hrun⟩ := refused_order hstep (votes.erase v)
    exact ⟨v :: rest, (List.perm_cons_erase hv).trans (hperm.cons v), hrun⟩
  | suspect =>
    obtain ⟨hfatal, herr⟩ : dueFatal ∈ votes ∧ dueError ∈ votes := by simpa [OrderFree] using h
    exact hdoubt (.inl rfl) hfatal herr
  | warn =>
    obtain ⟨hfatal, herr⟩ : dueFatal ∈ votes ∧ dueError ∈ votes := by simpa [OrderFree] using h
    exact hdoubt (.inr rfl) hfatal herr
  | _ => exact absurd trivial h

end

namespace SupervisedEntity

variable {μ ε : Type} [IMonitor μ ε]

def vote (se : SupervisedEntity μ) (event : PhmEvent) : Option Vote :=
  (findConfig se.config event.sourceMonitor).map fun mc =>
    ⟨seStateFromSeverity event.severity,
      decide (debounceOf mc ≤ se.count event.sourceMonitor + 1)⟩

section
variable {event : PhmEvent} (hsev : event.severity ≠ .info) (se : SupervisedEntity μ)
include hsev

theorem fault_vote : Fault (se.vote event) := by
  cases h : findConfig se.config event.sourceMonitor with
  | none => simp [vote, h, Fault]
  | some mc => cases hs : event.severity <;> simp_all [vote, Fault, seStateFromSeverity]

theorem currentState_handle_vote :
    (handle event se).currentState = settle se.currentState (se.vote event) := by
  cases h : findConfig se.config event.sourceMonitor with
  | none => simp [handle_none h, vote, h, settle]
  | some mc =>
    have hne := seStateFromSeverity_ne_running hsev
    rw [currentState_handle h]
    simp only [verdict, hne, if_false, vote, h, Option.map_some, settle, decide_eq_true_eq]
    split
    · split <;> rfl
    · rfl

end

theorem vote_handle_of_ne {event other : PhmEvent} (se : SupervisedEntity μ)
    (hne : other.sourceMonitor ≠ event.sourceMonitor) :
    (handle event se).vote other = se.vote other := by
  have hcfg : (handle event se).config = se.config := config_act se (.event event)
  simp only [vote, hcfg, count_handle_of_ne se hne]

theorem currentState_events {events : List PhmEvent} (hfault : ∀ e ∈ events, e.severity ≠ .info)
    (hsources : (events.map (·.sourceMonitor)).Nodup) (se : SupervisedEntity μ) :
    (Runs.run act se (events.map .event)).currentState =
      Runs.run settle se.currentState (events.map se.vote) := by
  induction events generalizing se with
  | nil => rfl
  | cons e rest ih =>
    obtain ⟨hnew, hrest⟩ := List.nodup_cons.mp hsources
    have hvotes : rest.map (handle e se).vote = rest.map se.vote := by
      refine List.map_congr_left fun other hmem => vote_handle_of_ne se fun heq => hnew ?_
      exact List.mem_map.mpr ⟨other, hmem, heq⟩
    rw [List.map_cons, Runs.run_cons, ih (fun x hx => hfault x (by simp [hx])) hrest, act, hvotes,
      currentState_handle_vote (hfault e (by simp))]
    rfl

structure FaultTick (se : SupervisedEntity μ) (readings : Nat → ε) : Prop where
  returns : ∀ p ∈ answers readings 0 se.monitors, Returns p
  faults : ∀ e ∈ processed readings 0 se.monitors, e.severity ≠ .info
  sources : ((processed readings 0 se.monitors).map (·.sourceMonitor)).Nodup

structure Reordered (se : SupervisedEntity μ) (readings : Nat → ε) (se' : SupervisedEntity μ)
    (readings' : Nat → ε) : Prop where
  core : se'.core = se.core
  answers : (answers readings 0 se.monitors).Perm (answers readings' 0 se'.monitors)

section
variable {se se' : SupervisedEntity μ} {readings readings' : Nat → ε}

theorem FaultTick.reordered (h : FaultTick se readings) (hr : Reordered se readings se' readings') :
    FaultTick se' readings' ∧
      (processed readings 0 se.monitors).Perm (processed readings' 0 se'.monitors) := by
  have hreturns : ∀ p ∈ SupervisedEntity.answers readings' 0 se'.monitors, Returns p :=
    fun p hp => h.returns p (hr.answers.mem_iff.mpr hp)
  have hperm : (processed readings 0 se.monitors).Perm (processed readings' 0 se'.monitors) := by
    rw [processed_of_returns h.returns, processed_of_returns hreturns]
    exact hr.answers.filterMap reported
  exact ⟨⟨hreturns, fun e he => h.faults e (hperm.mem_iff.mpr he),
    (hperm.map _).nodup_iff.mp h.sources⟩, hperm⟩

theorem currentState_checkAll (h : FaultTick se readings) :
    (se.apply (.checkAll readings)).currentState =
      Runs.run settle se.currentState ((processed readings 0 se.monitors).map se.core.vote) := by
  rw [← core_currentState, core_apply, actions, currentState_events h.faults h.sources]
  rfl

end

section
variable {se : SupervisedEntity μ} {readings : Nat → ε}

theorem exists_reordered (htick : FaultTick se readings) {votes : List (Option Vote)}
    (hperm : ((processed readings 0 se.monitors).map se.core.vote).Perm votes) :
    ∃ (se' : SupervisedEntity μ) (readings' : Nat → ε), Reordered se readings se' readings' ∧
      (se'.apply (.checkAll readings')).currentState = Runs.run settle se.currentState votes := by
  rw [processed_of_returns htick.returns, List.map_filterMap] at hperm
  obtain ⟨answered, hanswered, hvotes⟩ := Runs.exists_perm_filterMap hperm rfl
  have hr : Reordered se readings (se.withAnswers answered) (readingsOf answered readings) := by
    refine ⟨rfl, ?_⟩
    rw [withAnswers, answers_readingsOf]
    exact hanswered
  obtain ⟨htick', -⟩ := htick.reordered hr
  refine ⟨_, _, hr, ?_⟩
  rw [currentState_checkAll htick', processed_of_returns htick'.returns, List.map_filterMap,
    withAnswers, answers_readingsOf]
  exact congrArg (Runs.run settle se.currentState) hvotes

theorem order_irrelevant_iff (hstarted : se.currentState ≠ .init) (htick : FaultTick se readings) :
    (∀ (se' : SupervisedEntity μ) (readings' : Nat → ε), Reordered se readings se' readings' →
        (se'.apply (.checkAll readings')).currentState =
          (se.apply (.checkAll readings)).currentState) ↔
      OrderFree se.currentState ((processed readings 0 se.monitors).map se.vote) := by
  have hfault : ∀ v ∈ (processed readings 0 se.monitors).map se.core.vote, Fault v := by
    intro v hv
    obtain ⟨e, he, rfl⟩ := List.mem_map.mp hv
    exact fault_vote (htick.faults e he) se.core
  constructor
  · intro hsame
    by_contra hnot
    obtain ⟨⟨votes, hperm, hfatal⟩, votes', hperm', hother⟩ := orders_differ hfault hnot
    obtain ⟨se', readings', hr, hstate⟩ := exists_reordered htick hperm
    obtain ⟨se'', readings'', hr', hstate'⟩ := exists_reordered htick hperm'
    apply hother
    rw [← hstate', hsame se'' readings'' hr', ← hsame se' readings' hr, hstate, hfatal]
  · intro hfree se' readings' hr
    obtain ⟨htick', hperm⟩ := htick.reordered hr
    have hstate : se'.currentState = se.currentState :=
      congrArg (fun t : SupervisedEntity Empty => t.currentState) hr.core
    rw [currentState_checkAll htick', currentState_checkAll htick, hr.core, hstate]
    exact (settle_perm hfault (hperm.map _) hstarted hfree).symm

end

theorem two_faults_in_either_order :
    let cfg : SEConfig := { monitors := [{ type := .resource, debounceCount := 1 }, { type := .alive }] }
    let error : Report := { fault := some ⟨{ id := "e", severity := .error }, by decide⟩ }
    let warning : Report := { fault := some ⟨{ id := "w", severity := .warning }, by decide⟩ }
    let resource : EntityOp ReportingMonitor Report := .registerMonitor (some { type := .resource })
    let alive : EntityOp ReportingMonitor Report := .registerMonitor (some { type := .alive })
    let start : EntityOp ReportingMonitor Report := .start fun _ => {}
    (Runs.run apply (new cfg) [alive, resource, start,
        .checkAll fun i => if i = 0 then warning else error]).currentState =
      (Runs.run apply (new cfg) [resource, alive, start,
        .checkAll fun i => if i = 0 then error else warning]).currentState := by
  intro cfg error warning resource alive start
  have hiff := @order_irrelevant_iff ReportingMonitor Report _
    (Runs.run apply (new cfg) [resource, alive, start]) (fun i => if i = 0 then error else warning)
    (by decide) ⟨fun p _ => returns_reporting p, by decide +kernel, by decide +kernel⟩
  exact hiff.mpr (.inl (by decide +kernel)) (Runs.run apply (new cfg) [alive, resource, start])
    (fun i => if i = 0 then warning else error) ⟨rfl, .swap _ _ []⟩

theorem order_matters :
    let cfg : SEConfig :=
      { monitors := [{ type := .resource, debounceCount := 1 }, { type := .alive, debounceCount := 1 }] }
    let fatal : Report := { fault := some ⟨{ id := "f", severity := .fatal }, by decide⟩ }
    let warning : Report := { fault := some ⟨{ id := "w", severity := .warning }, by decide⟩ }
    let resource : EntityOp ReportingMonitor Report := .registerMonitor (some { type := .resource })
    let alive : EntityOp ReportingMonitor Report := .registerMonitor (some { type := .alive })
    let start : EntityOp ReportingMonitor Report := .start fun _ => {}
    let readings : Nat → Report := fun i => if i = 0 then fatal else warning
    let readings' : Nat → Report := fun i => if i = 0 then warning else fatal
    let se := Runs.run apply (new cfg) [resource, alive, start]
    let se' := Runs.run apply (new cfg) [alive, resource, start]
    se.currentState = .running ∧ FaultTick se readings ∧ Reordered se readings se' readings' ∧
      (se.apply (.checkAll readings)).currentState = .fatal ∧
      (se'.apply (.checkAll readings')).currentState = .warn :=
  ⟨by decide, ⟨fun p _ => returns_reporting p, by decide +kernel, by decide +kernel⟩,
    ⟨rfl, .swap _ _ []⟩, by decide +kernel, by decide +kernel⟩

end SupervisedEntity

end PlatformHealth
