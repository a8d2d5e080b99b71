import PlatformHealth.Daemon.MainLoop

namespace PlatformHealth

namespace Daemon

section
variable {d : Daemon} {s : DaemonStep}

def Due (d : Daemon) : Prop := ∃ stage, At d stage ∧ (stage = .clearing ∨ stage = .reloading)

def Pending (d : Daemon) : Prop :=
  ∃ stage, At d stage ∧ (d.reloadRequested = true ∨ stage = .clearing ∨ stage = .reloading)

theorem Due.step (h : d.Due) (hnot : d.performed s ≠ some (.call .reloadConfiguration)) : (d.step s).Due := by
  obtain ⟨stage, hat, hdue⟩ := h
  obtain ⟨stage', hmoved, hat'⟩ := exists_moved hat s
  refine ⟨stage', hat', ?_⟩
  generalize hop : d.performed s = op at hmoved hnot
  cases hmoved with
  | idle => exact hdue
  | aside _ => exact hdue
  | ahead answer hhead =>
    rcases hdue with rfl | rfl
    · exact .inr rfl
    · exact absurd hhead.symm hnot

theorem Due.not_sleep (h : d.Due) : d.performed s ≠ some .sleep := by
  obtain ⟨stage, hat, hdue⟩ := h
  intro hop
  obtain ⟨hhead, -⟩ := hat.performed hop rfl
  rcases hdue with rfl | rfl <;> cases hhead

theorem Pending.step (h : d.Pending) (hnot : d.performed s ≠ some (.call .reloadConfiguration)) :
    (d.step s).Pending := by
  obtain ⟨stage, hat, hpending⟩ := h
  obtain ⟨stage', hmoved, hat'⟩ := exists_moved hat s
  refine ⟨stage', hat', ?_⟩
  rw [reloadRequested_step]
  generalize hop : d.performed s = op at hmoved hnot
  cases hmoved with
  | idle => exact hpending
  | @aside op haside =>
    cases op with
    | setReloadRequested on =>
      cases on with
      | true => exact .inl rfl
      | false => cases haside
    | _ => exact hpending
  | @ahead op answer hhead =>
    rcases hpending with hflag | rfl | rfl
    · cases stage with
      | clearing => exact .inr (.inr rfl)
      | parted => cases hhead
      | returned code => cases hhead
      | _ =>
        obtain rfl := Option.some.inj hhead
        exact .inl hflag
    · exact .inr (.inr rfl)
    · exact absurd hhead.symm hnot

theorem pending_of_request (h : ∃ stage, At d stage) (hop : d.performed s = some (.setReloadRequested true)) :
    (d.step s).Pending := by
  obtain ⟨stage, hat⟩ := h
  obtain ⟨stage', -, hat'⟩ := exists_moved hat s
  refine ⟨stage', hat', .inl ?_⟩
  rw [reloadRequested_step, hop]

theorem due_of_poll (h : d.Pending) (hop : d.performed s = some .ifReloadRequested) : (d.step s).Due := by
  obtain ⟨stage, hat, hpending⟩ := h
  obtain ⟨hhead, answer, hat'⟩ := hat.performed hop rfl
  refine ⟨_, hat', ?_⟩
  rcases hpending with hflag | rfl | rfl
  · cases stage with
    | polling => exact .inl (if_pos hflag)
    | _ => cases hhead
  · cases hhead
  · cases hhead

def Owed (seen : List DaemonOp) (d : Daemon) : Prop :=
  ∃ stage, At d stage ∧ (stage = .clearing → d.reloadRequested = true) ∧
    seen.count (.call .reloadConfiguration) + d.reloadRequested.toNat + (if stage = .reloading then 1 else 0) ≤
      seen.count (.setReloadRequested true)

theorem Owed.step {seen : List DaemonOp} (h : Owed seen d) (s : DaemonStep) :
    Owed (seen ++ (d.performed s).toList) (d.step s) := by
  obtain ⟨stage, hat, hclearing, hcount⟩ := h
  obtain ⟨stage', hmoved, hat'⟩ := exists_moved hat s
  refine ⟨stage', hat', ?_⟩
  rw [reloadRequested_step, List.count_append, List.count_append]
  generalize d.performed s = op at hmoved
  cases hmoved with
  | idle => exact ⟨hclearing, hcount⟩
  | @aside op haside =>
    cases op with
    | setReloadRequested on =>
      cases on with
      | true =>
        have hflag : d.reloadRequested.toNat ≤ 1 := Bool.toNat_le _
        have hone : List.count (DaemonOp.setReloadRequested true) [.setReloadRequested true] = 1 := rfl
        have hnone : List.count (DaemonOp.call .reloadConfiguration) [.setReloadRequested true] = 0 := rfl
        refine ⟨fun _ => rfl, ?_⟩
        rw [Option.toList_some, hone, hnone, Bool.toNat_true]
        omega
      | false => cases haside
    | output level text => exact ⟨hclearing, hcount⟩
    | setRunning on => exact ⟨hclearing, hcount⟩
    | sigreturn sig => exact ⟨hclearing, hcount⟩
    | _ => cases haside
  | @ahead op answer hhead =>
    cases stage with
    | parted => cases hhead
    | returned code => cases hhead
    | polling =>
      obtain rfl := Option.some.inj hhead
      cases hflag : d.reloadRequested with
      | true =>
        rw [hflag] at hcount
        exact ⟨fun _ => rfl, hcount⟩
      | false =>
        rw [hflag] at hcount
        exact ⟨fun hne => (by cases hne), hcount⟩
    | clearing =>
      obtain rfl := Option.some.inj hhead
      rw [hclearing rfl] at hcount
      exact ⟨fun hne => (by cases hne), hcount⟩
    | reloading =>
      obtain rfl := Option.some.inj hhead
      have hone : List.count (DaemonOp.call .reloadConfiguration) [.call .reloadConfiguration] = 1 := rfl
      have hnone : List.count (DaemonOp.setReloadRequested true) [.call .reloadConfiguration] = 0 := rfl
      refine ⟨fun hne => (by cases hne), ?_⟩
      rw [if_pos rfl] at hcount
      change _ + List.count _ [_] + d.reloadRequested.toNat + 0 ≤ _ + List.count _ [_]
      omega
    | daemonizing =>
      obtain rfl := Option.some.inj hhead
      obtain ⟨logs, ok, inParent⟩ := answer
      cases ok <;> cases inParent <;> exact ⟨fun hne => (by cases hne), hcount⟩
    | startingEngine =>
      obtain rfl := Option.some.inj hhead
      obtain ⟨logs, ok, inParent⟩ := answer
      cases ok <;> exact ⟨fun hne => (by cases hne), hcount⟩
    | deciding =>
      obtain rfl := Option.some.inj hhead
      cases d.running <;> exact ⟨fun hne => (by cases hne), hcount⟩
    | listening =>
      obtain rfl := Option.some.inj hhead
      cases d.ipcRunning <;> exact ⟨fun hne => (by cases hne), hcount⟩
    | _ =>
      obtain rfl := Option.some.inj hhead
      exact ⟨fun hne => (by cases hne), hcount⟩

end

section
variable (c : DaemonSetup) (steps : List DaemonStep)

theorem owed_start : Owed [] (start c) := by
  refine ⟨_, at_start c, ?_, ?_⟩
  · intro hclearing
    rcases Stage.entry_cases c with h | h | h <;> rw [h] at hclearing <;> cases hclearing
  · rcases Stage.entry_cases c with h | h | h <;> rw [h] <;> exact Nat.le_refl 0

theorem reloads_le_requests :
    (history c steps).count (.call .reloadConfiguration) ≤ (history c steps).count (.setReloadRequested true) := by
  obtain ⟨stage, -, -, hcount⟩ := Runs.trace_invariant (I := Owed) (fun _ _ s h => h.step s) (owed_start c) steps
  unfold history
  omega

variable {c steps}

theorem reloaded_of_requested {before mid tail after : List DaemonOp}
    (h : history c steps =
      before ++ .setReloadRequested true :: (mid ++ .ifReloadRequested :: (tail ++ .sleep :: after))) :
    .call .reloadConfiguration ∈ mid ++ tail := by
  by_contra hnot
  rw [List.mem_append, not_or] at hnot
  obtain ⟨pre, request, rest, -, -, hrequest, hrest⟩ := Runs.exists_of_trace_eq h
  have hpending := pending_of_request (exists_at_of_run (at_start c) pre) hrequest
  obtain ⟨pre', poll, rest', -, rfl, hpoll, hrest'⟩ := Runs.exists_of_trace_eq hrest
  have hpolled := due_of_poll (Runs.run_unless (fun _ _ h hne => h.step hne) hpending hnot.1) hpoll
  obtain ⟨pre'', slept, -, -, rfl, hsleep, -⟩ := Runs.exists_of_trace_eq hrest'
  exact (Runs.run_unless (fun _ _ h hne => h.step hne) hpolled hnot.2).not_sleep hsleep

theorem requests_served (c : DaemonSetup) (steps : List DaemonStep) :
    (history c steps).count (.call .reloadConfiguration) ≤ (history c steps).count (.setReloadRequested true) ∧
    ∀ before mid tail after : List DaemonOp,
      history c steps =
        before ++ .setReloadRequested true :: (mid ++ .ifReloadRequested :: (tail ++ .sleep :: after)) →
      .call .reloadConfiguration ∈ mid ++ tail :=
  ⟨reloads_le_requests c steps, fun _ _ _ _ h => reloaded_of_requested h⟩

end

def foreground : DaemonSetup := { daemonize := false, level := .error, pid := 7 }

def mainSteps (n : Nat) : List DaemonStep := List.replicate n (.exec 0 {})

theorem sighup_before_reload :
    let steps : List DaemonStep := mainSteps 7 ++ [.signal 1 .sighup, .exec 1 {}, .exec 1 {}] ++ mainSteps 2 ++
      [.signal 1 .sighup, .exec 1 {}] ++ mainSteps 9
    let before : List DaemonOp :=
      [.call .writePidFile, .call .engineStart, .call .ipcStart, .setRunning true, .whileRunning, .ifIpcRunning,
        .call .acceptOne, .setReloadRequested true, .sigreturn .sighup, .ifReloadRequested, .setReloadRequested false]
    let mid : List DaemonOp := [.call .reloadConfiguration, .sleep, .whileRunning, .ifIpcRunning, .call .acceptOne]
    let tail : List DaemonOp := [.setReloadRequested false, .call .reloadConfiguration]
    history foreground steps =
        before ++ DaemonOp.setReloadRequested true ::
          (mid ++ DaemonOp.ifReloadRequested :: (tail ++ [DaemonOp.sleep])) ∧
      DaemonOp.call .reloadConfiguration ∈ mid ++ tail := by
  intro steps before mid tail
  have hsplit : history foreground steps =
      before ++ DaemonOp.setReloadRequested true ::
          (mid ++ DaemonOp.ifReloadRequested :: (tail ++ [DaemonOp.sleep])) := by
    decide +kernel
  exact ⟨hsplit, (requests_served foreground steps).2 before mid tail [] hsplit⟩

end Daemon

end PlatformHealth
