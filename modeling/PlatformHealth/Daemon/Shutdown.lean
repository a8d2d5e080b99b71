import PlatformHealth.Daemon.Requests

namespace PlatformHealth

namespace Daemon

section
variable {d : Daemon} {s : DaemonStep}

def Opening (d : Daemon) : Prop := ∃ stage, At d stage ∧ stage.opening = true

def Looping (d : Daemon) : Prop := ∃ stage, At d stage ∧ stage.looping = true ∧ d.running = true

def Started (d : Daemon) : Prop := ∃ stage, At d stage ∧ (stage.looping = true ∨ stage.closing = true)

def Ending (d : Daemon) : Prop := d.Started ∧ d.running = false

theorem Opening.step (h : d.Opening) (hnot : d.performed s ≠ some (.setRunning true)) : (d.step s).Opening := by
  obtain ⟨stage, hat, hopening⟩ := h
  obtain ⟨stage', hmoved, hat'⟩ := exists_moved hat s
  refine ⟨stage', hat', ?_⟩
  generalize d.performed s = op at hmoved hnot
  cases hmoved with
  | idle => exact hopening
  | aside _ => exact hopening
  | ahead answer hhead =>
    cases stage with
    | enabling => exact absurd hhead.symm hnot
    | daemonizing =>
      obtain ⟨logs, ok, inParent⟩ := answer
      cases ok <;> cases inParent <;> rfl
    | startingEngine =>
      obtain ⟨logs, ok, inParent⟩ := answer
      cases ok <;> rfl
    | _ => first | rfl | cases hopening

theorem Opening.not_stop (h : d.Opening) : d.performed s ≠ some .ipcStop := by
  obtain ⟨stage, hat, hopening⟩ := h
  intro hop
  obtain ⟨hhead, -⟩ := hat.performed hop rfl
  cases stage with
  | stoppingIpc => cases hopening
  | _ => cases hhead

theorem Looping.step (h : d.Looping) (hnot : d.performed s ≠ some (.setRunning false)) : (d.step s).Looping := by
  obtain ⟨stage, hat, hlooping, hrunning⟩ := h
  obtain ⟨stage', hmoved, hat'⟩ := exists_moved hat s
  refine ⟨stage', hat', ?_⟩
  rw [running_step]
  generalize d.performed s = op at hmoved hnot
  cases hmoved with
  | idle => exact ⟨hlooping, hrunning⟩
  | @aside op haside =>
    cases op with
    | setRunning on =>
      cases on with
      | true => cases haside
      | false => exact absurd rfl hnot
    | _ => exact ⟨hlooping, hrunning⟩
  | ahead answer hhead =>
    cases stage with
    | deciding =>
      obtain rfl := Option.some.inj hhead
      rw [hrunning]
      exact ⟨rfl, rfl⟩
    | listening =>
      obtain rfl := Option.some.inj hhead
      cases d.ipcRunning <;> exact ⟨rfl, hrunning⟩
    | polling =>
      obtain rfl := Option.some.inj hhead
      cases d.reloadRequested <;> exact ⟨rfl, hrunning⟩
    | accepting => obtain rfl := Option.some.inj hhead; exact ⟨rfl, hrunning⟩
    | clearing => obtain rfl := Option.some.inj hhead; exact ⟨rfl, hrunning⟩
    | reloading => obtain rfl := Option.some.inj hhead; exact ⟨rfl, hrunning⟩
    | sleeping => obtain rfl := Option.some.inj hhead; exact ⟨rfl, hrunning⟩
    | _ => cases hlooping

theorem Looping.not_stop (h : d.Looping) : d.performed s ≠ some .ipcStop := by
  obtain ⟨stage, hat, hlooping, -⟩ := h
  intro hop
  obtain ⟨hhead, -⟩ := hat.performed hop rfl
  cases stage with
  | stoppingIpc => cases hlooping
  | _ => cases hhead

theorem looping_of_enabled (h : ∃ stage, At d stage) (hop : d.performed s = some (.setRunning true)) :
    (d.step s).Looping := by
  obtain ⟨stage, hat⟩ := h
  obtain ⟨hhead, answer, hat'⟩ := hat.performed hop rfl
  refine ⟨_, hat', ?_, ?_⟩
  · cases stage with
    | enabling => rfl
    | _ => cases hhead
  · rw [running_step, hop]

theorem Looping.started (h : d.Looping) : d.Started := by
  obtain ⟨stage, hat, hlooping, -⟩ := h
  exact ⟨stage, hat, .inl hlooping⟩

theorem Started.step_moved (h : d.Started) (s : DaemonStep) :
    (d.step s).Started ∧ d.performed s ≠ some (.setRunning true) := by
  obtain ⟨stage, hat, hstarted⟩ := h
  obtain ⟨stage', hmoved, hat'⟩ := exists_moved hat s
  generalize d.performed s = op at hmoved
  cases hmoved with
  | idle => exact ⟨⟨_, hat', hstarted⟩, by simp⟩
  | aside haside => exact ⟨⟨_, hat', hstarted⟩, fun hop => by cases hop; cases haside⟩
  | ahead answer hhead =>
    refine ⟨⟨_, hat', ?_⟩, ?_⟩
    · cases stage with
      | deciding => cases d.running <;> [exact .inr rfl; exact .inl rfl]
      | listening => cases d.ipcRunning <;> exact .inl rfl
      | polling => cases d.reloadRequested <;> exact .inl rfl
      | _ => first | exact .inl rfl | exact .inr rfl | (rcases hstarted with h | h <;> cases h)
    · intro hop
      rw [hop] at hhead
      cases stage with
      | enabling => rcases hstarted with h | h <;> cases h
      | _ => cases hhead

theorem Started.step (h : d.Started) (s : DaemonStep) : (d.step s).Started := (h.step_moved s).1

theorem Ending.step (h : d.Ending) (s : DaemonStep) : (d.step s).Ending := by
  obtain ⟨hstarted, hrunning⟩ := h
  obtain ⟨hstarted', hnot⟩ := hstarted.step_moved s
  refine ⟨hstarted', ?_⟩
  rw [running_step]
  split
  · next on hop =>
    cases on with
    | true => exact absurd hop hnot
    | false => rfl
  · exact hrunning

theorem ending_of_terminated (h : d.Started) (hop : d.performed s = some (.setRunning false)) :
    (d.step s).Ending := by
  refine ⟨h.step s, ?_⟩
  rw [running_step, hop]

theorem at_stopping_of_check (h : d.Ending) (hop : d.performed s = some .whileRunning) :
    At (d.step s) .stoppingIpc := by
  obtain ⟨⟨stage, hat, -⟩, hrunning⟩ := h
  obtain ⟨hhead, answer, hat'⟩ := hat.performed hop rfl
  cases stage with
  | deciding =>
    rw [hrunning] at hat'
    exact hat'
  | _ => cases hhead

theorem trace_of_closing {stage : Stage} (h : At d stage) (hclosing : stage.closing = true)
    (steps : List DaemonStep) :
    (Runs.trace Daemon.step performed d steps).filter DaemonOp.ofMain <+: stage.agenda := by
  induction steps generalizing d stage with
  | nil => exact List.nil_prefix
  | cons s rest ih =>
    obtain ⟨stage', hmoved, hat'⟩ := exists_moved h s
    rw [Runs.trace, List.filter_append]
    generalize d.performed s = op at hmoved
    cases hmoved with
    | idle => exact ih hat' hclosing
    | aside haside =>
      rw [Option.toList_some, List.filter_cons_of_neg (by simp [haside])]
      exact ih hat' hclosing
    | ahead answer hhead =>
      cases stage with
      | stoppingIpc =>
        obtain rfl := Option.some.inj hhead
        exact List.cons_prefix_cons.mpr ⟨rfl, ih hat' rfl⟩
      | stoppingEngine =>
        obtain rfl := Option.some.inj hhead
        exact List.cons_prefix_cons.mpr ⟨rfl, ih hat' rfl⟩
      | removingPidFile =>
        obtain rfl := Option.some.inj hhead
        exact List.cons_prefix_cons.mpr ⟨rfl, ih hat' rfl⟩
      | leaving =>
        obtain rfl := Option.some.inj hhead
        exact List.cons_prefix_cons.mpr ⟨rfl, ih hat' rfl⟩
      | returned code => cases hhead
      | _ => cases hclosing

def cleaning : List DaemonOp := [.ipcStop, .call .engineStop, .removePidFile, .returns 0]

def done : Stage → List DaemonOp
  | .stoppingEngine => [.ipcStop]
  | .removingPidFile => [.ipcStop, .call .engineStop]
  | .leaving => [.ipcStop, .call .engineStop, .removePidFile]
  | .returned 0 => cleaning
  | _ => []

def beforeLoop : List DaemonOp :=
  [.call .daemonize, .call .writePidFile, .call .engineStart, .call .ipcStart, .returns 1]

def forking : Stage → Option (List DaemonOp)
  | .daemonizing => some []
  | .parting _ => some [.call .daemonize]
  | .parted => some [.call .daemonize, .exits 0]
  | _ => none

structure Tidy (seen : List DaemonOp) (stage : Stage) : Prop where
  body : ∃ body : List DaemonOp, seen.filter DaemonOp.ofMain = body ++ done stage ∧ ∀ op ∈ body, op ∉ cleaning
  forking : ∀ ops, forking stage = some ops → seen.filter DaemonOp.ofMain = ops
  opening : stage.opening = true → stage ≠ .returned 0 → stage ≠ .parted →
    ∀ op ∈ seen.filter DaemonOp.ofMain, op ∈ beforeLoop
  code : ∀ code, stage = .returned code → code = 0 ∨ code = 1

def TidyAt (seen : List DaemonOp) (d : Daemon) : Prop := ∃ stage, At d stage ∧ Tidy seen stage

section
variable {stage : Stage} {op : DaemonOp} (hhead : stage.agenda.head? = some op)
  (answer : DaemonAnswer) (running ipcRunning reloadRequested : Bool)
include hhead

theorem done_next :
    done (stage.next answer running ipcRunning reloadRequested) = done stage ++ [op] ∨
      done stage = [] ∧ done (stage.next answer running ipcRunning reloadRequested) = [] ∧
        op ∉ cleaning := by
  obtain ⟨logs, ok, inParent⟩ := answer
  cases stage with
  | parted => cases hhead
  | returned code => cases hhead
  | stoppingIpc => obtain rfl := Option.some.inj hhead; exact .inl rfl
  | stoppingEngine => obtain rfl := Option.some.inj hhead; exact .inl rfl
  | removingPidFile => obtain rfl := Option.some.inj hhead; exact .inl rfl
  | leaving => obtain rfl := Option.some.inj hhead; exact .inl rfl
  | daemonizing =>
    obtain rfl := Option.some.inj hhead
    cases ok <;> cases inParent <;> exact .inr ⟨rfl, rfl, by decide⟩
  | startingEngine => obtain rfl := Option.some.inj hhead; cases ok <;> exact .inr ⟨rfl, rfl, by decide⟩
  | deciding => obtain rfl := Option.some.inj hhead; cases running <;> exact .inr ⟨rfl, rfl, by decide⟩
  | listening => obtain rfl := Option.some.inj hhead; cases ipcRunning <;> exact .inr ⟨rfl, rfl, by decide⟩
  | polling => obtain rfl := Option.some.inj hhead; cases reloadRequested <;> exact .inr ⟨rfl, rfl, by decide⟩
  | _ => obtain rfl := Option.some.inj hhead; exact .inr ⟨rfl, rfl, by decide⟩

theorem forking_next {ops : List DaemonOp}
    (h : forking (stage.next answer running ipcRunning reloadRequested) = some ops) :
    ∃ before, forking stage = some before ∧ ops = before ++ [op] := by
  obtain ⟨logs, ok, inParent⟩ := answer
  cases stage with
  | parted => cases hhead
  | returned code => cases hhead
  | daemonizing => obtain rfl := Option.some.inj hhead; cases ok <;> cases inParent <;> cases h; exact ⟨_, rfl, rfl⟩
  | parting skipped => obtain rfl := Option.some.inj hhead; cases h; exact ⟨_, rfl, rfl⟩
  | startingEngine => cases ok <;> cases h
  | deciding => cases running <;> cases h
  | listening => cases ipcRunning <;> cases h
  | polling => cases reloadRequested <;> cases h
  | _ => cases h

theorem opening_next (hopening : (stage.next answer running ipcRunning reloadRequested).opening = true)
    (hne : stage.next answer running ipcRunning reloadRequested ≠ .returned 0)
    (hparted : stage.next answer running ipcRunning reloadRequested ≠ .parted) :
    stage.opening = true ∧ stage ≠ .returned 0 ∧ stage ≠ .parted ∧ op ∈ beforeLoop := by
  cases stage with
  | parted => cases hhead
  | returned code => cases hhead
  | parting skipped => exact absurd rfl hparted
  | leaving => exact absurd rfl hne
  | deciding => cases running <;> cases hopening
  | listening => cases ipcRunning <;> cases hopening
  | polling => cases reloadRequested <;> cases hopening
  | daemonizing => obtain rfl := Option.some.inj hhead; exact ⟨rfl, nofun, nofun, by decide⟩
  | writingPidFile => obtain rfl := Option.some.inj hhead; exact ⟨rfl, nofun, nofun, by decide⟩
  | startingEngine => obtain rfl := Option.some.inj hhead; exact ⟨rfl, nofun, nofun, by decide⟩
  | startingIpc => obtain rfl := Option.some.inj hhead; exact ⟨rfl, nofun, nofun, by decide⟩
  | failing skipped => obtain rfl := Option.some.inj hhead; exact ⟨rfl, nofun, nofun, by decide⟩
  | _ => cases hopening

theorem code_next {code : Nat} (hcode : stage.next answer running ipcRunning reloadRequested = .returned code) :
    code = 0 ∨ code = 1 := by
  obtain ⟨logs, ok, inParent⟩ := answer
  cases stage with
  | returned code => cases hhead
  | leaving => cases hcode; exact .inl rfl
  | failing skipped => cases hcode; exact .inr rfl
  | daemonizing => cases ok <;> cases inParent <;> cases hcode
  | startingEngine => cases ok <;> cases hcode
  | deciding => cases running <;> cases hcode
  | listening => cases ipcRunning <;> cases hcode
  | polling => cases reloadRequested <;> cases hcode
  | _ => cases hcode

theorem ofMain_of_head : op.ofMain = true := by
  cases stage with
  | parted => cases hhead
  | returned code => cases hhead
  | _ => obtain rfl := Option.some.inj hhead; rfl

theorem Tidy.ahead {seen : List DaemonOp} (h : Tidy seen stage) :
    Tidy (seen ++ [op]) (stage.next answer running ipcRunning reloadRequested) := by
  have hfilter : (seen ++ [op]).filter DaemonOp.ofMain = seen.filter DaemonOp.ofMain ++ [op] := by
    rw [List.filter_append, List.filter_singleton, ofMain_of_head hhead]
    rfl
  refine ⟨?_, fun ops hforking => ?_, fun hopening hne hparted => ?_, fun _ hcode => code_next hhead _ _ _ _ hcode⟩
  · obtain ⟨body, hbody, hnone⟩ := h.body
    rw [hfilter, hbody]
    rcases done_next hhead answer running ipcRunning reloadRequested with hdone | ⟨hdone, hdone', hop⟩
    · exact ⟨body, by rw [hdone, List.append_assoc], hnone⟩
    · refine ⟨body ++ [op], by rw [hdone, hdone', List.append_nil, List.append_nil], ?_⟩
      simp only [List.mem_append, List.mem_singleton]
      rintro other (hmem | rfl)
      · exact hnone other hmem
      · exact hop
  · obtain ⟨before, hbefore, rfl⟩ := forking_next hhead answer running ipcRunning reloadRequested hforking
    rw [hfilter, h.forking before hbefore]
  · obtain ⟨hopening', hne', hparted', hop⟩ :=
      opening_next hhead answer running ipcRunning reloadRequested hopening hne hparted
    rw [hfilter]
    simp only [List.mem_append, List.mem_singleton]
    rintro other (hmem | rfl)
    · exact h.opening hopening' hne' hparted' other hmem
    · exact hop

end

theorem TidyAt.step {seen : List DaemonOp} (h : TidyAt seen d) (s : DaemonStep) :
    TidyAt (seen ++ (d.performed s).toList) (d.step s) := by
  obtain ⟨stage, hat, htidy⟩ := h
  obtain ⟨stage', hmoved, hat'⟩ := exists_moved hat s
  refine ⟨stage', hat', ?_⟩
  generalize d.performed s = op at hmoved
  cases hmoved with
  | idle =>
    rw [Option.toList_none, List.append_nil]
    exact htidy
  | @aside op haside =>
    have hsame : (seen ++ [op]).filter DaemonOp.ofMain = seen.filter DaemonOp.ofMain := by
      rw [List.filter_append, List.filter_singleton, haside]
      exact List.append_nil _
    rw [Option.toList_some]
    exact ⟨hsame ▸ htidy.body, hsame ▸ htidy.forking, hsame ▸ htidy.opening, htidy.code⟩
  | ahead answer hhead => exact htidy.ahead hhead answer _ _ _

end

section
variable {c : DaemonSetup} {steps : List DaemonStep}

theorem terminated_of_stop {before after : List DaemonOp}
    (h : history c steps = before ++ .ipcStop :: after) :
    ∃ opening looping : List DaemonOp,
      before = opening ++ .setRunning true :: looping ∧ .setRunning false ∈ looping := by
  obtain ⟨pre, stop, rest, -, rfl, hstop, -⟩ := Runs.exists_of_trace_eq h
  have hentry : (start c).Opening := by
    refine ⟨_, at_start c, ?_⟩
    rcases Stage.entry_cases c with h | h | h <;> rw [h] <;> rfl
  by_cases hset : .setRunning true ∈ Runs.trace step performed (start c) pre
  · obtain ⟨opening, looping, hsplit⟩ := List.append_of_mem hset
    refine ⟨opening, looping, hsplit, ?_⟩
    by_contra hnot
    obtain ⟨pre', enable, rest', rfl, -, henable, rfl⟩ := Runs.exists_of_trace_eq hsplit
    have hlooping := looping_of_enabled (exists_at_of_run (at_start c) pre') henable
    rw [Runs.run_append, Runs.run_cons] at hstop
    exact (Runs.run_unless (fun _ _ h hne => h.step hne) hlooping hnot).not_stop hstop
  · exact absurd hstop (Runs.run_unless (fun _ _ h hne => h.step hne) hentry hset).not_stop

theorem stops_of_terminated {before looping mid after : List DaemonOp}
    (h : history c steps =
      before ++ DaemonOp.setRunning true ::
          (looping ++ DaemonOp.setRunning false :: (mid ++ DaemonOp.whileRunning :: after))) :
    after.filter DaemonOp.ofMain <+: cleaning := by
  obtain ⟨pre, enable, rest, -, -, henable, hrest⟩ := Runs.exists_of_trace_eq h
  have hlooping := looping_of_enabled (exists_at_of_run (at_start c) pre) henable
  obtain ⟨pre', terminate, rest', -, -, hterminate, hrest'⟩ := Runs.exists_of_trace_eq hrest
  have hstarted := Runs.run_invariant (P := Started) (fun _ s h => h.step s) hlooping.started pre'
  obtain ⟨pre'', check, rest'', -, -, hcheck, rfl⟩ := Runs.exists_of_trace_eq hrest'
  have hending :=
    Runs.run_invariant (P := Ending) (fun _ s h => h.step s) (ending_of_terminated hstarted hterminate) pre''
  exact trace_of_closing (at_stopping_of_check hending hcheck) rfl rest''

theorem tidy_start : TidyAt [] (start c) := by
  refine ⟨_, at_start c, ⟨[], ?_, by simp⟩, ?_, by simp, ?_⟩
  · rcases Stage.entry_cases c with h | h | h <;> rw [h] <;> rfl
  · intro ops hforking
    rcases Stage.entry_cases c with h | h | h <;> rw [h] at hforking <;> cases hforking
    rfl
  · intro code hcode
    rcases Stage.entry_cases c with h | h | h <;> rw [h] at hcode <;> cases hcode

theorem shutdown_follows_signal (c : DaemonSetup) (steps : List DaemonStep) :
    (∀ before after : List DaemonOp, history c steps = before ++ .ipcStop :: after →
      ∃ opening looping : List DaemonOp,
        before = opening ++ .setRunning true :: looping ∧ .setRunning false ∈ looping) ∧
    ∀ before looping mid after : List DaemonOp,
      history c steps =
        before ++ DaemonOp.setRunning true ::
          (looping ++ DaemonOp.setRunning false :: (mid ++ DaemonOp.whileRunning :: after)) →
      after.filter DaemonOp.ofMain <+: cleaning :=
  ⟨fun _ _ h => terminated_of_stop h, fun _ _ _ _ h => stops_of_terminated h⟩

theorem sigterm_while_polling :
    let steps : List DaemonStep := mainSteps 8 ++ [.signal 0 .sigterm, .exec 0 {}] ++ mainSteps 5
    let before : List DaemonOp := [.call .writePidFile, .call .engineStart, .call .ipcStart]
    let looping : List DaemonOp := [.whileRunning, .ifIpcRunning, .call .acceptOne, .ifReloadRequested]
    let mid : List DaemonOp := [.sigreturn .sigterm, .sleep]
    let after : List DaemonOp := [.ipcStop, .call .engineStop]
    history foreground steps =
        before ++ DaemonOp.setRunning true ::
          (looping ++ DaemonOp.setRunning false :: (mid ++ DaemonOp.whileRunning :: after)) ∧
      after.filter DaemonOp.ofMain <+: cleaning := by
  intro steps before looping mid after
  have hsplit : history foreground steps =
      before ++ DaemonOp.setRunning true ::
          (looping ++ DaemonOp.setRunning false :: (mid ++ DaemonOp.whileRunning :: after)) := by
    decide +kernel
  exact ⟨hsplit, (shutdown_follows_signal foreground steps).2 before looping mid after hsplit⟩

theorem exit_of_run {code : Nat} (h : (Runs.run step (start c) steps).exited = some code) :
    (code = 0 ∧ ∃ body : List DaemonOp,
        (history c steps).filter DaemonOp.ofMain =
          body ++ cleaning ∧
        .setRunning true ∈ body ∧
        ∀ op ∈ body, op ∉ cleaning) ∨
      (code = 0 ∧ (history c steps).filter DaemonOp.ofMain = [.call .daemonize, .exits 0]) ∨
      (code = 1 ∧ ∀ op ∈ (history c steps).filter DaemonOp.ofMain,
        op ∈ beforeLoop) := by
  obtain ⟨stage, hat, htidy⟩ := Runs.trace_invariant (I := TidyAt) (fun _ _ s h => h.step s) tidy_start steps
  obtain ⟨rfl, rfl⟩ | rfl : (stage = .parted ∧ code = 0) ∨ stage = .returned code := by
    have hcode := hat.exited.symm.trans h
    cases stage with
    | parted => exact .inl ⟨rfl, (Option.some.inj hcode).symm⟩
    | returned other => exact .inr (congrArg Stage.returned (Option.some.inj hcode))
    | _ => cases hcode
  · exact .inr (.inl ⟨rfl, htidy.forking _ rfl⟩)
  rcases htidy.code code rfl with rfl | rfl
  · obtain ⟨body, hbody, hnone⟩ := htidy.body
    refine .inl ⟨rfl, body, hbody, ?_, hnone⟩
    have hstop : DaemonOp.ipcStop ∈ history c steps := by
      refine List.mem_of_mem_filter (p := DaemonOp.ofMain) ?_
      rw [history, hbody]
      simp [done, cleaning]
    obtain ⟨before, after, hsplit⟩ := List.append_of_mem hstop
    obtain ⟨opening, looping, rfl, -⟩ := terminated_of_stop hsplit
    have hset : DaemonOp.setRunning true ∈ history c steps := by
      rw [hsplit]
      simp
    have hmem := (List.mem_filter (p := DaemonOp.ofMain)).mpr ⟨hset, rfl⟩
    rw [history, hbody] at hmem
    exact (List.mem_append.mp hmem).resolve_right (by decide)
  · exact .inr (.inr ⟨rfl, htidy.opening rfl (by decide) nofun⟩)

end

theorem second_sigterm_ends :
    let steps : List DaemonStep :=
      mainSteps 2 ++ [.signal 0 .sigterm] ++ mainSteps 8 ++ [.signal 1 .sigterm, .exec 1 {}] ++ mainSteps 6
    (Runs.run step (start foreground) steps).exited = some 0 ∧
      ∃ body : List DaemonOp, (history foreground steps).filter DaemonOp.ofMain =
          body ++ cleaning ∧
        .setRunning true ∈ body ∧
        ∀ op ∈ body, op ∉ cleaning := by
  intro steps
  have hexited : (Runs.run step (start foreground) steps).exited = some 0 := by decide +kernel
  have hstayed : (history foreground steps).filter DaemonOp.ofMain ≠ [.call .daemonize, .exits 0] := by
    decide +kernel
  rcases exit_of_run hexited with ⟨-, hclean⟩ | ⟨-, hforked⟩ | ⟨hcode, -⟩
  · exact ⟨hexited, hclean⟩
  · exact absurd hforked hstayed
  · cases hcode

end Daemon

end PlatformHealth
