import PlatformHealth.Library.Traces
import PlatformHealth.Daemon.Signals

namespace PlatformHealth

open OwnedLock

-- a handler does the others
def DaemonOp.ofMain : DaemonOp → Bool
  | .output _ _ | .setRunning false | .setReloadRequested true | .sigreturn _ => false
  | _ => true

inductive Stage where
  | daemonizing
  | writingPidFile
  | startingEngine
  | startingIpc
  | enabling
  | deciding
  | listening
  | accepting
  | polling
  | clearing
  | reloading
  | sleeping
  | stoppingIpc
  | stoppingEngine
  | removingPidFile
  | leaving
  | parting (skipped : List DaemonOp)
  | parted
  | failing (skipped : List DaemonOp)
  | returned (code : Nat)
deriving DecidableEq

namespace Stage

-- what it would do from there if no call failed and no flag were set
def agenda : Stage → List DaemonOp
  | daemonizing =>
    [.call .daemonize, .call .writePidFile, .call .engineStart, .call .ipcStart, .setRunning true, .whileRunning]
  | writingPidFile =>
    [.call .writePidFile, .call .engineStart, .call .ipcStart, .setRunning true, .whileRunning]
  | startingEngine => [.call .engineStart, .call .ipcStart, .setRunning true, .whileRunning]
  | startingIpc => [.call .ipcStart, .setRunning true, .whileRunning]
  | enabling => [.setRunning true, .whileRunning]
  | deciding => [.whileRunning]
  | listening => [.ifIpcRunning, .ifReloadRequested, .sleep, .whileRunning]
  | accepting => [.call .acceptOne, .ifReloadRequested, .sleep, .whileRunning]
  | polling => [.ifReloadRequested, .sleep, .whileRunning]
  | clearing => [.setReloadRequested false, .call .reloadConfiguration, .sleep, .whileRunning]
  | reloading => [.call .reloadConfiguration, .sleep, .whileRunning]
  | sleeping => [.sleep, .whileRunning]
  | stoppingIpc => [.ipcStop, .call .engineStop, .removePidFile, .returns 0]
  | stoppingEngine => [.call .engineStop, .removePidFile, .returns 0]
  | removingPidFile => [.removePidFile, .returns 0]
  | leaving => [.returns 0]
  | parting skipped => .exits 0 :: skipped
  | parted => []
  | failing skipped => .returns 1 :: skipped
  | returned _ => []

def code : Stage → Option Nat
  | parted => some 0
  | returned code => some code
  | _ => none

def entry (c : DaemonSetup) : Stage :=
  if c.engine then if c.daemonize then daemonizing else writingPidFile else failing []

def opening : Stage → Bool
  | daemonizing | writingPidFile | startingEngine | startingIpc | enabling | parting _ | parted | failing _
  | returned _ => true
  | _ => false

def looping : Stage → Bool
  | deciding | listening | accepting | polling | clearing | reloading | sleeping => true
  | _ => false

def closing : Stage → Bool
  | stoppingIpc | stoppingEngine | removingPidFile | leaving | returned _ => true
  | _ => false

def next (answer : DaemonAnswer) (running ipcRunning reloadRequested : Bool) : Stage → Stage
  | daemonizing =>
    if answer.ok then if answer.inParent then parting writingPidFile.agenda else writingPidFile
    else failing writingPidFile.agenda
  | writingPidFile => startingEngine
  | startingEngine => if answer.ok then startingIpc else failing startingIpc.agenda
  | startingIpc => enabling
  | enabling => deciding
  | deciding => if running then listening else stoppingIpc
  | listening => if ipcRunning then accepting else polling
  | accepting => polling
  | polling => if reloadRequested then clearing else sleeping
  | clearing => reloading
  | reloading => sleeping
  | sleeping => deciding
  | stoppingIpc => stoppingEngine
  | stoppingEngine => removingPidFile
  | removingPidFile => leaving
  | leaving => returned 0
  | parting _ => parted
  | parted => parted
  | failing _ => returned 1
  | returned code => returned code

theorem entry_cases (c : DaemonSetup) :
    entry c = daemonizing ∨ entry c = writingPidFile ∨ entry c = failing [] := by
  unfold entry
  split
  · split
    · exact .inl rfl
    · exact .inr (.inl rfl)
  · exact .inr (.inr rfl)

end Stage

namespace Daemon

def scheduled : Op DaemonOp → Option DaemonOp
  | .other op => if op.ofMain then some op else none
  | _ => none

def agenda (d : Daemon) (thread : Nat) : List DaemonOp := (d.threads.rest thread).filterMap scheduled

def performed (d : Daemon) (s : DaemonStep) : Option DaemonOp :=
  if d.exited.isSome then none
  else
    match s with
    | .exec thread _ =>
      match d.threads.rest thread with
      | .other op :: _ => some op
      | _ => none
    | .signal _ _ => none

def history (c : DaemonSetup) (steps : List DaemonStep) : List DaemonOp :=
  Runs.trace step performed (start c) steps

structure At (d : Daemon) (stage : Stage) : Prop where
  main : d.agenda 0 = stage.agenda
  others : ∀ thread, thread ≠ 0 → d.agenda thread = []
  exited : d.exited = stage.code

inductive Moved (d : Daemon) (stage : Stage) : Option DaemonOp → Stage → Prop
  | idle : Moved d stage none stage
  | aside {op : DaemonOp} : op.ofMain = false → Moved d stage (some op) stage
  | ahead {op : DaemonOp} (answer : DaemonAnswer) : stage.agenda.head? = some op →
    Moved d stage (some op) (stage.next answer d.running d.ipcRunning d.reloadRequested)

section
variable (c : DaemonSetup)

@[simp] theorem scheduled_log (level : LogLevel) (text : String) :
    (c.log level text).filterMap scheduled = [] := by
  unfold DaemonSetup.log
  split <;> rfl

@[simp] theorem scheduled_logs (answer : DaemonAnswer) : (c.logs answer).filterMap scheduled = [] := by
  unfold DaemonSetup.logs
  induction answer.logs with
  | nil => rfl
  | cons line lines ih => rw [List.flatMap_cons, List.filterMap_append, scheduled_log, ih, List.nil_append]

@[simp] theorem scheduled_cons_other (op : DaemonOp) (rest : List (Op DaemonOp)) :
    (.other op :: rest).filterMap scheduled =
      if op.ofMain then op :: rest.filterMap scheduled else rest.filterMap scheduled := by
  cases h : op.ofMain <;> simp [scheduled, h]

@[simp] theorem scheduled_cleanup : c.cleanup.filterMap scheduled = Stage.stoppingIpc.agenda := by
  simp [DaemonSetup.cleanup, Stage.agenda, DaemonOp.ofMain]

@[simp] theorem scheduled_reload :
    c.reload.filterMap scheduled = [.setReloadRequested false, .call .reloadConfiguration] := by
  simp [DaemonSetup.reload, DaemonOp.ofMain]

@[simp] theorem scheduled_signalHandler (sig : Signal) : (c.signalHandler sig).filterMap scheduled = [] := by
  unfold DaemonSetup.signalHandler
  split
  · cases sig <;> simp [DaemonOp.ofMain]
  · rfl

theorem at_start : At (start c) (Stage.entry c) := by
  constructor
  · change (if (0 : Nat) = 0 then c.run else []).filterMap scheduled = _
    unfold DaemonSetup.run Stage.entry
    cases c.engine <;> cases c.daemonize <;> simp [Stage.agenda, DaemonOp.ofMain]
  · intro thread hne
    change (if thread = 0 then c.run else []).filterMap scheduled = []
    rw [if_neg hne]
    rfl
  · rcases Stage.entry_cases c with h | h | h <;> rw [h] <;> rfl

end

section
variable {d : Daemon} {stage : Stage}

theorem At.withThreads (h : At d stage) {threads : Threads DaemonOp}
    (hsame : ∀ thread, (threads.rest thread).filterMap scheduled = d.agenda thread) :
    At { d with threads } stage where
  main := (hsame 0).trans h.main
  others thread hne := (hsame thread).trans (h.others thread hne)
  exited := h.exited

theorem At.set (h : At d stage) {thread : Nat} {ops : List (Op DaemonOp)}
    (hops : ops.filterMap scheduled = d.agenda thread) :
    At { d with threads := d.threads.set thread ops } stage := by
  refine h.withThreads fun other => ?_
  rcases eq_or_ne other thread with rfl | hne
  · rw [Threads.rest_set_self, hops]
  · rw [Threads.rest_set_ne _ _ hne]
    rfl

theorem At.aside (h : At d stage) {thread : Nat} {op : DaemonOp} {rest : List (Op DaemonOp)}
    (hrest : d.threads.rest thread = .other op :: rest) (hop : op.ofMain = false) (answer : DaemonAnswer) :
    At (d.perform thread answer rest op) stage := by
  have hsame : rest.filterMap scheduled = d.agenda thread := by
    rw [agenda, hrest, scheduled_cons_other, hop]
    rfl
  have hset := h.set hsame
  cases op with
  | output level text => exact ⟨hset.main, hset.others, hset.exited⟩
  | setRunning on => exact ⟨hset.main, hset.others, hset.exited⟩
  | setReloadRequested on => exact ⟨hset.main, hset.others, hset.exited⟩
  | sigreturn sig => exact ⟨hset.main, hset.others, hset.exited⟩
  | _ => cases hop

theorem perform_rest_ne {thread other : Nat} (hne : other ≠ thread) (answer : DaemonAnswer)
    (rest : List (Op DaemonOp)) (op : DaemonOp) :
    (d.perform thread answer rest op).threads.rest other = d.threads.rest other := by
  cases op <;> exact Threads.rest_set_ne _ _ hne

theorem agenda_perform {op : DaemonOp} {rest : List (Op DaemonOp)}
    (hmain : op :: rest.filterMap scheduled = stage.agenda) (answer : DaemonAnswer) :
    (d.perform 0 answer rest op).agenda 0 =
      (stage.next answer d.running d.ipcRunning d.reloadRequested).agenda := by
  cases stage with
  | parted => cases hmain
  | returned code => cases hmain
  | daemonizing =>
    obtain ⟨rfl, htail⟩ := List.cons.inj hmain
    cases hok : answer.ok <;> cases hparent : answer.inParent <;>
      simp [agenda, perform, DaemonSetup.afterCall, hok, hparent, htail, Stage.agenda, Stage.next, DaemonOp.ofMain]
  | startingEngine =>
    obtain ⟨rfl, htail⟩ := List.cons.inj hmain
    cases hok : answer.ok <;>
      simp [agenda, perform, DaemonSetup.afterCall, hok, htail, Stage.agenda, Stage.next, DaemonOp.ofMain]
  | startingIpc =>
    obtain ⟨rfl, htail⟩ := List.cons.inj hmain
    cases hok : answer.ok <;>
      simp [agenda, perform, DaemonSetup.afterCall, hok, htail, Stage.agenda, Stage.next]
  | reloading =>
    obtain ⟨rfl, htail⟩ := List.cons.inj hmain
    cases hok : answer.ok <;>
      simp [agenda, perform, DaemonSetup.afterCall, hok, htail, Stage.agenda, Stage.next]
  | deciding =>
    obtain ⟨rfl, htail⟩ := List.cons.inj hmain
    cases hrunning : d.running <;>
      simp [agenda, perform, hrunning, htail, Stage.agenda, Stage.next, DaemonSetup.iteration, DaemonOp.ofMain]
  | listening =>
    obtain ⟨rfl, htail⟩ := List.cons.inj hmain
    cases hipc : d.ipcRunning <;>
      simp [agenda, perform, hipc, htail, Stage.agenda, Stage.next, DaemonOp.ofMain]
  | polling =>
    obtain ⟨rfl, htail⟩ := List.cons.inj hmain
    cases hreload : d.reloadRequested <;> simp [agenda, perform, hreload, htail, Stage.agenda, Stage.next]
  | _ =>
    obtain ⟨rfl, htail⟩ := List.cons.inj hmain
    simp [agenda, perform, DaemonSetup.afterCall, htail, Stage.next, Stage.agenda]

theorem At.ahead (h : At d stage) {op : DaemonOp} {rest : List (Op DaemonOp)}
    (hrest : d.threads.rest 0 = .other op :: rest) (hop : op.ofMain = true) (answer : DaemonAnswer) :
    stage.agenda.head? = some op ∧
      At (d.perform 0 answer rest op) (stage.next answer d.running d.ipcRunning d.reloadRequested) := by
  have hmain : op :: rest.filterMap scheduled = stage.agenda := by
    rw [← h.main, agenda, hrest, scheduled_cons_other, if_pos hop]
  refine ⟨by rw [← hmain]; rfl, agenda_perform hmain answer, fun thread hne => ?_, ?_⟩
  · rw [agenda, perform_rest_ne hne]
    exact h.others thread hne
  · have hexited := h.exited
    cases stage with
    | parted => cases hmain
    | returned code => cases hmain
    | parting skipped =>
      obtain ⟨rfl, -⟩ := List.cons.inj hmain
      rfl
    | leaving =>
      obtain ⟨rfl, -⟩ := List.cons.inj hmain
      rfl
    | failing skipped =>
      obtain ⟨rfl, -⟩ := List.cons.inj hmain
      rfl
    | daemonizing =>
      obtain ⟨rfl, -⟩ := List.cons.inj hmain
      obtain ⟨logs, ok, inParent⟩ := answer
      cases ok <;> cases inParent <;> exact hexited
    | startingEngine =>
      obtain ⟨rfl, -⟩ := List.cons.inj hmain
      obtain ⟨logs, ok, inParent⟩ := answer
      cases ok <;> exact hexited
    | deciding => obtain ⟨rfl, -⟩ := List.cons.inj hmain; cases d.running <;> exact hexited
    | listening => obtain ⟨rfl, -⟩ := List.cons.inj hmain; cases d.ipcRunning <;> exact hexited
    | polling => obtain ⟨rfl, -⟩ := List.cons.inj hmain; cases d.reloadRequested <;> exact hexited
    | _ => obtain ⟨rfl, -⟩ := List.cons.inj hmain; exact hexited

theorem exists_moved (h : At d stage) (s : DaemonStep) :
    ∃ stage', Moved d stage (d.performed s) stage' ∧ At (d.step s) stage' := by
  unfold step performed
  split
  · exact ⟨stage, .idle, h⟩
  cases s with
  | signal thread sig =>
    refine ⟨stage, .idle, ?_⟩
    dsimp only
    split
    · exact h
    · refine h.set ?_
      rw [List.filterMap_append, scheduled_signalHandler, scheduled_cons_other]
      rfl
  | exec thread answer =>
    dsimp only
    cases hrest : d.threads.rest thread with
    | nil =>
      refine ⟨stage, .idle, ?_⟩
      dsimp only
      split
      · exact h
      · refine h.set ?_
        rw [scheduled_logs, agenda, hrest]
        rfl
    | cons op rest =>
      cases op with
      | acquire =>
        refine ⟨stage, .idle, ?_⟩
        have hsame : rest.filterMap scheduled = d.agenda thread := by
          rw [agenda, hrest]
          rfl
        have hset := h.set hsame
        dsimp only
        unfold Threads.acquire
        split
        · exact ⟨hset.main, hset.others, hset.exited⟩
        · exact h
      | release =>
        have hsame : rest.filterMap scheduled = d.agenda thread := by
          rw [agenda, hrest]
          rfl
        have hset := h.set hsame
        exact ⟨stage, .idle, hset.main, hset.others, hset.exited⟩
      | other op =>
        cases hop : op.ofMain with
        | false => exact ⟨stage, .aside hop, h.aside hrest hop answer⟩
        | true =>
          obtain rfl : thread = 0 := by
            by_contra hne
            have hnone := h.others thread hne
            rw [agenda, hrest, scheduled_cons_other, if_pos hop] at hnone
            cases hnone
          obtain ⟨hhead, hat⟩ := h.ahead hrest hop answer
          exact ⟨_, .ahead answer hhead, hat⟩

theorem At.performed (h : At d stage) {s : DaemonStep} {op : DaemonOp} (hop : d.performed s = some op)
    (hmain : op.ofMain = true) :
    stage.agenda.head? = some op ∧
      ∃ answer, At (d.step s) (stage.next answer d.running d.ipcRunning d.reloadRequested) := by
  obtain ⟨stage', hmoved, hat'⟩ := exists_moved h s
  rw [hop] at hmoved
  cases hmoved with
  | aside haside =>
    rw [hmain] at haside
    cases haside
  | ahead answer hhead => exact ⟨hhead, answer, hat'⟩

theorem running_step (d : Daemon) (s : DaemonStep) :
    (d.step s).running = (match d.performed s with | some (.setRunning on) => on | _ => d.running) := by
  unfold step performed
  split
  · rfl
  cases s with
  | signal thread sig =>
    dsimp only
    split <;> rfl
  | exec thread answer =>
    dsimp only
    cases hrest : d.threads.rest thread with
    | nil =>
      dsimp only
      split <;> rfl
    | cons op rest =>
      cases op with
      | other op => cases op <;> rfl
      | _ => rfl

theorem reloadRequested_step (d : Daemon) (s : DaemonStep) :
    (d.step s).reloadRequested =
      (match d.performed s with | some (.setReloadRequested on) => on | _ => d.reloadRequested) := by
  unfold step performed
  split
  · rfl
  cases s with
  | signal thread sig =>
    dsimp only
    split <;> rfl
  | exec thread answer =>
    dsimp only
    cases hrest : d.threads.rest thread with
    | nil =>
      dsimp only
      split <;> rfl
    | cons op rest =>
      cases op with
      | other op => cases op <;> rfl
      | _ => rfl

theorem exists_at_of_run (h : At d stage) (steps : List DaemonStep) :
    ∃ stage', At (Runs.run step d steps) stage' := by
  refine Runs.run_invariant (P := fun d => ∃ stage, At d stage) ?_ ⟨stage, h⟩ steps
  rintro d s ⟨stage, h⟩
  obtain ⟨stage', -, h'⟩ := exists_moved h s
  exact ⟨stage', h'⟩

end

end Daemon

end PlatformHealth
