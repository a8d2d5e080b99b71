import PlatformHealth.Library.OwnedLock
import PlatformHealth.Library.Runs

namespace PlatformHealth

open OwnedLock

inductive LogLevel where
  | debug
  | info
  | warn
  | error
deriving DecidableEq

def LogLevel.value : LogLevel → Nat
  | .debug => 0
  | .info => 1
  | .warn => 2
  | .error => 3

inductive Signal where
  | sighup
  | sigint
  | sigterm
deriving DecidableEq

def Signal.number : Signal → Nat
  | .sighup => 1
  | .sigint => 2
  | .sigterm => 15

-- what Daemon::run calls; what such a call logs and returns is left open
inductive DaemonCall where
  | daemonize
  | writePidFile
  | engineStart
  | ipcStart
  | acceptOne
  | reloadConfiguration
  | engineStop
deriving DecidableEq

-- inParent is whether a fork() of daemonize() returned in the process that it leaves behind
structure DaemonAnswer where
  logs : List (LogLevel × String) := []
  ok : Bool := true
  inParent : Bool := false

inductive DaemonOp where
  | output (level : LogLevel) (text : String)
  | call (callee : DaemonCall)
  | setRunning (on : Bool)
  | setReloadRequested (on : Bool)
  | whileRunning
  | ifIpcRunning
  | ifReloadRequested
  | sleep
  | ipcStop
  | removePidFile
  | returns (code : Nat)
  | exits (code : Nat)
  | sigreturn (sig : Signal)
deriving DecidableEq

inductive DaemonStep where
  | exec (thread : Nat) (answer : DaemonAnswer)
  | signal (thread : Nat) (sig : Signal)

-- engine and sInstance are whether engine_ and s_instance are set; level is the Logger's
structure DaemonSetup where
  engine : Bool := true
  daemonize : Bool := true
  sInstance : Bool := true
  level : LogLevel := .info
  pid : Nat

-- thread 0 is in Daemon::run; the lock of threads is the Logger's mutex_
structure Daemon extends DaemonSetup where
  running : Bool := false
  reloadRequested : Bool := false
  ipcRunning : Bool := false
  lines : List (LogLevel × String) := []
  exited : Option Nat := none
  threads : Threads DaemonOp

namespace DaemonSetup

def log (c : DaemonSetup) (level : LogLevel) (text : String) : List (Op DaemonOp) :=
  if level.value < c.level.value then []
  else [.acquire, .other (.output level text), .release]

def logs (c : DaemonSetup) (answer : DaemonAnswer) : List (Op DaemonOp) :=
  answer.logs.flatMap fun line => c.log line.1 line.2

def run (c : DaemonSetup) : List (Op DaemonOp) :=
  if c.engine then
    (if c.daemonize then [.other (.call .daemonize)] else []) ++
      [.other (.call .writePidFile), .other (.call .engineStart), .other (.call .ipcStart),
        .other (.setRunning true)] ++
      c.log .info ("PHM daemon running (pid=" ++ toString c.pid ++ ")") ++ [.other .whileRunning]
  else c.log .error "Engine not initialized" ++ [.other (.returns 1)]

def iteration : List (Op DaemonOp) :=
  [.other .ifIpcRunning, .other .ifReloadRequested, .other .sleep, .other .whileRunning]

def reload (c : DaemonSetup) : List (Op DaemonOp) :=
  .other (.setReloadRequested false) :: c.log .info "Reloading configuration..." ++
    [.other (.call .reloadConfiguration)]

def cleanup (c : DaemonSetup) : List (Op DaemonOp) :=
  c.log .info "PHM daemon shutting down..." ++
    [.other .ipcStop, .other (.call .engineStop), .other .removePidFile] ++
    c.log .info "PHM daemon exited cleanly" ++ [.other (.returns 0)]

def afterCall (c : DaemonSetup) (callee : DaemonCall) (answer : DaemonAnswer) : List (Op DaemonOp) :=
  match callee, answer.ok with
  | .daemonize, true => if answer.inParent then [.other (.exits 0)] else []
  | .daemonize, false => [.other (.returns 1)]
  | .engineStart, false => c.log .error "Failed to start PHM engine" ++ [.other (.returns 1)]
  | .ipcStart, false => c.log .warn "Failed to start IPC server (non-fatal)"
  | .reloadConfiguration, true => c.log .info "Configuration reloaded successfully"
  | .reloadConfiguration, false => c.log .error "Configuration reload failed"
  | _, _ => []

def signalHandler (c : DaemonSetup) (sig : Signal) : List (Op DaemonOp) :=
  if c.sInstance then
    match sig with
    | .sigterm | .sigint =>
      c.log .info ("Received signal " ++ toString sig.number ++ ", shutting down") ++
        [.other (.setRunning false)]
    | .sighup => c.log .info "Received SIGHUP, reloading config" ++ [.other (.setReloadRequested true)]
  else []

end DaemonSetup

namespace Daemon

def start (c : DaemonSetup) : Daemon where
  toDaemonSetup := c
  threads := { rest := fun thread => if thread = 0 then c.run else [] }

def perform (d : Daemon) (thread : Nat) (answer : DaemonAnswer) (rest : List (Op DaemonOp)) :
    DaemonOp → Daemon
  | .output level text =>
    { d with threads := d.threads.set thread rest, lines := d.lines ++ [(level, text)] }
  | .call callee =>
    { d with
      threads := d.threads.set thread (d.logs answer ++ d.afterCall callee answer ++ rest)
      ipcRunning := if callee = .ipcStart then answer.ok else d.ipcRunning }
  | .setRunning on => { d with threads := d.threads.set thread rest, running := on }
  | .setReloadRequested on => { d with threads := d.threads.set thread rest, reloadRequested := on }
  | .whileRunning =>
    { d with
      threads := d.threads.set thread ((if d.running then DaemonSetup.iteration else d.cleanup) ++ rest) }
  | .ifIpcRunning =>
    { d with
      threads := d.threads.set thread
        ((if d.ipcRunning then [.other (.call .acceptOne)] else []) ++ rest) }
  | .ifReloadRequested =>
    { d with threads := d.threads.set thread ((if d.reloadRequested then d.reload else []) ++ rest) }
  | .ipcStop => { d with threads := d.threads.set thread rest, ipcRunning := false }
  | .returns code | .exits code =>
    { d with threads := d.threads.set thread [], exited := some code }
  | .sleep | .removePidFile | .sigreturn _ => { d with threads := d.threads.set thread rest }

def masked (d : Daemon) (thread : Nat) (sig : Signal) : Bool :=
  (d.threads.rest thread).contains (.other (.sigreturn sig))

-- the engine's own threads only log here; a handler runs on top of what it interrupts
def step (d : Daemon) (s : DaemonStep) : Daemon :=
  if d.exited.isSome then d
  else
    match s with
    | .exec thread answer =>
      match d.threads.rest thread with
      | [] => if thread = 0 then d else { d with threads := d.threads.set thread (d.logs answer) }
      | .acquire :: rest => { d with threads := d.threads.acquire thread rest }
      | .release :: rest => { d with threads := d.threads.release thread rest }
      | .other op :: rest => d.perform thread answer rest op
    | .signal thread sig =>
      if d.masked thread sig then d
      else
        { d with
          threads := d.threads.set thread
            (d.signalHandler sig ++ .other (.sigreturn sig) :: d.threads.rest thread) }

def Safe (d : Daemon) : Prop :=
  ∀ thread rest, d.threads.rest thread = .acquire :: rest → d.threads.owner ≠ some thread

def handlerLogs (c : DaemonSetup) : Bool := c.sInstance && decide (c.level.value ≤ LogLevel.info.value)

-- a signal whose handler logs does not come between lock and unlock of Logger::log
def Apart (d : Daemon) : DaemonStep → Prop
  | .exec _ _ => True
  | .signal thread sig =>
    d.exited = none → handlerLogs d.toDaemonSetup = true → d.masked thread sig = false →
      d.threads.owner ≠ some thread

def within : DaemonOp → Bool
  | .output _ _ | .setRunning _ | .setReloadRequested _ | .sigreturn _ => true
  | _ => false

section
variable (c : DaemonSetup)

@[simp] theorem after_log (level : LogLevel) (text : String) :
    after within false (c.log level text) = some false := by
  unfold DaemonSetup.log
  split <;> rfl

theorem after_logs (answer : DaemonAnswer) : after within false (c.logs answer) = some false := by
  unfold DaemonSetup.logs
  induction answer.logs with
  | nil => rfl
  | cons line lines ih =>
    rw [List.flatMap_cons, after_append_of within (after_log c line.1 line.2), ih]

theorem after_afterCall (callee : DaemonCall) (answer : DaemonAnswer) :
    after within false (c.afterCall callee answer) = some false := by
  obtain ⟨logs, ok, inParent⟩ := answer
  cases callee <;> cases ok <;> cases inParent <;> simp [DaemonSetup.afterCall, after_append, within]

theorem after_run : after within false c.run = some false := by
  unfold DaemonSetup.run
  cases c.engine <;> cases c.daemonize <;> simp [after_append, within]

theorem after_cleanup : after within false c.cleanup = some false := by
  simp [DaemonSetup.cleanup, after_append, within]

theorem after_reload : after within false c.reload = some false := by
  simp [DaemonSetup.reload, after_append, within]

theorem log_of_quiet (h : handlerLogs c = false) (hinstance : c.sInstance = true) (text : String) :
    c.log .info text = [] := by
  have hlevel : LogLevel.info.value < c.level.value := by simpa [handlerLogs, hinstance] using h
  exact if_pos hlevel

theorem after_signalHandler {held : Bool} (h : handlerLogs c = true → held = false) (sig : Signal) :
    after within held (c.signalHandler sig) = some held := by
  unfold DaemonSetup.signalHandler
  split
  · next hinstance =>
    cases hlogs : handlerLogs c with
    | true =>
      obtain rfl := h hlogs
      cases sig <;> simp [after_append, within]
    | false => cases sig <;> simp [log_of_quiet c hlogs hinstance, within]
  · rfl

theorem signalHandler_acquires (h : handlerLogs c = true) (sig : Signal) :
    ∃ rest, c.signalHandler sig = .acquire :: rest := by
  simp only [handlerLogs, Bool.and_eq_true, decide_eq_true_eq] at h
  obtain ⟨hinstance, hlevel⟩ := h
  have hlog (text : String) : c.log .info text = [.acquire, .other (.output .info text), .release] :=
    if_neg (Nat.not_lt.mpr hlevel)
  unfold DaemonSetup.signalHandler
  rw [if_pos hinstance]
  cases sig <;> exact ⟨_, congrArg (· ++ _) (hlog _)⟩

theorem signalHandler_within (h : handlerLogs c = false) {sig : Signal} {op : Op DaemonOp}
    (hop : op ∈ c.signalHandler sig) : ∃ x, op = .other x ∧ within x = true := by
  unfold DaemonSetup.signalHandler at hop
  split at hop
  · next hinstance =>
    cases sig <;> dsimp only at hop <;> rw [log_of_quiet c h hinstance, List.nil_append] at hop <;>
      exact ⟨_, List.mem_singleton.mp hop, rfl⟩
  · cases hop

theorem bracketed_start : Bracketed within (start c).threads := by
  intro thread
  change after within false (if thread = 0 then c.run else []) = _
  split
  · exact after_run c
  · rfl

end

section
variable {d : Daemon}

theorem safe_of_bracketed (h : Bracketed within d.threads) : d.Safe :=
  fun _ _ hrest => h.not_relocking hrest

theorem after_perform {held : Bool} {op : DaemonOp} {rest : List (Op DaemonOp)}
    (h : after within held (.other op :: rest) = some false) (thread : Nat) (answer : DaemonAnswer) :
    ∃ ops, (d.perform thread answer rest op).threads = d.threads.set thread ops ∧
      after within held ops = some false := by
  rw [after_other] at h
  have hpush {ops : List (Op DaemonOp)} (hop : within op = false)
      (hops : after within false ops = some false) : after within held (ops ++ rest) = some false := by
    cases held with
    | true => simp [hop] at h
    | false => rw [after_append_of within hops]; simpa using h
  have after_nil_false : after within false ([] : List (Op DaemonOp)) = some false := rfl
  have hpop (hop : within op = true) : after within held rest = some false := by
    simpa [hop] using h
  cases op with
  | call callee =>
    refine ⟨_, rfl, hpush rfl ?_⟩
    rw [after_append_of within (after_logs _ answer)]
    exact after_afterCall _ callee answer
  | whileRunning =>
    refine ⟨_, rfl, hpush rfl ?_⟩
    split
    · rfl
    · exact after_cleanup _
  | ifIpcRunning =>
    refine ⟨_, rfl, hpush rfl ?_⟩
    split <;> rfl
  | ifReloadRequested =>
    refine ⟨_, rfl, hpush rfl ?_⟩
    split
    · exact after_reload _
    · rfl
  | returns code =>
    refine ⟨[], rfl, ?_⟩
    cases held with
    | true => simp [within] at h
    | false => rfl
  | exits code =>
    refine ⟨[], rfl, ?_⟩
    cases held with
    | true => simp [within] at h
    | false => rfl
  | sleep => exact ⟨rest, rfl, hpush rfl after_nil_false⟩
  | ipcStop => exact ⟨rest, rfl, hpush rfl after_nil_false⟩
  | removePidFile => exact ⟨rest, rfl, hpush rfl after_nil_false⟩
  | _ => exact ⟨rest, rfl, hpop rfl⟩

theorem bracketed_step (h : Bracketed within d.threads) (s : DaemonStep) (hapart : d.Apart s) :
    Bracketed within (d.step s).threads := by
  unfold step
  split
  · exact h
  next hlive =>
  cases s with
  | exec thread answer =>
    dsimp only
    split
    · next hnil =>
      split
      · exact h
      · have hfree := h thread
        rw [hnil, after_nil, Option.some.injEq] at hfree
        exact h.set (hfree ▸ after_logs _ answer)
    · next hrest => exact h.acquire hrest
    · next hrest => exact h.release hrest
    · next op rest hrest =>
      obtain ⟨ops, hthreads, hops⟩ := after_perform (hrest ▸ h thread) thread answer
      rw [hthreads]
      exact h.set hops
  | signal thread sig =>
    dsimp only
    split
    · exact h
    · next hmasked =>
      have hheld : handlerLogs d.toDaemonSetup = true → d.threads.holds thread = false := by
        intro hlogs
        have howner := hapart (by simpa using hlive) hlogs (by simpa using hmasked)
        simpa [Threads.holds] using howner
      refine h.set ?_
      rw [after_append_of within (after_signalHandler _ hheld sig), after_other]
      simpa [within] using h thread

theorem signal_of_not_apart {thread : Nat} {sig : Signal} (hapart : ¬ d.Apart (.signal thread sig)) :
    d.threads.owner = some thread ∧
      ∃ ops, (d.step (.signal thread sig)).threads = d.threads.set thread (.acquire :: ops) := by
  obtain ⟨hlive, hlogs, hmasked, howner⟩ : d.exited = none ∧ handlerLogs d.toDaemonSetup = true ∧
      d.masked thread sig = false ∧ d.threads.owner = some thread := by
    simpa [Apart] using hapart
  obtain ⟨rest, hhandler⟩ := signalHandler_acquires d.toDaemonSetup hlogs sig
  refine ⟨howner, rest ++ .other (.sigreturn sig) :: d.threads.rest thread, ?_⟩
  simp [step, hlive, hmasked, hhandler]

theorem unsafe_of_not_apart {s : DaemonStep} (hapart : ¬ d.Apart s) : ¬ (d.step s).Safe := by
  cases s with
  | exec thread answer => exact absurd trivial hapart
  | signal thread sig =>
    obtain ⟨howner, ops, hthreads⟩ := signal_of_not_apart hapart
    intro hsafe
    refine hsafe thread ops ?_ ?_
    · rw [hthreads, Threads.rest_set_self]
    · rw [hthreads]
      exact howner

theorem handler_never_relocks_iff (c : DaemonSetup) (steps : List DaemonStep) :
    Runs.Always step Safe (start c) steps ↔ Runs.Each step Apart (start c) steps :=
  Runs.always_iff_each_of_invariant (I := fun d => Bracketed within d.threads)
    (fun _ s h hapart => bracketed_step h s hapart) (fun _ _ _ hapart => unsafe_of_not_apart hapart)
    (fun _ h => safe_of_bracketed h) (bracketed_start c)

theorem stuck_exec {i : Nat} (h : Stuck within d.threads i) (thread : Nat) (answer : DaemonAnswer) :
    Stuck within (d.step (.exec thread answer)).threads i := by
  unfold step
  split
  · exact h
  dsimp only
  split
  · next hnil =>
    split
    · exact h
    · have hne : thread ≠ i := by
        rintro rfl
        obtain ⟨before, rest, hrest, -⟩ := h.waits
        simp [hnil] at hrest
      exact h.set_other hne (after_logs _ answer)
  · rw [h.acquire]
    exact h
  · next hrest => exact absurd hrest h.not_release
  · next op rest hrest =>
    rcases eq_or_ne thread i with rfl | hne
    · rcases h.head hrest with hacquire | ⟨c, hc, hwithin, hpopped⟩
      · cases hacquire
      · obtain rfl := Op.other.inj hc
        cases op <;> first | exact hpopped | cases hwithin
    · obtain ⟨ops, hthreads, hops⟩ := after_perform (hrest ▸ h.others thread hne) thread answer
      rw [hthreads]
      exact h.set_other hne hops

theorem stuck_signal {i : Nat} (h : Stuck within d.threads i) (thread : Nat) (sig : Signal) :
    Stuck within (d.step (.signal thread sig)).threads i := by
  unfold step
  split
  · exact h
  dsimp only
  split
  · exact h
  · rcases eq_or_ne thread i with rfl | hne
    · cases hlogs : handlerLogs d.toDaemonSetup with
      | true =>
        obtain ⟨rest, hhandler⟩ := signalHandler_acquires d.toDaemonSetup hlogs sig
        have hnone : ∀ op ∈ ([] : List (Op DaemonOp)), ∃ c, op = .other c ∧ within c = true := by simp
        rw [hhandler]
        exact h.set_self hnone
      | false =>
        have hsplit : d.signalHandler sig ++ .other (.sigreturn sig) :: d.threads.rest thread =
            (d.signalHandler sig ++ [.other (.sigreturn sig)]) ++ d.threads.rest thread := by simp
        rw [hsplit]
        refine h.push fun op hop => ?_
        rcases List.mem_append.mp hop with hhandler | hreturn
        · exact signalHandler_within _ hlogs hhandler
        · exact ⟨_, List.mem_singleton.mp hreturn, rfl⟩
    · refine h.set_other hne ?_
      rw [after_append_of within (after_signalHandler _ (fun _ => rfl) sig), after_other]
      simpa using h.others thread hne

theorem stuck_forever (h : Bracketed within d.threads) {thread : Nat} {sig : Signal}
    (hapart : ¬ d.Apart (.signal thread sig)) (steps : List DaemonStep) :
    Stuck within (Runs.run step (d.step (.signal thread sig)) steps).threads thread := by
  refine Runs.run_invariant (P := fun d : Daemon => Stuck within d.threads thread) ?_ ?_ steps
  · intro d s h
    cases s with
    | exec other answer => exact stuck_exec h other answer
    | signal other sig => exact stuck_signal h other sig
  · obtain ⟨howner, ops, hthreads⟩ := signal_of_not_apart hapart
    rw [hthreads]
    exact h.stuck howner ops

end

theorem sigterm_inside_log :
    let setup : DaemonSetup := { daemonize := false, pid := 7 }
    let exec : DaemonStep := .exec 0 {}
    let steps := [exec, exec, exec, exec, exec, .signal 0 .sigterm]
    let d := Runs.run step (start setup) steps
    d.threads.owner = some 0 ∧
      d.threads.rest 0 = [.acquire, .other (.output .info "Received signal 15, shutting down"), .release,
        .other (.setRunning false), .other (.sigreturn .sigterm),
        .other (.output .info "PHM daemon running (pid=7)"), .release, .other .whileRunning] ∧
      ¬ Runs.Always step Safe (start setup) steps := by
  intro setup exec steps d
  have howner : d.threads.owner = some 0 := by decide +kernel
  have hrest : d.threads.rest 0 = [.acquire, .other (.output .info "Received signal 15, shutting down"),
      .release, .other (.setRunning false), .other (.sigreturn .sigterm),
      .other (.output .info "PHM daemon running (pid=7)"), .release, .other .whileRunning] := by
    decide +kernel
  refine ⟨howner, hrest, fun hsafe => ?_⟩
  exact (Runs.always_iff_prefix _ _).mp hsafe steps (List.prefix_refl steps) 0 _ hrest howner

end Daemon

end PlatformHealth
