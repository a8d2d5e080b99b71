import PlatformHealth.Engine.Steps

namespace PlatformHealth

open LockDiscipline

namespace PhmEngine

variable {μ ε : Type} [IMonitor μ ε]

def stopBegin : EngineM μ Bool :=
  withLock do
    let e ← get
    set { e with running := false }
    return e.running

def stopEnd : EngineM μ Unit :=
  withLock do
    modify fun e => { e with objects := stopAll e.refs e.objects }

theorem stop_eq : (stop : EngineM μ Unit) = (do
    if ← stopBegin then
      modify fun e => { e with worker := none }
      stopEnd) :=
  rfl

def Stopped (se : SupervisedEntity μ) : Prop := ∃ before : SupervisedEntity μ, se = before.stop

def AllStopped (e : PhmEngine μ) : Prop :=
  ∀ ref ∈ e.refs, ∀ se, e.objects[ref]? = some se → Stopped se

section
variable {e f : PhmEngine μ}

theorem stopBegin_eq (hfree : e.mutex = false) :
    stopBegin e = .ok (e.running, { e with running := false }) := by
  have hends : Ends stopBegin e (fun was f => was = e.running ∧ f = { e with running := false })
      (fun _ => False) := by
    rw [stopBegin, ends_withLock_of_free hfree, ends_bind, ends_get, ends_bind, ends_set, ends_pure]
    exact ⟨rfl, eq_of_unlocked hfree rfl⟩
  obtain ⟨_, f, hf, rfl, rfl⟩ := ends_ok_iff.mp hends
  exact hf

theorem stopEnd_eq (hfree : e.mutex = false) :
    stopEnd e = .ok ((), { e with objects := stopAll e.refs e.objects }) := by
  have hends : Ends stopEnd e (fun _ f => f = { e with objects := stopAll e.refs e.objects })
      (fun _ => False) := by
    rw [stopEnd, ends_withLock_of_free hfree, ends_modify]
    exact eq_of_unlocked hfree rfl
  obtain ⟨_, f, hf, rfl⟩ := ends_ok_iff.mp hends
  exact hf

theorem stopped_stopAll {refs : List Nat} {xs : List (SupervisedEntity μ)} {ref : Nat}
    {se : SupervisedEntity μ} (hse : (stopAll refs xs)[ref]? = some se)
    (h : ref ∈ refs ∨ ∀ before, xs[ref]? = some before → Stopped before) : Stopped se := by
  induction refs generalizing xs with
  | nil =>
    rcases h with hmem | hstopped
    · cases hmem
    · exact hstopped se hse
  | cons first rest ih =>
    change (stopAll rest (xs.modify first SupervisedEntity.stop))[ref]? = some se at hse
    refine ih hse ?_
    rcases eq_or_ne first ref with rfl | hne
    · refine .inr fun before hbefore => ?_
      rw [List.getElem?_modify_eq] at hbefore
      obtain ⟨se, -, rfl⟩ := Option.map_eq_some_iff.mp hbefore
      exact ⟨se, rfl⟩
    · rcases h with hmem | hstopped
      · exact .inl ((List.mem_cons.mp hmem).resolve_left hne.symm)
      · refine .inr fun before hbefore => hstopped before ?_
        rwa [List.getElem?_modify_ne _ _ hne] at hbefore

theorem allStopped_stopAll (e : PhmEngine μ) : AllStopped { e with objects := stopAll e.refs e.objects } :=
  fun _ href _ hse => stopped_stopAll hse (.inl href)

theorem stopBegin_waits (hheld : e.mutex = true) : stopBegin e = .error .relock :=
  ends_relock_iff.mp ((ends_withLock_of_held hheld).mpr rfl)

theorem stopEnd_waits (hheld : e.mutex = true) : stopEnd e = .error .relock :=
  ends_relock_iff.mp ((ends_withLock_of_held hheld).mpr rfl)

theorem ends_start_ok (hfree : e.mutex = false) (readings : Nat → Nat → ε) :
    Ends (start readings) e (fun ok _ => ok = !e.running) (fun _ => True) := by
  rw [start, ends_withLock_of_free hfree, ends_bind, ends_get]
  change Ends (if e.running = true then _ else _) _ _ _
  cases hrun : e.running with
  | true => exact rfl
  | false =>
    rw [if_neg Bool.false_ne_true, ends_bind, ends_get, ends_bind, Ends]
    split
    · exact rfl
    · exact trivial

inductive StartCase (e : PhmEngine μ) (readings : Nat → Nat → ε) : Prop where
  | hangs (fault : Fault CheckFault) (h : start readings e = .error fault) (idle : e.running = false)
      (relocks : e.mutex = false → ¬ LockSafe e (.start readings))
  | refused (h : start readings e = .ok (false, e)) (running : e.running = true)
  | started (f : PhmEngine μ) (h : start readings e = .ok (true, f)) (free : e.mutex = false)
      (idle : e.running = false) (safe : LockSafe e (.start readings)) (ready : f.Ready)
      (running : f.running = true) (worker : f.worker.isSome = true)

theorem start_cases (hreg : e.Registered) (hhung : e.mutex = true → e.running = false)
    (readings : Nat → Nat → ε) : StartCase e readings := by
  cases hlock : e.mutex with
  | true =>
    have hwaits : start readings e = .error .relock :=
      ends_relock_iff.mp ((ends_withLock_of_held hlock).mpr rfl)
    exact .hangs .relock hwaits (hhung hlock) (fun h => by simp [hlock] at h)
  | false =>
    have he : e.Ready := ⟨hlock, hreg⟩
    by_cases hsafe : LockSafe e (.start readings)
    · obtain ⟨ok, f, hf, hready⟩ := ends_ok_iff.mp (start_completes he hsafe)
      have hok := ends_start_ok hlock readings
      have hstart := ends_start he readings
      rw [Ends, hf] at hok hstart
      obtain rfl : ok = !e.running := hok
      cases hrun : e.running with
      | true =>
        obtain rfl : f = e := by simpa [hrun] using hstart
        exact .refused (by simpa [hrun] using hf) hrun
      | false =>
        have hframe : f = _ := (by simpa [hrun] using hstart : _ ∧ _).1
        rw [hrun] at hf
        refine .started f hf hlock hrun hsafe hready ?_ ?_
        · rw [hframe]
        · rw [hframe]
          rfl
    · have hrelock := ends_relock_iff.mp (start_relocks he hsafe)
      have hrun : e.running = false := by
        cases hrun : e.running with
        | false => rfl
        | true => exact absurd (.inl hrun) hsafe
      exact .hangs .relock hrelock hrun (fun _ => hsafe)

theorem free_of_running (hhung : e.mutex = true → e.running = false) (hrun : e.running = true) :
    e.mutex = false := by
  cases hlock : e.mutex with
  | false => rfl
  | true => exact Bool.noConfusion ((hhung hlock).symm.trans hrun)

theorem tick_cases (hreg : e.Registered) (hhung : e.mutex = true → e.running = false)
    (hrun : e.running = true) (readings : Nat → EntityReading ε) (uptimeMs : Nat) :
    (∃ f, tick readings uptimeMs e = .ok ((), f) ∧ f.Ready ∧ f.running = e.running ∧
      f.worker = e.worker) ∨
      ∃ fault, tick readings uptimeMs e = .error (.raised fault) := by
  have he : e.Ready := ⟨free_of_running hhung hrun, hreg⟩
  have hends := ends_tick he hrun readings uptimeMs
  have hkeeps := tick_keeps he readings uptimeMs
  rw [Ends] at hends hkeeps
  cases htick : tick readings uptimeMs e with
  | ok out =>
    rw [htick] at hends hkeeps
    obtain ⟨hf, -⟩ := hends
    exact .inl ⟨out.2, rfl, hkeeps, by rw [hf], by rw [hf]⟩
  | error fault =>
    rw [htick] at hkeeps
    cases fault with
    | relock => exact absurd rfl hkeeps
    | raised fault => exact .inr ⟨fault, rfl⟩

theorem Reachable.worker (h : Reachable e) : e.running = e.worker.isSome := by
  induction h with
  | new cfg => rfl
  | @step e f s he hexec ih =>
    have hframe := (effect_of_exec he.ready hexec).frame
    rw [hframe.running, hframe.worker]
    cases s with
    | call op =>
      cases op with
      | start readings =>
        cases hrun : e.running with
        | true => simp [runningAfter, workerAfter, hrun, ← ih]
        | false => simp [runningAfter, workerAfter, hrun]
      | stop =>
        cases hrun : e.running with
        | true => simp [runningAfter, workerAfter, hrun]
        | false => simp [runningAfter, workerAfter, hrun, ← ih]
      | _ => exact ih
    | _ => exact ih

end

end PhmEngine

inductive LifecycleStep (ε : Type) where
  | start (thread : Nat) (readings : Nat → Nat → ε)
  | stopBegin (thread : Nat)
  | join (thread : Nat)
  | stopEnd (thread : Nat)
  | iterate (loop : Nat) (readings : Nat → EntityReading ε) (uptimeMs : Nat)

-- the tick loops are numbered as they are started, and worker_ holds the last one; joining
-- are the threads whose stop() has cleared running_, stopping those that have joined
structure Lifecycle (μ : Type) where
  engine : PhmEngine μ
  started : Nat := 0
  alive : List Nat := []
  joining : List Nat := []
  stopping : List Nat := []
  quiet : Bool := false
  reassigned : Bool := false
  crashed : Bool := false

namespace Lifecycle

open PhmEngine

variable {μ ε : Type} [IMonitor μ ε]

def busy (t : Lifecycle μ) (thread : Nat) : Bool :=
  t.joining.contains thread || t.stopping.contains thread

-- a start() that asks for the lock again never gives it back; one that assigns to a joinable
-- worker_ ends the process, as an exception in the tick loop does
def step (t : Lifecycle μ) (s : LifecycleStep ε) : Lifecycle μ :=
  if t.reassigned || t.crashed then t
  else
    match s with
    | .start thread readings =>
      if t.busy thread then t
      else
        match start readings t.engine with
        | .error _ => { t with engine := { t.engine with mutex := true }, quiet := false }
        | .ok (false, f) => { t with engine := f, quiet := false }
        | .ok (true, f) =>
          if t.engine.worker.isSome then { t with reassigned := true, quiet := false }
          else
            { t with
              engine := f
              started := t.started + 1
              alive := t.started :: t.alive
              quiet := false }
    | .stopBegin thread =>
      if t.busy thread then t
      else
        match stopBegin t.engine with
        | .error _ => t
        | .ok (wasRunning, f) =>
          { t with engine := f, joining := if wasRunning then thread :: t.joining else t.joining }
    | .join thread =>
      if t.joining.contains thread && (t.engine.worker.isNone || !t.alive.contains (t.started - 1)) then
        { t with
          engine := { t.engine with worker := none }
          joining := t.joining.erase thread
          stopping := thread :: t.stopping }
      else t
    | .stopEnd thread =>
      if t.stopping.contains thread then
        match stopEnd t.engine with
        | .error _ => t
        | .ok (_, f) => { t with engine := f, stopping := t.stopping.erase thread, quiet := true }
      else t
    | .iterate loop readings uptimeMs =>
      if t.alive.contains loop then
        if t.engine.running then
          match tick readings uptimeMs t.engine with
          | .ok (_, f) => { t with engine := f }
          | .error .relock => t
          | .error (.raised _) => { t with crashed := true }
        else { t with alive := t.alive.erase loop }
      else t

-- quiet holds from the return of a stop() that found running_ true until the next start()
structure Safe (t : Lifecycle μ) : Prop where
  assigned : t.reassigned = false
  one_loop : t.alive.length ≤ 1
  one_join : t.engine.worker.isSome = true → t.joining.length ≤ 1
  silent : t.quiet = true → (t.engine.running = true → t.alive = []) ∧ t.engine.AllStopped

-- no start() gets past its check of running_ between a stop()'s first section and its join,
-- and running_ is still false when the stop()'s last section runs
def Orderly (t : Lifecycle μ) : LifecycleStep ε → Prop
  | .start thread readings =>
    t.crashed = false → t.busy thread = false → t.engine.mutex = false → t.engine.running = false →
      LockSafe t.engine (.start readings) → t.joining = []
  | .stopEnd thread => t.crashed = false → t.stopping.contains thread = true → t.engine.running = false
  | _ => True

def Idle (t : Lifecycle μ) : Prop :=
  t.engine.running = false ∧ t.engine.worker = none ∧ t.joining = [] ∧ t.alive = []

def Working (t : Lifecycle μ) : Prop :=
  t.engine.running = true ∧ t.engine.worker.isSome = true ∧ t.joining = [] ∧ t.alive = [t.started - 1]

def Draining (t : Lifecycle μ) : Prop :=
  t.engine.running = false ∧ t.engine.worker.isSome = true ∧ (∃ thread, t.joining = [thread]) ∧
    (t.alive = [] ∨ t.alive = [t.started - 1])

structure Sound (t : Lifecycle μ) : Prop where
  registered : t.engine.Registered
  hung : t.engine.mutex = true → t.engine.running = false
  phase : t.Idle ∨ t.Working ∨ t.Draining

inductive Moves (t : Lifecycle μ) : LifecycleStep ε → Lifecycle μ → Prop
  | stays (s : LifecycleStep ε) (orderly : t.reassigned = false → t.Orderly s) : Moves t s t
  | hangs (thread : Nat) (readings : Nat → Nat → ε) (idle : t.engine.running = false)
      (orderly : t.Orderly (.start thread readings)) :
      Moves t (.start thread readings)
        { t with engine := { t.engine with mutex := true }, quiet := false }
  | refuses (thread : Nat) (readings : Nat → Nat → ε) (running : t.engine.running = true) :
      Moves t (.start thread readings) { t with quiet := false }
  | reassigns (thread : Nat) (readings : Nat → Nat → ε) (disorderly : ¬ t.Orderly (.start thread readings)) :
      Moves t (.start thread readings) { t with reassigned := true, quiet := false }
  | starts (thread : Nat) (readings : Nat → Nat → ε) (f : PhmEngine μ) (idle : t.Idle) (ready : f.Ready)
      (running : f.running = true) (worker : f.worker.isSome = true) :
      Moves t (.start thread readings)
        { t with engine := f, started := t.started + 1, alive := t.started :: t.alive, quiet := false }
  | stopBegins (thread : Nat) :
      Moves t (.stopBegin thread)
        { t with
          engine := { t.engine with running := false }
          joining := if t.engine.running then thread :: t.joining else t.joining }
  | joins (thread : Nat) (mem : thread ∈ t.joining)
      (ended : t.engine.worker = none ∨ t.started - 1 ∉ t.alive) :
      Moves t (.join thread)
        { t with
          engine := { t.engine with worker := none }
          joining := t.joining.erase thread
          stopping := thread :: t.stopping }
  | stopEnds (thread : Nat) (orderly : t.Orderly (.stopEnd thread : LifecycleStep ε) ↔ t.engine.running = false) :
      Moves t (.stopEnd thread)
        { t with
          engine := { t.engine with objects := stopAll t.engine.refs t.engine.objects }
          stopping := t.stopping.erase thread
          quiet := true }
  | ticks (loop : Nat) (readings : Nat → EntityReading ε) (uptimeMs : Nat) (f : PhmEngine μ)
      (running : t.engine.running = true) (ready : f.Ready) (kept : f.running = t.engine.running)
      (worker : f.worker = t.engine.worker) :
      Moves t (.iterate loop readings uptimeMs) { t with engine := f }
  | crashes (loop : Nat) (readings : Nat → EntityReading ε) (uptimeMs : Nat) :
      Moves t (.iterate loop readings uptimeMs) { t with crashed := true }
  | exits (loop : Nat) (readings : Nat → EntityReading ε) (uptimeMs : Nat) (mem : loop ∈ t.alive)
      (idle : t.engine.running = false) :
      Moves t (.iterate loop readings uptimeMs) { t with alive := t.alive.erase loop }

section
variable {t t' : Lifecycle μ} {s : LifecycleStep ε}

theorem moves_start (h : t.Sound) (hassigned : t.reassigned = false) (hlive : t.crashed = false)
    {thread : Nat} (hbusy : t.busy thread = false) (readings : Nat → Nat → ε) :
    t.Moves (.start thread readings) (t.step (.start thread readings)) := by
  unfold step
  rw [if_neg (by simp [hassigned, hlive])]
  dsimp only
  rw [if_neg (by simp [hbusy])]
  cases start_cases h.registered h.hung readings with
  | hangs fault heq hidle hrelocks =>
    rw [heq]
    exact .hangs thread readings hidle fun _ _ hfree _ hlock => absurd hlock (hrelocks hfree)
  | refused heq hrun =>
    rw [heq]
    exact .refuses thread readings hrun
  | started f heq hfree hidle hlock hready hrun hworker =>
    rw [heq]
    dsimp only
    split
    · next hjoinable =>
      refine .reassigns thread readings fun horderly => ?_
      have hnone := horderly hlive hbusy hfree hidle hlock
      rcases h.phase with ⟨-, hworker, -⟩ | ⟨hworking, -⟩ | ⟨-, -, ⟨other, hjoining⟩, -⟩
      · simp [hworker] at hjoinable
      · exact Bool.noConfusion (hidle.symm.trans hworking)
      · simp [hjoining] at hnone
    · next hjoinable =>
      refine .starts thread readings f ?_ hready hrun hworker
      rcases h.phase with hidle | hworking | hdraining
      · exact hidle
      · exact absurd hworking.2.1 hjoinable
      · exact absurd hdraining.2.1 hjoinable

theorem moves_iterate (h : t.Sound) (loop : Nat) (readings : Nat → EntityReading ε) (uptimeMs : Nat)
    (hmoving : (t.reassigned || t.crashed) = false) :
    t.Moves (.iterate loop readings uptimeMs) (t.step (.iterate loop readings uptimeMs)) := by
  unfold step
  rw [if_neg (by simp [hmoving])]
  dsimp only
  split
  · next hloop =>
    split
    · next hrun =>
      rcases tick_cases h.registered h.hung hrun readings uptimeMs with
        ⟨f, heq, hready, hkept, hworker⟩ | ⟨fault, heq⟩
      · rw [heq]
        exact .ticks loop readings uptimeMs f hrun hready hkept hworker
      · rw [heq]
        exact .crashes loop readings uptimeMs
    · next hrun => exact .exits loop readings uptimeMs (by simpa using hloop) (by simpa using hrun)
  · exact .stays _ fun _ => trivial

theorem moves (h : t.Sound) (s : LifecycleStep ε) : t.Moves s (t.step s) := by
  cases hmoving : t.reassigned || t.crashed with
  | true =>
    have hsame : t.step s = t := by
      unfold step
      rw [if_pos hmoving]
    rw [hsame]
    refine .stays s fun hassigned => ?_
    have hcrashed : t.crashed = true := by simpa [hassigned] using hmoving
    cases s <;> simp [Orderly, hcrashed]
  | false =>
    obtain ⟨hassigned, hlive⟩ : t.reassigned = false ∧ t.crashed = false := by simpa using hmoving
    cases s with
    | start thread readings =>
      cases hbusy : t.busy thread with
      | true =>
        have hsame : t.step (.start thread readings) = t := by simp [step, hbusy]
        rw [hsame]
        exact .stays _ fun _ _ hfree => Bool.noConfusion (hbusy.symm.trans hfree)
      | false => exact moves_start h hassigned hlive hbusy readings
    | stopBegin thread =>
      unfold step
      rw [if_neg (by simp [hmoving])]
      dsimp only
      split
      · exact .stays _ fun _ => trivial
      cases hlock : t.engine.mutex with
      | true =>
        rw [stopBegin_waits hlock]
        exact .stays _ fun _ => trivial
      | false =>
        rw [stopBegin_eq hlock]
        exact .stopBegins thread
    | join thread =>
      unfold step
      rw [if_neg (by simp [hmoving])]
      dsimp only
      split
      · next hjoins =>
        obtain ⟨hthread, hended⟩ : thread ∈ t.joining ∧
            (t.engine.worker = none ∨ t.started - 1 ∉ t.alive) := by simpa using hjoins
        exact .joins thread hthread hended
      · exact .stays _ fun _ => trivial
    | stopEnd thread =>
      unfold step
      rw [if_neg (by simp [hmoving])]
      dsimp only
      split
      · next hthread =>
        cases hlock : t.engine.mutex with
        | true =>
          rw [stopEnd_waits hlock]
          exact .stays _ fun _ _ _ => h.hung hlock
        | false =>
          rw [stopEnd_eq hlock]
          exact .stopEnds thread ⟨fun horderly => horderly hlive hthread, fun hidle _ _ => hidle⟩
      · next hthread => exact .stays _ fun _ _ hmem => absurd hmem hthread
    | iterate loop readings uptimeMs => exact moves_iterate h loop readings uptimeMs hmoving

theorem Sound.of_moves (h : t.Sound) (hmoves : t.Moves s t') : t'.Sound := by
  cases hmoves with
  | stays => exact h
  | hangs thread readings hidle => exact ⟨h.registered, fun _ => hidle, h.phase⟩
  | refuses => exact ⟨h.registered, h.hung, h.phase⟩
  | reassigns => exact ⟨h.registered, h.hung, h.phase⟩
  | starts thread readings f hidle hready hrun hworker =>
    obtain ⟨-, -, hjoining, halive⟩ := hidle
    refine ⟨hready.registered, fun hheld => Bool.noConfusion (hready.free.symm.trans hheld), .inr (.inl ?_)⟩
    exact ⟨hrun, hworker, hjoining, by simp [halive]⟩
  | stopBegins thread =>
    refine ⟨h.registered, fun _ => rfl, ?_⟩
    rcases h.phase with ⟨hrun, hworker, hjoining, halive⟩ | ⟨hrun, hworker, hjoining, halive⟩ |
      ⟨hrun, hworker, hjoining, halive⟩
    · exact .inl ⟨rfl, hworker, by simp [hrun, hjoining], halive⟩
    · exact .inr (.inr ⟨rfl, hworker, ⟨thread, by simp [hrun, hjoining]⟩, .inr halive⟩)
    · exact .inr (.inr ⟨rfl, hworker, by simpa [hrun] using hjoining, halive⟩)
  | joins thread hthread hended =>
    rcases h.phase with ⟨-, -, hjoining, -⟩ | ⟨-, -, hjoining, -⟩ |
      ⟨hrun, hworker, ⟨other, hjoining⟩, halive⟩
    · simp [hjoining] at hthread
    · simp [hjoining] at hthread
    · obtain rfl : thread = other := by simpa [hjoining] using hthread
      have hnone : t.alive = [] := by
        refine halive.resolve_right fun hlast => ?_
        rcases hended with hnone | hended
        · simp [hnone] at hworker
        · simp [hlast] at hended
      exact ⟨h.registered, h.hung, .inl ⟨hrun, rfl, by simp [hjoining], hnone⟩⟩
  | stopEnds => exact ⟨h.registered.evolves (evolves_stopAll _ _) rfl, h.hung, h.phase⟩
  | ticks loop readings uptimeMs f hrun hready hkept hworker =>
    refine ⟨hready.registered, fun hheld => Bool.noConfusion (hready.free.symm.trans hheld), ?_⟩
    simpa [Idle, Working, Draining, hkept, hworker] using h.phase
  | crashes => exact ⟨h.registered, h.hung, h.phase⟩
  | exits loop readings uptimeMs hloop hidle =>
    refine ⟨h.registered, h.hung, ?_⟩
    rcases h.phase with ⟨-, -, -, halive⟩ | hworking | ⟨-, hworker, hjoining, halive⟩
    · simp [halive] at hloop
    · exact Bool.noConfusion (hidle.symm.trans hworking.1)
    · refine .inr (.inr ⟨hidle, hworker, hjoining, .inl ?_⟩)
      rcases halive with halive | halive
      · simp [halive] at hloop
      · obtain rfl : loop = t.started - 1 := by simpa [halive] using hloop
        simp [halive]

theorem Sound.step (h : t.Sound) (s : LifecycleStep ε) : (t.step s).Sound := h.of_moves (moves h s)

theorem Sound.one_loop (h : t.Sound) : t.alive.length ≤ 1 := by
  rcases h.phase with ⟨-, -, -, halive⟩ | ⟨-, -, -, halive⟩ | ⟨-, -, -, halive | halive⟩ <;> simp [halive]

theorem Sound.one_join (h : t.Sound) : t.joining.length ≤ 1 := by
  rcases h.phase with ⟨-, -, hjoining, -⟩ | ⟨-, -, hjoining, -⟩ | ⟨-, -, ⟨thread, hjoining⟩, -⟩ <;>
    simp [hjoining]

theorem Sound.safe_iff (h : t.Sound) : t.Safe ↔ t.reassigned = false ∧
    (t.quiet = true → t.engine.running = false ∧ t.engine.AllStopped) := by
  constructor
  · rintro ⟨hassigned, -, -, hsilent⟩
    refine ⟨hassigned, fun hquiet => ⟨?_, (hsilent hquiet).2⟩⟩
    rcases h.phase with hidle | hworking | hdraining
    · exact hidle.1
    · have hnone := (hsilent hquiet).1 hworking.1
      simp [hworking.2.2.2] at hnone
    · exact hdraining.1
  · rintro ⟨hassigned, hsilent⟩
    refine ⟨hassigned, h.one_loop, fun _ => h.one_join, fun hquiet => ?_⟩
    obtain ⟨hrun, hstopped⟩ := hsilent hquiet
    exact ⟨fun hrunning => Bool.noConfusion (hrun.symm.trans hrunning), hstopped⟩

theorem safe_iff_of_moves (h : t.Sound) (hsafe : t.Safe) (hmoves : t.Moves s t') :
    t'.Safe ↔ t.Orderly s := by
  rw [(h.of_moves hmoves).safe_iff]
  obtain ⟨hassigned, hsilent⟩ := h.safe_iff.mp hsafe
  cases hmoves with
  | stays s horderly => exact iff_of_true ⟨hassigned, hsilent⟩ (horderly hassigned)
  | hangs thread readings hidle horderly =>
    exact iff_of_true ⟨hassigned, fun hquiet => by cases hquiet⟩ horderly
  | refuses thread readings hrun =>
    refine iff_of_true ⟨hassigned, fun hquiet => by cases hquiet⟩ ?_
    intro _ _ _ hidle
    exact Bool.noConfusion (hidle.symm.trans hrun)
  | reassigns thread readings hdisorderly => exact iff_of_false (fun hbad => by cases hbad.1) hdisorderly
  | starts thread readings f hidle =>
    exact iff_of_true ⟨hassigned, fun hquiet => by cases hquiet⟩ fun _ _ _ _ _ => hidle.2.2.1
  | stopBegins => exact iff_of_true ⟨hassigned, fun hquiet => ⟨rfl, (hsilent hquiet).2⟩⟩ trivial
  | joins => exact iff_of_true ⟨hassigned, hsilent⟩ trivial
  | stopEnds thread horderly =>
    rw [horderly]
    constructor
    · rintro ⟨-, hafter⟩
      exact (hafter rfl).1
    · exact fun hidle => ⟨hassigned, fun _ => ⟨hidle, allStopped_stopAll _⟩⟩
  | ticks loop readings uptimeMs f hrun =>
    refine iff_of_true ⟨hassigned, fun hquiet => ?_⟩ trivial
    exact Bool.noConfusion ((hsilent hquiet).1.symm.trans hrun)
  | crashes => exact iff_of_true ⟨hassigned, hsilent⟩ trivial
  | exits => exact iff_of_true ⟨hassigned, hsilent⟩ trivial

theorem run_stop (h : t.Sound) (hassigned : t.reassigned = false) (hlive : t.crashed = false)
    (hworking : t.Working) {thread : Nat} (hbusy : t.busy thread = false)
    (readings : Nat → EntityReading ε) (uptimeMs : Nat) :
    (Runs.run step t [.stopBegin thread, .iterate (t.started - 1) readings uptimeMs, .join thread,
      .stopEnd thread]).engine = t.engine.stopped := by
  obtain ⟨hrun, hworker, hjoining, halive⟩ := hworking
  have hfree := free_of_running h.hung hrun
  rw [Runs.run_cons, Runs.run_cons, Runs.run_cons, Runs.run_cons, Runs.run_nil]
  have hbegin : t.step (.stopBegin thread : LifecycleStep ε) =
      { t with engine := { t.engine with running := false }, joining := [thread] } := by
    simp [step, hassigned, hlive, hbusy, stopBegin_eq hfree, hrun, hjoining]
  have hexit : (t.step (.stopBegin thread : LifecycleStep ε)).step
      (.iterate (t.started - 1) readings uptimeMs) =
      { t with engine := { t.engine with running := false }, joining := [thread], alive := [] } := by
    rw [hbegin]
    simp [step, hassigned, hlive, halive]
  have hjoin : (Lifecycle.mk { t.engine with running := false } t.started [] [thread] t.stopping t.quiet
      t.reassigned t.crashed).step (.join thread : LifecycleStep ε) =
      { t with
        engine := { t.engine with running := false, worker := none }
        joining := []
        alive := []
        stopping := thread :: t.stopping } := by
    simp [step, hassigned, hlive]
  rw [hexit, hjoin]
  simp [step, hassigned, hlive, stopEnd_eq, hfree, stopped, hrun, refs]

theorem Sound.initial {e : PhmEngine μ} (he : Reachable e) (hidle : e.running = false) :
    Sound { engine := e } where
  registered := he.ready.registered
  hung := fun _ => hidle
  phase := by
    have hworker : e.worker = none := by simpa [hidle] using he.worker.symm
    exact .inl ⟨hidle, hworker, rfl, rfl⟩

theorem start_stop_safe_iff (e : PhmEngine μ) (he : Reachable e) (hidle : e.running = false)
    (steps : List (LifecycleStep ε)) :
    Runs.Always step Safe { engine := e } steps ↔ Runs.Each step Orderly { engine := e } steps := by
  have hsound : Sound { engine := e } := .initial he hidle
  have hsafe : Safe { engine := e } := hsound.safe_iff.mpr ⟨rfl, fun hquiet => by cases hquiet⟩
  exact Runs.always_iff_each (I := Sound) (fun _ s h hsafe => safe_iff_of_moves h hsafe (moves h s))
    (fun _ s h => h.step s) hsound hsafe

end

def reads : Nat → Nat → Report := fun _ _ => {}

def quietly : Nat → EntityReading Report := fun _ => { check := fun _ => {}, restart := fun _ => {} }

theorem start_then_stop_safe :
    let e : PhmEngine ReportingMonitor := new {}
    let steps : List (LifecycleStep Report) :=
      [.start 0 reads, .stopBegin 1, .iterate 0 quietly 100, .join 1, .stopEnd 1]
    Runs.Always step Safe { engine := e } steps ∧
      (Runs.run step { engine := e } steps).quiet = true := by
  intro e steps
  have horderly : Runs.Each step Orderly { engine := e } steps :=
    ⟨fun _ _ _ _ _ => rfl, trivial, trivial, trivial, fun _ _ => by decide +kernel, trivial⟩
  exact ⟨(start_stop_safe_iff e (.new {}) rfl steps).mpr horderly, by decide +kernel⟩

theorem start_slips_into_stop :
    let fresh : Lifecycle ReportingMonitor := { engine := new {} }
    let first : List (LifecycleStep Report) := [.start 0 reads, .stopBegin 1, .start 2 reads]
    let second : List (LifecycleStep Report) :=
      [.start 0 reads, .stopBegin 1, .iterate 0 quietly 100, .join 1, .start 2 reads, .stopEnd 1]
    (Runs.run step fresh first).reassigned = true ∧ ¬ Runs.Always step Safe fresh first ∧
      ((Runs.run step fresh second).quiet = true ∧ (Runs.run step fresh second).engine.running = true ∧
        (Runs.run step fresh second).alive = [1]) ∧ ¬ Runs.Always step Safe fresh second := by
  intro fresh first second
  have hfirst : (Runs.run step fresh first).reassigned = true := by decide +kernel
  have hsecond : (Runs.run step fresh second).quiet = true ∧
      (Runs.run step fresh second).engine.running = true ∧
      (Runs.run step fresh second).alive = [1] := by decide +kernel
  refine ⟨hfirst, fun hsafe => ?_, hsecond, fun hsafe => ?_⟩
  · have hlast := (Runs.always_iff_prefix _ _).mp hsafe first (List.prefix_refl first)
    exact Bool.noConfusion (hlast.assigned.symm.trans hfirst)
  · have hlast := (Runs.always_iff_prefix _ _).mp hsafe second (List.prefix_refl second)
    obtain ⟨hquiet, hrun, halive⟩ := hsecond
    have hnone := (hlast.silent hquiet).1 hrun
    simp [halive] at hnone

end Lifecycle

end PlatformHealth
