import PlatformHealth.Library.Runs
import Mathlib.Data.List.Basic
import Mathlib.Logic.Function.Basic

namespace PlatformHealth

-- how far a thread has come with start() or stop() of a ProcessResourceReporter
inductive ReporterPhase where
  | idle
  | starting
  | stopping
  | resetting
deriving DecidableEq

inductive ReporterStep where
  | start (thread : Nat)
  | assign (thread : Nat)
  | stop (thread : Nat)
  | join (thread : Nat)
  | reset (thread : Nat)
  | loop (worker : Nat)
  | destroy
deriving DecidableEq

-- worker is the number of the thread under worker_, and whether it is joinable; alive are the threads
-- that are still in their loop
structure ReporterThreads where
  running : Bool := false
  worker : Option (Nat × Bool) := none
  alive : List Nat := []
  born : Nat := 0
  phase : Nat → ReporterPhase := fun _ => .idle
  terminated : Bool := false

namespace ReporterThreads

def joinable (s : ReporterThreads) : Bool := s.worker.any Prod.snd

-- a joinable std::thread that is destroyed ends the process
def step (s : ReporterThreads) : ReporterStep → ReporterThreads
  | .start i =>
    if s.phase i = .idle ∧ s.running = false then
      { s with running := true, phase := Function.update s.phase i .starting }
    else s
  | .assign i =>
    if s.phase i = .starting then
      { s with
        worker := some (s.born, true)
        alive := s.born :: s.alive
        born := s.born + 1
        phase := Function.update s.phase i .idle
        terminated := s.terminated || s.joinable }
    else s
  | .stop i =>
    if s.phase i = .idle ∧ s.running = true then
      { s with running := false, phase := Function.update s.phase i .stopping }
    else s
  | .join i =>
    if s.phase i = .stopping then
      match s.worker with
      | some (k, true) =>
        if k ∈ s.alive then s
        else { s with worker := some (k, false), phase := Function.update s.phase i .resetting }
      | _ => { s with phase := Function.update s.phase i .resetting }
    else s
  | .reset i =>
    if s.phase i = .resetting then
      { s with
        worker := none
        phase := Function.update s.phase i .idle
        terminated := s.terminated || s.joinable }
    else s
  | .loop k => if k ∈ s.alive ∧ s.running = false then { s with alive := s.alive.erase k } else s
  | .destroy => { s with worker := none, terminated := s.terminated || s.joinable }

structure Safe (s : ReporterThreads) : Prop where
  terminated : s.terminated = false
  one : s.alive.length ≤ 1
  silent : (∀ i, s.phase i = .idle) → s.running = false → s.alive = []

-- no exchange of running_ that succeeds falls into another call, and the destructor, whose stop() has
-- returned, comes when no call is under way
def Orderly (s : ReporterThreads) : ReporterStep → Prop
  | .start i => s.phase i = .idle → s.running = false → ∀ j, s.phase j = .idle
  | .stop i => s.phase i = .idle → s.running = true → ∀ j, s.phase j = .idle
  | .destroy => s.running = false ∧ ∀ j, s.phase j = .idle
  | _ => True

-- what finishes the calls under way, and then the object; no new call comes in
def Completes (s : ReporterThreads) : ReporterStep → Prop
  | .start _ => False
  | .stop _ => False
  | a => s.Orderly a

inductive Sound (s : ReporterThreads) : Prop
  | quiet (running : s.running = false) (worker : s.worker = none) (alive : s.alive = [])
    (phase : s.phase = fun _ => .idle)
  | starting (i : Nat) (running : s.running = true) (worker : s.worker = none) (alive : s.alive = [])
    (phase : s.phase = Function.update (fun _ => .idle) i .starting)
  | working (k : Nat) (running : s.running = true) (worker : s.worker = some (k, true)) (alive : s.alive = [k])
    (phase : s.phase = fun _ => .idle)
  | stopping (i k : Nat) (running : s.running = false) (worker : s.worker = some (k, true))
    (alive : s.alive = [k] ∨ s.alive = []) (phase : s.phase = Function.update (fun _ => .idle) i .stopping)
  | resetting (i k : Nat) (running : s.running = false) (worker : s.worker = some (k, false))
    (alive : s.alive = []) (phase : s.phase = Function.update (fun _ => .idle) i .resetting)

section
variable {s : ReporterThreads} {a : ReporterStep} {i j k : Nat} {p : ReporterPhase}

theorem update_idle (i : Nat) (p : ReporterPhase) :
    Function.update (Function.update (fun _ : Nat => ReporterPhase.idle) i p) i .idle = fun _ => .idle := by
  rw [Function.update_idem, Function.update_eq_self_iff]

theorem phase_cases (h : s.phase = Function.update (fun _ => .idle) i p) (j : Nat) :
    j = i ∧ s.phase j = p ∨ j ≠ i ∧ s.phase j = .idle := by
  rw [h]
  rcases eq_or_ne j i with rfl | hne
  · exact .inl ⟨rfl, Function.update_self _ _ _⟩
  · exact .inr ⟨hne, Function.update_of_ne hne _ _⟩

theorem not_all_idle (h : s.phase = Function.update (fun _ => .idle) i p) (hp : p ≠ .idle)
    (hall : ∀ j, s.phase j = .idle) : False := by
  have hi := hall i
  rw [h, Function.update_self] at hi
  exact hp hi

theorem step_start (hi : s.phase i = .idle) (running : s.running = false) :
    s.step (.start i) = { s with running := true, phase := Function.update s.phase i .starting } :=
  if_pos ⟨hi, running⟩

theorem step_stop (hi : s.phase i = .idle) (running : s.running = true) :
    s.step (.stop i) = { s with running := false, phase := Function.update s.phase i .stopping } :=
  if_pos ⟨hi, running⟩

theorem start_stays (h : s.phase i ≠ .idle ∨ s.running = true) : s.step (.start i) = s := by
  refine if_neg ?_
  rintro ⟨hidle, hstopped⟩
  rcases h with h | h
  · exact h hidle
  · rw [h] at hstopped
    cases hstopped

theorem stop_stays (h : s.phase i ≠ .idle ∨ s.running = false) : s.step (.stop i) = s := by
  refine if_neg ?_
  rintro ⟨hidle, hrunning⟩
  rcases h with h | h
  · exact h hidle
  · rw [h] at hrunning
    cases hrunning

theorem assign_stays (h : s.phase i ≠ .starting) : s.step (.assign i) = s := if_neg h

theorem join_stays (h : s.phase i ≠ .stopping) : s.step (.join i) = s := if_neg h

theorem reset_stays (h : s.phase i ≠ .resetting) : s.step (.reset i) = s := if_neg h

theorem loop_stays (h : k ∉ s.alive ∨ s.running = true) : s.step (.loop k) = s := by
  refine if_neg ?_
  rintro ⟨hmem, hstopped⟩
  rcases h with h | h
  · exact h hmem
  · rw [h] at hstopped
    cases hstopped

theorem stays_of_others (h : s.phase = Function.update (fun _ => .idle) i p) {q : ReporterPhase}
    (hq : q ≠ .idle) (hpq : p ≠ q) (j : Nat) : s.phase j ≠ q := by
  rcases phase_cases h j with ⟨-, hj⟩ | ⟨-, hj⟩
  · exact hj ▸ hpq
  · exact hj ▸ hq.symm

theorem sound_of_quiet (ht : s.terminated = false) (ha : s.Orderly a) (running : s.running = false)
    (worker : s.worker = none) (alive : s.alive = []) (phase : s.phase = fun _ => .idle) :
    (s.step a).Sound ∧ (s.step a).terminated = false := by
  have hstill : s.Sound ∧ s.terminated = false := ⟨.quiet running worker alive phase, ht⟩
  have hidle (i : Nat) : s.phase i = .idle := by rw [phase]
  cases a with
  | start i =>
    rw [step_start (hidle i) running]
    exact ⟨.starting i rfl worker alive (by rw [phase]), ht⟩
  | assign i => rwa [assign_stays (by rw [hidle]; decide)]
  | stop i => rwa [stop_stays (.inr running)]
  | join i => rwa [join_stays (by rw [hidle]; decide)]
  | reset i => rwa [reset_stays (by rw [hidle]; decide)]
  | loop k => rwa [loop_stays (.inl (by rw [alive]; exact List.not_mem_nil))]
  | destroy =>
    refine ⟨.quiet running rfl alive phase, ?_⟩
    simp [step, ht, joinable, worker]

theorem sound_of_starting (ht : s.terminated = false) (ha : s.Orderly a) (running : s.running = true)
    (worker : s.worker = none) (alive : s.alive = [])
    (phase : s.phase = Function.update (fun _ => .idle) i .starting) :
    (s.step a).Sound ∧ (s.step a).terminated = false := by
  have hstill : s.Sound ∧ s.terminated = false := ⟨.starting i running worker alive phase, ht⟩
  cases a with
  | start j => rwa [start_stays (.inr running)]
  | assign j =>
    rcases phase_cases phase j with ⟨rfl, hj⟩ | ⟨-, hj⟩
    · have hstep : s.step (.assign j) = _ := if_pos hj
      rw [hstep]
      refine ⟨.working s.born running rfl (by rw [alive]) (by rw [phase, update_idle]), ?_⟩
      simp [ht, joinable, worker]
    · rwa [assign_stays (by rw [hj]; decide)]
  | stop j =>
    rcases phase_cases phase j with ⟨-, hj⟩ | ⟨-, hj⟩
    · rwa [stop_stays (.inl (by rw [hj]; decide))]
    · exact (not_all_idle phase (by decide) (ha hj running)).elim
  | join j => rwa [join_stays (stays_of_others phase (by decide) (by decide) j)]
  | reset j => rwa [reset_stays (stays_of_others phase (by decide) (by decide) j)]
  | loop k => rwa [loop_stays (.inr running)]
  | destroy => exact (not_all_idle phase (by decide) ha.2).elim

theorem sound_of_working (ht : s.terminated = false) (ha : s.Orderly a) (running : s.running = true)
    (worker : s.worker = some (k, true)) (alive : s.alive = [k]) (phase : s.phase = fun _ => .idle) :
    (s.step a).Sound ∧ (s.step a).terminated = false := by
  have hstill : s.Sound ∧ s.terminated = false := ⟨.working k running worker alive phase, ht⟩
  have hidle (i : Nat) : s.phase i = .idle := by rw [phase]
  cases a with
  | start i => rwa [start_stays (.inr running)]
  | assign i => rwa [assign_stays (by rw [hidle]; decide)]
  | stop i =>
    rw [step_stop (hidle i) running]
    exact ⟨.stopping i k rfl worker (.inl alive) (by rw [phase]), ht⟩
  | join i => rwa [join_stays (by rw [hidle]; decide)]
  | reset i => rwa [reset_stays (by rw [hidle]; decide)]
  | loop k => rwa [loop_stays (.inr running)]
  | destroy =>
    rw [ha.1] at running
    cases running

theorem sound_of_stopping (ht : s.terminated = false) (ha : s.Orderly a) (running : s.running = false)
    (worker : s.worker = some (k, true)) (alive : s.alive = [k] ∨ s.alive = [])
    (phase : s.phase = Function.update (fun _ => .idle) i .stopping) :
    (s.step a).Sound ∧ (s.step a).terminated = false := by
  have hstill : s.Sound ∧ s.terminated = false := ⟨.stopping i k running worker alive phase, ht⟩
  cases a with
  | start j =>
    rcases phase_cases phase j with ⟨-, hj⟩ | ⟨-, hj⟩
    · rwa [start_stays (.inl (by rw [hj]; decide))]
    · exact (not_all_idle phase (by decide) (ha hj running)).elim
  | assign j => rwa [assign_stays (stays_of_others phase (by decide) (by decide) j)]
  | stop j => rwa [stop_stays (.inr running)]
  | join j =>
    rcases phase_cases phase j with ⟨rfl, hj⟩ | ⟨-, hj⟩
    · rcases alive with halive | halive
      · have hstep : s.step (.join j) = s := by simp [step, hj, worker, halive]
        rwa [hstep]
      · have hstep : s.step (.join j) =
            { s with worker := some (k, false), phase := Function.update s.phase j .resetting } := by
          simp [step, hj, worker, halive]
        rw [hstep]
        exact ⟨.resetting j k running rfl halive (by rw [phase, Function.update_idem]), ht⟩
    · rwa [join_stays (by rw [hj]; decide)]
  | reset j => rwa [reset_stays (stays_of_others phase (by decide) (by decide) j)]
  | loop l =>
    rcases alive with halive | halive
    · rcases eq_or_ne l k with rfl | hne
      · have hstep : s.step (.loop l) = { s with alive := s.alive.erase l } := if_pos ⟨by simp [halive], running⟩
        rw [hstep]
        exact ⟨.stopping i l running worker (.inr (by simp [halive])) phase, ht⟩
      · rwa [loop_stays (.inl (by simpa [halive] using hne))]
    · rwa [loop_stays (.inl (by simp [halive]))]
  | destroy => exact (not_all_idle phase (by decide) ha.2).elim

theorem sound_of_resetting (ht : s.terminated = false) (ha : s.Orderly a) (running : s.running = false)
    (worker : s.worker = some (k, false)) (alive : s.alive = [])
    (phase : s.phase = Function.update (fun _ => .idle) i .resetting) :
    (s.step a).Sound ∧ (s.step a).terminated = false := by
  have hstill : s.Sound ∧ s.terminated = false := ⟨.resetting i k running worker alive phase, ht⟩
  cases a with
  | start j =>
    rcases phase_cases phase j with ⟨-, hj⟩ | ⟨-, hj⟩
    · rwa [start_stays (.inl (by rw [hj]; decide))]
    · exact (not_all_idle phase (by decide) (ha hj running)).elim
  | assign j => rwa [assign_stays (stays_of_others phase (by decide) (by decide) j)]
  | stop j => rwa [stop_stays (.inr running)]
  | join j => rwa [join_stays (stays_of_others phase (by decide) (by decide) j)]
  | reset j =>
    rcases phase_cases phase j with ⟨rfl, hj⟩ | ⟨-, hj⟩
    · have hstep : s.step (.reset j) = _ := if_pos hj
      rw [hstep]
      refine ⟨.quiet running rfl alive (by rw [phase, update_idle]), ?_⟩
      simp [ht, joinable, worker]
    · rwa [reset_stays (by rw [hj]; decide)]
  | loop l => rwa [loop_stays (.inl (by simp [alive]))]
  | destroy => exact (not_all_idle phase (by decide) ha.2).elim

theorem Sound.step (hs : s.Sound) (ht : s.terminated = false) (ha : s.Orderly a) :
    (s.step a).Sound ∧ (s.step a).terminated = false := by
  cases hs with
  | quiet running worker alive phase => exact sound_of_quiet ht ha running worker alive phase
  | starting i running worker alive phase => exact sound_of_starting ht ha running worker alive phase
  | working k running worker alive phase => exact sound_of_working ht ha running worker alive phase
  | stopping i k running worker alive phase => exact sound_of_stopping ht ha running worker alive phase
  | resetting i k running worker alive phase => exact sound_of_resetting ht ha running worker alive phase

theorem Sound.safe (hs : s.Sound) (ht : s.terminated = false) : s.Safe := by
  cases hs with
  | quiet running worker alive phase => exact ⟨ht, by simp [alive], fun _ _ => alive⟩
  | starting i running worker alive phase => exact ⟨ht, by simp [alive], fun _ _ => alive⟩
  | working k running worker alive phase =>
    refine ⟨ht, by simp [alive], ?_⟩
    intro _ hstopped
    rw [hstopped] at running
    cases running
  | stopping i k running worker alive phase =>
    refine ⟨ht, ?_, fun hidle _ => (not_all_idle phase (by decide) hidle).elim⟩
    rcases alive with halive | halive <;> simp [halive]
  | resetting i k running worker alive phase => exact ⟨ht, by simp [alive], fun _ _ => alive⟩

theorem safe_of_orderly (hs : s.Sound) (ht : s.terminated = false) {steps : List ReporterStep}
    (horderly : Runs.Each step Orderly s steps) :
    Runs.Always step Safe s steps ∧ (Runs.run step s steps).Sound ∧ (Runs.run step s steps).terminated = false := by
  induction steps generalizing s with
  | nil => exact ⟨hs.safe ht, hs, ht⟩
  | cons a steps ih =>
    obtain ⟨hnext, hterminated⟩ := hs.step ht horderly.1
    obtain ⟨halways, hlast⟩ := ih hnext hterminated horderly.2
    exact ⟨⟨hs.safe ht, halways⟩, hlast⟩

theorem Completes.orderly (h : s.Completes a) : s.Orderly a := by
  cases a with
  | start i => exact h.elim
  | stop i => exact h.elim
  | _ => exact h

theorem each_orderly {steps : List ReporterStep} (h : Runs.Each step Completes s steps) :
    Runs.Each step Orderly s steps :=
  Runs.each_of_invariant (I := fun _ => True) (fun _ _ _ hc => ⟨hc.orderly, trivial⟩) trivial h

theorem start_into_join (hi : s.phase i = .idle) (running : s.running = false) (worker : s.worker = some (k, true)) :
    (Runs.run step s [.start i, .assign i]).terminated = true := by
  rw [Runs.run_cons, step_start hi running, Runs.run_cons, Runs.run_nil]
  simp [step, joinable, worker]

theorem start_into_reset (hi : s.phase i = .idle) (hj : s.phase j = .resetting) (running : s.running = false) :
    (Runs.run step s [.start i, .assign i, .reset j]).terminated = true := by
  have hne : j ≠ i := by
    rintro rfl
    rw [hi] at hj
    cases hj
  rw [Runs.run_cons, step_start hi running, Runs.run_cons, Runs.run_cons, Runs.run_nil]
  simp [step, joinable, Function.update_of_ne hne, hj]

theorem stop_into_start (hi : s.phase i = .idle) (running : s.running = true) (worker : s.worker = none)
    (phase : s.phase = Function.update (fun _ => .idle) j .starting) :
    ∃ rest, Runs.Each step Completes (s.step (.stop i)) rest ∧
      (Runs.run step (s.step (.stop i)) rest).terminated = true := by
  have hne : i ≠ j := by
    rintro rfl
    rw [phase, Function.update_self] at hi
    cases hi
  have hj : s.phase j = .starting := by rw [phase, Function.update_self]
  rw [step_stop hi running]
  refine ⟨[.join i, .reset i, .assign j, .destroy], ⟨trivial, trivial, trivial, ⟨?_, ?_⟩, trivial⟩, ?_⟩
  · simp [step, worker, Function.update_of_ne hne.symm, hj]
  · intro l
    rcases eq_or_ne l j with rfl | hl
    · simp [step, worker, Function.update_of_ne hne.symm, hj]
    · simp [step, worker, Function.update_of_ne hne.symm, Function.update_of_ne hl, phase, Function.update_apply]
  · simp [step, worker, joinable, Function.update_of_ne hne.symm, hj]

theorem terminates_of_disorder (hs : s.Sound) (ha : ¬ s.Orderly a) (hlives : a ≠ .destroy) :
    ∃ rest, Runs.Each step Completes (s.step a) rest ∧ (Runs.run step (s.step a) rest).terminated = true := by
  cases a with
  | start i =>
    simp only [Orderly, Classical.not_imp, not_forall] at ha
    obtain ⟨hi, hstopped, j, hj⟩ := ha
    cases hs with
    | quiet running worker alive phase => exact (hj (by rw [phase])).elim
    | starting l running worker alive phase =>
      rw [hstopped] at running
      cases running
    | working k running worker alive phase => exact (hj (by rw [phase])).elim
    | stopping l k running worker alive phase =>
      exact ⟨[.assign i], ⟨trivial, trivial⟩, start_into_join hi hstopped worker⟩
    | resetting l k running worker alive phase =>
      have hl : s.phase l = .resetting := by rw [phase, Function.update_self]
      exact ⟨[.assign i, .reset l], ⟨trivial, trivial, trivial⟩, start_into_reset hi hl hstopped⟩
  | stop i =>
    simp only [Orderly, Classical.not_imp, not_forall] at ha
    obtain ⟨hi, hrunning, j, hj⟩ := ha
    cases hs with
    | quiet running worker alive phase => exact (hj (by rw [phase])).elim
    | starting l running worker alive phase => exact stop_into_start hi running worker phase
    | working k running worker alive phase => exact (hj (by rw [phase])).elim
    | stopping l k running worker alive phase =>
      rw [hrunning] at running
      cases running
    | resetting l k running worker alive phase =>
      rw [hrunning] at running
      cases running
  | destroy => exact (hlives rfl).elim
  | _ => exact (ha trivial).elim

end

theorem sound_new : ({} : ReporterThreads).Sound := .quiet rfl rfl rfl rfl

theorem safe_iff_orderly (steps : List ReporterStep) (a : ReporterStep) (hlives : a ≠ .destroy)
    (horderly : Runs.Each step Orderly {} steps) :
    Runs.Always step Safe {} steps ∧
      ((Runs.run step {} steps).Orderly a ↔
        ∀ rest, Runs.Each step Completes (Runs.run step {} (steps ++ [a])) rest →
          (Runs.run step {} (steps ++ a :: rest)).terminated = false) := by
  obtain ⟨halways, hsound, hterminated⟩ := safe_of_orderly sound_new rfl horderly
  simp only [Runs.run_append, Runs.run_cons, Runs.run_nil]
  refine ⟨halways, ?_, ?_⟩
  · intro ha rest hrest
    obtain ⟨hnext, hstill⟩ := hsound.step hterminated ha
    exact (safe_of_orderly hnext hstill (each_orderly hrest)).2.2
  · intro hsafe
    by_contra ha
    obtain ⟨rest, hrest, hends⟩ := terminates_of_disorder hsound ha hlives
    rw [hsafe rest hrest] at hends
    cases hends

theorem stop_during_start :
    ¬ ∀ rest, Runs.Each step Completes (Runs.run step {} [.start 0, .stop 1]) rest →
      (Runs.run step {} (.start 0 :: .stop 1 :: rest)).terminated = false := by
  intro hsafe
  have horderly := (safe_iff_orderly [.start 0] (.stop 1) (by decide) ⟨fun _ _ _ => rfl, trivial⟩).2.mpr hsafe
  cases horderly rfl rfl 0

end ReporterThreads

end PlatformHealth
