import PlatformHealth.Channel.HealthChannel
import PlatformHealth.Daemon.Signals
import PlatformHealth.Library.ByteString
import PlatformHealth.Library.CriticalSection

namespace PlatformHealth

open ByteString OwnedLock

def LogLevel.levelStr : LogLevel → String
  | .debug => "DBG"
  | .info => "INF"
  | .warn => "WRN"
  | .error => "ERR"

-- text is what vfprintf makes of fmt and its arguments
structure LogCall where
  lv : LogLevel
  file : String
  line : Nat
  func : String
  text : Bytes
deriving DecidableEq

inductive LogOp where
  | readClock
  | printFront (lv : LogLevel) (file : String) (line : Nat) (func : String)
  | printText (text : Bytes)
  | printNewline
deriving DecidableEq

def LogCall.ops (c : LogCall) : List LogOp :=
  [.readClock, .printFront c.lv c.file c.line c.func, .printText c.text, .printNewline]

structure LogStream where
  out : Bytes := []
  timebuf : Nat → Bytes := fun _ => []

structure LogLine where
  thread : Nat
  time : Int
  call : LogCall

def LogLine.stamp (l : LogLine) : Entry LogOp Int := ⟨l.thread, .readClock, l.time⟩

namespace Logger

-- what is left of the calls of one thread where lv < level_ returns at once
def admitted (level : LogLevel) (calls : List LogCall) : List LogCall :=
  calls.filter fun c => level.value ≤ c.lv.value

def front (timebuf : Bytes) (lv : LogLevel) (file : String) (line : Nat) (func : String) : Bytes :=
  utf8 "[" ++ timebuf ++ utf8 "] [" ++ utf8 lv.levelStr ++ utf8 "] " ++ utf8 file ++ utf8 ":" ++
    utf8 (toString line) ++ utf8 ":" ++ utf8 func ++ utf8 ": "

def programs (level : LogLevel) (calls : Nat → List LogCall) (i : Nat) : List (List LogOp) :=
  (admitted level (calls i)).map LogCall.ops

def returned (level : LogLevel) (calls : Nat → List LogCall) (steps : List (Nat × Int)) (i : Nat) : Bool :=
  ((Runs.run advance (launch (programs level calls)) steps).rest i).isEmpty

section
variable (strftime : Int → Bytes)

def perform (s : LogStream) (e : Entry LogOp Int) : LogStream :=
  match e.command with
  | .readClock => { s with timebuf := fun i => if i = e.thread then strftime e.input else s.timebuf i }
  | .printFront lv file line func => { s with out := s.out ++ front (s.timebuf e.thread) lv file line func }
  | .printText text => { s with out := s.out ++ text }
  | .printNewline => { s with out := s.out ++ [10] }

-- what is in the file after the threads have been scheduled so, each step at a reading of the clock
def written (level : LogLevel) (calls : Nat → List LogCall) (steps : List (Nat × Int)) : Bytes :=
  (Runs.run (perform strftime) {} (executed (programs level calls) steps)).out

def readings (level : LogLevel) (calls : Nat → List LogCall) (steps : List (Nat × Int)) : List (Entry LogOp Int) :=
  (executed (programs level calls) steps).filter fun e => e.command = .readClock

def render (l : LogLine) : Bytes :=
  front (strftime l.time) l.call.lv l.call.file l.call.line l.call.func ++ l.call.text ++ [10]

end

def Writes (x : Turn LogOp Int) (l : LogLine) : Prop :=
  x.thread = l.thread ∧ x.call = l.call.ops ∧ x.done.head?.map Prod.snd = some l.time

section
variable {strftime : Int → Bytes} {x : Turn LogOp Int} {l : LogLine} {turns : List (Turn LogOp Int)}
  {lines : List LogLine}

theorem ops_injective : Function.Injective LogCall.ops := by
  rintro ⟨lv, file, line, func, text⟩ ⟨lv', file', line', func', text'⟩ h
  simp only [LogCall.ops, List.cons.injEq, LogOp.printFront.injEq, LogOp.printText.injEq] at h
  grind

theorem exists_writes {call : LogCall} (h : x.call = call.ops) : ∃ l, Writes x l ∧ l.call = call := by
  obtain ⟨thread, done⟩ := x
  cases done with
  | nil => cases h
  | cons e done => exact ⟨⟨thread, e.2, call⟩, ⟨rfl, h, rfl⟩, rfl⟩

theorem Writes.done (h : Writes x l) : ∃ front text newline : Int,
    x.done = [(.readClock, l.time), (.printFront l.call.lv l.call.file l.call.line l.call.func, front),
      (.printText l.call.text, text), (.printNewline, newline)] := by
  obtain ⟨-, hcall, htime⟩ := h
  obtain ⟨thread, done⟩ := x
  match done, hcall, htime with
  | [(_, a), (_, b), (_, c), (_, d)], hcall, htime =>
    simp only [Turn.call, List.map_cons, List.map_nil, LogCall.ops, List.cons.injEq, and_true] at hcall
    obtain ⟨rfl, rfl, rfl, rfl⟩ := hcall
    simp only [List.head?_cons, Option.map_some, Option.some.injEq] at htime
    exact ⟨b, c, d, by rw [htime]⟩

theorem out_of_turn (h : Writes x l) (s : LogStream) :
    (Runs.run (perform strftime) s x.entries).out = s.out ++ render strftime l := by
  obtain ⟨front, text, newline, hdone⟩ := h.done
  rw [Turn.entries, hdone]
  simp [Runs.run, perform, render]

theorem out_of_turns (h : List.Forall₂ Writes turns lines) (s : LogStream) :
    (Runs.run (perform strftime) s (turns.flatMap Turn.entries)).out =
      s.out ++ lines.flatMap (render strftime) := by
  induction h generalizing s with
  | nil => simp
  | cons hone hmore ih =>
    rw [List.flatMap_cons, Runs.run_append, ih, out_of_turn hone, List.flatMap_cons, List.append_assoc]

theorem exists_lines (h : ∀ x ∈ turns, ∃ call : LogCall, x.call = call.ops) :
    ∃ lines, List.Forall₂ Writes turns lines := by
  induction turns with
  | nil => exact ⟨[], .nil⟩
  | cons x turns ih =>
    obtain ⟨call, hcall⟩ := h x (by simp)
    obtain ⟨l, hl, -⟩ := exists_writes hcall
    obtain ⟨lines, hlines⟩ := ih fun y hy => h y (by simp [hy])
    exact ⟨l :: lines, .cons hl hlines⟩

theorem callsOf_of_writes (h : List.Forall₂ Writes turns lines) (i : Nat) :
    callsOf turns i = ((lines.filter fun l => l.thread = i).map LogLine.call).map LogCall.ops := by
  induction h with
  | nil => rfl
  | cons hone hmore ih =>
    unfold callsOf at ih ⊢
    simp only [List.filter_cons, hone.1]
    split
    · rw [List.map_cons, List.map_cons, List.map_cons, ih, hone.2.1]
    · exact ih

theorem stamps_of_turns (h : List.Forall₂ Writes turns lines) :
    (turns.flatMap Turn.entries).filter (fun e => e.command = .readClock) = lines.map LogLine.stamp := by
  induction h with
  | nil => rfl
  | cons hone hmore ih =>
    obtain ⟨front, text, newline, hdone⟩ := hone.done
    rw [List.flatMap_cons, List.filter_append, ih, List.map_cons, ← List.singleton_append]
    simp [Turn.entries, hdone, hone.1, LogLine.stamp]

theorem out_perform (s : LogStream) (e : Entry LogOp Int) : s.out <+: (perform strftime s e).out := by
  unfold perform
  split
  · exact List.prefix_refl _
  all_goals exact List.prefix_append _ _

variable (strftime) in
theorem out_run (s : LogStream) (es : List (Entry LogOp Int)) :
    s.out <+: (Runs.run (perform strftime) s es).out :=
  Runs.run_invariant (P := fun t => s.out <+: t.out) (fun t e ht => ht.trans (out_perform t e))
    (List.prefix_refl _) es

variable (strftime) in
theorem exists_torn {call : LogCall} (h : x.call <+: call.ops) (s : LogStream) :
    ∃ time torn, (Runs.run (perform strftime) s x.entries).out = s.out ++ torn ∧
      torn <+: render strftime ⟨x.thread, time, call⟩ := by
  obtain ⟨left, hleft⟩ := h
  let whole : Turn LogOp Int := ⟨x.thread, x.done ++ left.map fun op => (op, 0)⟩
  have hwhole : whole.call = call.ops := by
    rw [← hleft]
    simp [whole, Turn.call, Function.comp_def]
  have hentries : whole.entries = x.entries ++ left.map fun op => ⟨x.thread, op, 0⟩ := by
    simp [whole, Turn.entries]
  obtain ⟨l, hl, hlcall⟩ := exists_writes hwhole
  have hline : l = ⟨x.thread, l.time, call⟩ := by
    rw [← hlcall, ← show whole.thread = x.thread from rfl, hl.1]
  obtain ⟨torn, htorn⟩ := out_run strftime s x.entries
  refine ⟨l.time, torn, htorn.symm, ?_⟩
  rw [← hline, ← List.prefix_append_right_inj s.out, htorn, ← out_of_turn hl, hentries, Runs.run_append]
  exact out_run strftime _ _

theorem calls_of_ops {calls done : List LogCall} {pending : List (List LogOp)}
    (h : calls.map LogCall.ops = done.map LogCall.ops ++ pending) :
    ∃ left, calls = done ++ left ∧ pending = left.map LogCall.ops := by
  obtain ⟨first, left, rfl, hfirst, hleft⟩ := List.map_eq_append_iff.mp h
  exact ⟨left, by rw [List.map_injective_iff.mpr ops_injective hfirst], hleft.symm⟩

theorem exists_written (level : LogLevel) (calls : Nat → List LogCall) (steps : List (Nat × Int)) :
    ∃ (turns : List (Turn LogOp Int)) (lines : List LogLine) (last : Option (Turn LogOp Int)),
      List.Forall₂ Writes turns lines ∧
      executed (programs level calls) steps = (turns ++ last.toList).flatMap Turn.entries ∧
      ∀ i, ∃ left, admitted level (calls i) = (lines.filter fun l => l.thread = i).map LogLine.call ++ left ∧
        (returned level calls steps i → left = []) ∧
        ∀ x ∈ last, x.thread = i → ∃ call ∈ left.head?, x.call <+: call.ops := by
  obtain ⟨turns, last, hexecuted, hthreads⟩ := serialized (programs level calls) steps
  have hops : ∀ x ∈ turns, ∃ call : LogCall, x.call = call.ops := by
    intro x hx
    obtain ⟨pending, hcalls, -⟩ := hthreads x.thread
    have hmem : x.call ∈ programs level calls x.thread := by
      rw [hcalls]
      exact List.mem_append_left _ (List.mem_map_of_mem (by simp [hx]))
    obtain ⟨call, -, hcall⟩ := List.mem_map.mp hmem
    exact ⟨call, hcall.symm⟩
  obtain ⟨lines, hlines⟩ := exists_lines hops
  refine ⟨turns, lines, last, hlines, hexecuted, fun i => ?_⟩
  obtain ⟨pending, hcalls, hnone, hnext⟩ := hthreads i
  rw [programs, callsOf_of_writes hlines] at hcalls
  obtain ⟨left, hleft, rfl⟩ := calls_of_ops hcalls
  refine ⟨left, hleft, ?_, ?_⟩
  · intro hreturned
    exact List.map_eq_nil_iff.mp (hnone (List.isEmpty_iff.mp hreturned))
  · intro x hx hthread
    obtain ⟨ops, hops, hprefix⟩ := hnext x hx hthread
    rw [List.head?_map] at hops
    obtain ⟨call, hcall, rfl⟩ := Option.map_eq_some_iff.mp hops
    exact ⟨call, hcall, hprefix⟩

variable (strftime) in
theorem lines_whole (level : LogLevel) (calls : Nat → List LogCall) (steps : List (Nat × Int)) :
    ∃ (lines : List LogLine) (torn : Bytes),
      written strftime level calls steps = lines.flatMap (render strftime) ++ torn ∧
      lines.map LogLine.stamp <+: readings level calls steps ∧
      (lines.map fun l => (l.thread, l.time)).Sublist steps ∧
      (∀ i, (lines.filter fun l => l.thread = i).map LogLine.call <+: admitted level (calls i)) ∧
      (∀ i, returned level calls steps i →
        (lines.filter fun l => l.thread = i).map LogLine.call = admitted level (calls i)) ∧
      (torn = [] ∨ ∃ l, torn <+: render strftime l ∧
        ((lines ++ [l]).filter fun m => m.thread = l.thread).map LogLine.call <+:
          admitted level (calls l.thread)) := by
  obtain ⟨turns, lines, last, hlines, hexecuted, hthreads⟩ := exists_written level calls steps
  have hstamps : lines.map LogLine.stamp <+: readings level calls steps := by
    rw [readings, hexecuted, List.flatMap_append, List.filter_append, stamps_of_turns hlines]
    exact List.prefix_append _ _
  have htimes : (lines.map fun l => (l.thread, l.time)).Sublist steps := by
    have hpast := (hstamps.sublist.trans List.filter_sublist).map fun e => (e.thread, e.input)
    rw [List.map_map] at hpast
    exact hpast.trans (executed_sublist (launch (programs level calls)) steps)
  have hdone : ∀ i, (lines.filter fun l => l.thread = i).map LogLine.call <+: admitted level (calls i) := by
    intro i
    obtain ⟨left, hleft, -⟩ := hthreads i
    exact ⟨left, hleft.symm⟩
  have hreturned : ∀ i, returned level calls steps i →
      (lines.filter fun l => l.thread = i).map LogLine.call = admitted level (calls i) := by
    intro i hi
    obtain ⟨left, hleft, hnone, -⟩ := hthreads i
    rw [hleft, hnone hi, List.append_nil]
  cases last with
  | none =>
    refine ⟨lines, [], ?_, hstamps, htimes, hdone, hreturned, .inl rfl⟩
    rw [written, hexecuted, Option.toList_none, List.append_nil, out_of_turns hlines, List.append_nil]
    rfl
  | some x =>
    obtain ⟨left, hleft, -, hnext⟩ := hthreads x.thread
    obtain ⟨call, hcall, hprefix⟩ := hnext x rfl rfl
    obtain ⟨after, rfl⟩ := List.head?_eq_some_iff.mp hcall
    obtain ⟨time, torn, htorn, hrender⟩ :=
      exists_torn strftime hprefix (Runs.run (perform strftime) {} (turns.flatMap Turn.entries))
    refine ⟨lines, torn, ?_, hstamps, htimes, hdone, hreturned, .inr ⟨_, hrender, ⟨after, ?_⟩⟩⟩
    · rw [written, hexecuted, List.flatMap_append, Runs.run_append, Option.toList_some,
        List.flatMap_singleton, htorn, out_of_turns hlines]
      rfl
    · rw [hleft]
      simp

end

end Logger

end PlatformHealth
