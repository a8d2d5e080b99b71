import PlatformHealth.Library.OwnedLock
import PlatformHealth.Library.Traces

namespace OwnedLock

variable {C A : Type}

def bracket (call : List C) : List (Op C) := .acquire :: (call.map .other ++ [.release])

def program (calls : List (List C)) : List (Op C) := calls.flatMap bracket

def launch (calls : Nat → List (List C)) : Threads C where
  rest i := program (calls i)

def advance (t : Threads C) (s : Nat × A) : Threads C :=
  match t.rest s.1 with
  | [] => t
  | .acquire :: rest => t.acquire s.1 rest
  | .release :: rest => t.release s.1 rest
  | .other _ :: rest => t.set s.1 rest

structure Entry (C A : Type) where
  thread : Nat
  command : C
  input : A

def entry (t : Threads C) (s : Nat × A) : Option (Entry C A) :=
  match t.rest s.1 with
  | .other c :: _ => some ⟨s.1, c, s.2⟩
  | _ => none

def executed (calls : Nat → List (List C)) (steps : List (Nat × A)) : List (Entry C A) :=
  Runs.trace advance entry (launch calls) steps

structure Turn (C A : Type) where
  thread : Nat
  done : List (C × A)

namespace Turn

def entries (x : Turn C A) : List (Entry C A) := x.done.map fun e => ⟨x.thread, e.1, e.2⟩

def call (x : Turn C A) : List C := x.done.map Prod.fst

end Turn

def callsOf (turns : List (Turn C A)) (i : Nat) : List (List C) :=
  (turns.filter fun x => x.thread = i).map Turn.call

theorem callsOf_concat_self (turns : List (Turn C A)) (x : Turn C A) :
    callsOf (turns ++ [x]) x.thread = callsOf turns x.thread ++ [x.call] := by
  simp [callsOf]

theorem callsOf_concat_ne (turns : List (Turn C A)) {x : Turn C A} {i : Nat} (h : i ≠ x.thread) :
    callsOf (turns ++ [x]) i = callsOf turns i := by
  simp [callsOf, h.symm]

inductive Serial (calls : Nat → List (List C)) (seen : List (Entry C A)) (t : Threads C) : Prop
  | free (turns : List (Turn C A)) (pending : Nat → List (List C)) (owner : t.owner = none)
    (seen_eq : seen = turns.flatMap Turn.entries) (calls_eq : ∀ i, calls i = callsOf turns i ++ pending i)
    (rest_eq : ∀ i, t.rest i = program (pending i))
  | held (turns : List (Turn C A)) (pending : Nat → List (List C)) (x : Turn C A) (left : List C)
    (owner : t.owner = some x.thread) (seen_eq : seen = turns.flatMap Turn.entries ++ x.entries)
    (calls_self : calls x.thread = callsOf turns x.thread ++ (x.call ++ left) :: pending x.thread)
    (calls_eq : ∀ i, i ≠ x.thread → calls i = callsOf turns i ++ pending i)
    (rest_self : t.rest x.thread = left.map .other ++ .release :: program (pending x.thread))
    (rest_eq : ∀ i, i ≠ x.thread → t.rest i = program (pending i))

section
variable {calls : Nat → List (List C)} {seen : List (Entry C A)} {t : Threads C}

theorem serial_launch (calls : Nat → List (List C)) : Serial calls ([] : List (Entry C A)) (launch calls) :=
  .free [] calls rfl rfl (fun _ => rfl) fun _ => rfl

theorem program_cons (call : List C) (more : List (List C)) :
    program (call :: more) = .acquire :: (call.map .other ++ .release :: program more) := by
  simp [program, bracket]

theorem program_eq_nil {calls : List (List C)} (h : program calls = []) : calls = [] := by
  cases calls with
  | nil => rfl
  | cons call more =>
    rw [program_cons] at h
    cases h

theorem Serial.step (h : Serial calls seen t) (s : Nat × A) :
    Serial calls (seen ++ (entry t s).toList) (advance t s) := by
  obtain ⟨i, a⟩ := s
  cases h with
  | free turns pending owner seen_eq calls_eq rest_eq =>
    cases hpending : pending i with
    | nil =>
      have hrest : t.rest i = [] := by rw [rest_eq, hpending]; rfl
      have hstay : advance t (i, a) = t := by simp [advance, hrest]
      have hnone : entry t (i, a) = none := by simp [entry, hrest]
      rw [hstay, hnone, Option.toList_none, List.append_nil]
      exact .free turns pending owner seen_eq calls_eq rest_eq
    | cons call more =>
      have hrest : t.rest i = .acquire :: (call.map .other ++ .release :: program more) := by
        rw [rest_eq, hpending, program_cons]
      have hnone : entry t (i, a) = none := by simp [entry, hrest]
      have htaken : advance t (i, a) =
          { t.set i (call.map .other ++ .release :: program more) with owner := some i } := by
        simp [advance, hrest, Threads.acquire, owner]
      rw [hnone, htaken, Option.toList_none, List.append_nil]
      refine .held turns (Function.update pending i more) ⟨i, []⟩ call rfl ?_ ?_ ?_ ?_ ?_
      · rw [seen_eq]
        exact (List.append_nil _).symm
      · rw [calls_eq, hpending]
        simp [Turn.call]
      · intro j hne
        rw [calls_eq, Function.update_of_ne hne]
      · simp
      · intro j hne
        change (t.set i _).rest j = _
        rw [Threads.rest_set_ne _ _ hne, rest_eq, Function.update_of_ne hne]
  | held turns pending x left owner seen_eq calls_self calls_eq rest_self rest_eq =>
    rcases eq_or_ne i x.thread with rfl | hne
    · cases left with
      | nil =>
        have hnone : entry t (x.thread, a) = none := by simp [entry, rest_self]
        have hgiven : advance t (x.thread, a) = t.release x.thread (program (pending x.thread)) := by
          simp [advance, rest_self]
        rw [hnone, hgiven, Option.toList_none, List.append_nil]
        refine .free (turns ++ [x]) pending rfl ?_ ?_ ?_
        · rw [seen_eq, List.flatMap_append, List.flatMap_singleton]
        · intro j
          rcases eq_or_ne j x.thread with rfl | hne
          · rw [calls_self, callsOf_concat_self, List.append_nil, List.append_assoc]
            rfl
          · rw [calls_eq j hne, callsOf_concat_ne turns hne]
        · intro j
          change (t.set x.thread _).rest j = _
          rcases eq_or_ne j x.thread with rfl | hne
          · rw [Threads.rest_set_self]
          · rw [Threads.rest_set_ne _ _ hne, rest_eq j hne]
      | cons c left =>
        have hsome : entry t (x.thread, a) = some ⟨x.thread, c, a⟩ := by simp [entry, rest_self]
        have hgone : advance t (x.thread, a) =
            t.set x.thread (left.map .other ++ .release :: program (pending x.thread)) := by
          simp [advance, rest_self]
        rw [hsome, hgone]
        refine .held turns pending ⟨x.thread, x.done ++ [(c, a)]⟩ left owner ?_ ?_ calls_eq ?_ ?_
        · rw [seen_eq]
          simp [Turn.entries]
        · rw [calls_self]
          simp [Turn.call]
        · exact Threads.rest_set_self _ _ _
        · intro j hne
          rw [Threads.rest_set_ne _ _ hne, rest_eq j hne]
    · have hwaits : advance t (i, a) = t ∧ entry t (i, a) = none := by
        cases hpending : pending i with
        | nil =>
          have hrest : t.rest i = [] := by rw [rest_eq i hne, hpending]; rfl
          simp [advance, entry, hrest]
        | cons call more =>
          have hrest : t.rest i = .acquire :: (call.map .other ++ .release :: program more) := by
            rw [rest_eq i hne, hpending, program_cons]
          simp [advance, entry, hrest, Threads.acquire, owner]
      rw [hwaits.1, hwaits.2, Option.toList_none, List.append_nil]
      exact .held turns pending x left owner seen_eq calls_self calls_eq rest_self rest_eq

theorem serialized (calls : Nat → List (List C)) (steps : List (Nat × A)) :
    ∃ (turns : List (Turn C A)) (last : Option (Turn C A)),
      executed calls steps = (turns ++ last.toList).flatMap Turn.entries ∧
      ∀ i, ∃ pending, calls i = callsOf turns i ++ pending ∧
        ((Runs.run advance (launch calls) steps).rest i = [] → pending = []) ∧
        ∀ x ∈ last, x.thread = i → ∃ call ∈ pending.head?, x.call <+: call := by
  have hserial := Runs.trace_invariant (I := fun seen t => Serial calls (A := A) seen t)
    (fun _ _ s h => h.step s) (serial_launch calls) steps
  cases hserial with
  | free turns pending owner seen_eq calls_eq rest_eq =>
    refine ⟨turns, none, by simpa [executed] using seen_eq, fun i => ⟨pending i, calls_eq i, ?_, by simp⟩⟩
    intro hrest
    exact program_eq_nil ((rest_eq i).symm.trans hrest)
  | held turns pending x left owner seen_eq calls_self calls_eq rest_self rest_eq =>
    refine ⟨turns, some x, by simpa [executed] using seen_eq, fun i => ?_⟩
    rcases eq_or_ne i x.thread with rfl | hne
    · refine ⟨_, calls_self, ?_, fun y hy _ => ⟨_, rfl, ?_⟩⟩
      · intro hrest
        rw [rest_self] at hrest
        exact absurd hrest (by simp)
      · obtain rfl := Option.some.inj hy
        exact List.prefix_append _ _
    · refine ⟨pending i, calls_eq i hne, ?_, ?_⟩
      · intro hrest
        exact program_eq_nil ((rest_eq i hne).symm.trans hrest)
      · intro y hy hthread
        obtain rfl := Option.some.inj hy
        exact absurd hthread.symm hne

theorem executed_sublist (t : Threads C) (steps : List (Nat × A)) :
    ((Runs.trace advance entry t steps).map fun e => (e.thread, e.input)).Sublist steps := by
  induction steps generalizing t with
  | nil => exact List.Sublist.refl []
  | cons s steps ih =>
    rw [Runs.trace, List.map_append]
    have hone : ((entry t s).toList.map fun e => (e.thread, e.input)).Sublist [s] := by
      unfold entry
      split
      · exact List.Sublist.refl _
      · exact List.nil_sublist _
    exact hone.append (ih _)

end

end OwnedLock
