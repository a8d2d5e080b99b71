import Mathlib.Data.List.Basic

namespace OwnedLock

variable {C : Type}

inductive Op (C : Type) where
  | acquire
  | release
  | other (c : C)
deriving DecidableEq

structure Threads (C : Type) where
  owner : Option Nat := none
  rest : Nat → List (Op C)

namespace Threads

def holds (t : Threads C) (i : Nat) : Bool := t.owner == some i

def set (t : Threads C) (i : Nat) (ops : List (Op C)) : Threads C :=
  { t with rest := fun j => if j = i then ops else t.rest j }

def acquire (t : Threads C) (i : Nat) (rest : List (Op C)) : Threads C :=
  match t.owner with
  | none => { t.set i rest with owner := some i }
  | some _ => t

def release (t : Threads C) (i : Nat) (rest : List (Op C)) : Threads C :=
  { t.set i rest with owner := none }

@[simp] theorem rest_set_self (t : Threads C) (i : Nat) (ops : List (Op C)) : (t.set i ops).rest i = ops :=
  if_pos rfl

theorem rest_set_ne (t : Threads C) {i j : Nat} (ops : List (Op C)) (h : j ≠ i) :
    (t.set i ops).rest j = t.rest j :=
  if_neg h

end Threads

section
variable (within : C → Bool)

def after : Bool → List (Op C) → Option Bool
  | held, [] => some held
  | held, .acquire :: rest => if held then none else after true rest
  | held, .release :: rest => if held then after false rest else none
  | held, .other c :: rest => if held && !within c then none else after held rest

@[simp] theorem after_nil (held : Bool) : after within held [] = some held := rfl

@[simp] theorem after_acquire (held : Bool) (rest : List (Op C)) :
    after within held (.acquire :: rest) = if held then none else after within true rest := rfl

@[simp] theorem after_release (held : Bool) (rest : List (Op C)) :
    after within held (.release :: rest) = if held then after within false rest else none := rfl

@[simp] theorem after_other (held : Bool) (c : C) (rest : List (Op C)) :
    after within held (.other c :: rest) =
      if held && !within c then none else after within held rest := rfl

theorem after_append (held : Bool) (xs ys : List (Op C)) :
    after within held (xs ++ ys) = (after within held xs).bind fun h => after within h ys := by
  induction xs generalizing held with
  | nil => rfl
  | cons x xs ih =>
    cases x with
    | acquire => cases held <;> simp [ih]
    | release => cases held <;> simp [ih]
    | other c =>
      cases hout : held && !within c with
      | true => simp [hout]
      | false => simp [hout, ih]

theorem after_append_of {held : Bool} {xs : List (Op C)} (h : after within held xs = some held)
    (ys : List (Op C)) : after within held (xs ++ ys) = after within held ys := by
  rw [after_append, h]
  rfl

def Bracketed (t : Threads C) : Prop := ∀ i, after within (t.holds i) (t.rest i) = some false

variable {within} {t : Threads C} {i : Nat}

theorem Threads.holds_eq (howner : t.owner = some i) (j : Nat) : t.holds j = decide (j = i) := by
  rw [Threads.holds, howner, Bool.eq_iff_iff, beq_iff_eq, Option.some.injEq, decide_eq_true_iff]
  exact eq_comm

theorem Threads.holds_eq_false (howner : t.owner = none) (j : Nat) : t.holds j = false := by
  simp [Threads.holds, howner]

theorem Bracketed.not_relocking (h : Bracketed within t) {rest : List (Op C)}
    (hrest : t.rest i = .acquire :: rest) : t.owner ≠ some i := by
  intro howner
  have hafter := h i
  rw [hrest, Threads.holds, howner] at hafter
  simp at hafter

theorem Bracketed.set (h : Bracketed within t) {ops : List (Op C)}
    (hops : after within (t.holds i) ops = some false) : Bracketed within (t.set i ops) := by
  intro j
  change after within (t.holds j) _ = _
  rcases eq_or_ne j i with rfl | hne
  · rwa [Threads.rest_set_self]
  · rw [Threads.rest_set_ne t ops hne]
    exact h j

theorem Bracketed.acquire (h : Bracketed within t) {rest : List (Op C)}
    (hrest : t.rest i = .acquire :: rest) : Bracketed within (t.acquire i rest) := by
  unfold Threads.acquire
  split
  · next howner =>
    intro j
    have hafter := h j
    rw [Threads.holds_eq_false howner] at hafter
    rw [Threads.holds_eq (i := i) rfl]
    change after within _ ((t.set i rest).rest j) = _
    rcases eq_or_ne j i with rfl | hne
    · rw [hrest] at hafter
      simpa using hafter
    · simpa [Threads.rest_set_ne t rest hne, hne] using hafter
  · exact h

theorem Bracketed.release (h : Bracketed within t) {rest : List (Op C)}
    (hrest : t.rest i = .release :: rest) : Bracketed within (t.release i rest) := by
  have howner : t.owner = some i := by
    have hafter := h i
    rw [hrest] at hafter
    cases hholds : t.holds i with
    | true => simpa [Threads.holds] using hholds
    | false => simp [hholds] at hafter
  intro j
  have hafter := h j
  rw [Threads.holds_eq howner] at hafter
  change after within false ((t.set i rest).rest j) = _
  rcases eq_or_ne j i with rfl | hne
  · rw [hrest] at hafter
    simpa using hafter
  · simpa [Threads.rest_set_ne t rest hne, hne] using hafter

variable (within) in
structure Stuck (t : Threads C) (i : Nat) : Prop where
  owner : t.owner = some i
  waits : ∃ before rest, t.rest i = before ++ .acquire :: rest ∧
    ∀ op ∈ before, ∃ c, op = .other c ∧ within c = true
  others : ∀ j, j ≠ i → after within false (t.rest j) = some false

theorem Bracketed.stuck (h : Bracketed within t) (howner : t.owner = some i) (ops : List (Op C)) :
    Stuck within (t.set i (.acquire :: ops)) i where
  owner := howner
  waits := ⟨[], ops, t.rest_set_self i _, by simp⟩
  others := by
    intro j hne
    have hafter := h j
    rw [Threads.holds_eq howner] at hafter
    rw [t.rest_set_ne _ hne]
    simpa [hne] using hafter

theorem Stuck.set_other (h : Stuck within t i) {j : Nat} (hne : j ≠ i) {ops : List (Op C)}
    (hops : after within false ops = some false) : Stuck within (t.set j ops) i where
  owner := h.owner
  waits := by
    rw [t.rest_set_ne ops hne.symm]
    exact h.waits
  others := by
    intro k hk
    rcases eq_or_ne k j with rfl | hkj
    · rwa [t.rest_set_self]
    · rw [t.rest_set_ne ops hkj]
      exact h.others k hk

theorem Stuck.set_self (h : Stuck within t i) {before rest : List (Op C)}
    (hbefore : ∀ op ∈ before, ∃ c, op = .other c ∧ within c = true) :
    Stuck within (t.set i (before ++ .acquire :: rest)) i where
  owner := h.owner
  waits := ⟨before, rest, t.rest_set_self i _, hbefore⟩
  others := by
    intro k hk
    rw [t.rest_set_ne _ hk]
    exact h.others k hk

theorem Stuck.push (h : Stuck within t i) {ops : List (Op C)}
    (hops : ∀ op ∈ ops, ∃ c, op = .other c ∧ within c = true) :
    Stuck within (t.set i (ops ++ t.rest i)) i := by
  obtain ⟨before, rest, hrest, hbefore⟩ := h.waits
  rw [hrest, ← List.append_assoc]
  refine h.set_self fun op hop => ?_
  exact (List.mem_append.mp hop).elim (hops op) (hbefore op)

theorem Stuck.head (h : Stuck within t i) {op : Op C} {rest : List (Op C)} (hrest : t.rest i = op :: rest) :
    op = .acquire ∨ ∃ c, op = .other c ∧ within c = true ∧ Stuck within (t.set i rest) i := by
  obtain ⟨before, tail, hwaits, hbefore⟩ := h.waits
  cases before with
  | nil =>
    obtain ⟨rfl, -⟩ := List.cons.inj (hrest.symm.trans hwaits)
    exact .inl rfl
  | cons first before =>
    obtain ⟨rfl, rfl⟩ := List.cons.inj (hrest.symm.trans hwaits)
    obtain ⟨c, rfl, hc⟩ := hbefore op (by simp)
    exact .inr ⟨c, rfl, hc, h.set_self fun op hop => hbefore op (by simp [hop])⟩

theorem Stuck.acquire (h : Stuck within t i) (j : Nat) (rest : List (Op C)) :
    t.acquire j rest = t := by
  simp [Threads.acquire, h.owner]

theorem Stuck.not_release (h : Stuck within t i) {j : Nat} {rest : List (Op C)} :
    t.rest j ≠ .release :: rest := by
  intro hrest
  rcases eq_or_ne j i with rfl | hne
  · rcases h.head hrest with hacquire | ⟨c, hother, -⟩
    · cases hacquire
    · cases hother
  · have hafter := h.others j hne
    simp [hrest] at hafter

end

end OwnedLock
