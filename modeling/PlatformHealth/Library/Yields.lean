import Mathlib.Data.List.Basic
import Mathlib.Data.List.Forall2

def Yields {ε α : Type} (x : Except ε α) (P : α → Prop) : Prop := ∃ a, x = .ok a ∧ P a

def Returns {ε α : Type} (x : Except ε α) : Prop := ∃ a, x = .ok a

namespace Yields

variable {ε α β : Type} {x : Except ε α} {f : α → Except ε β} {P : α → Prop} {R : β → Prop}

theorem bind_eq_ok_iff {b : β} : (x >>= f) = .ok b ↔ ∃ a, x = .ok a ∧ f a = .ok b := by
  cases x with
  | error e => simp [bind, Except.bind]
  | ok a => simp [bind, Except.bind]

theorem map_eq_ok_iff {g : α → β} {b : β} : g <$> x = .ok b ↔ ∃ a, x = .ok a ∧ g a = b := by
  cases x <;> simp [Functor.map, Except.map]

@[simp] theorem ok_iff {a : α} : Yields (.ok a : Except ε α) P ↔ P a := by simp [Yields]

@[simp] theorem pure_iff {a : α} : Yields (pure a : Except ε α) P ↔ P a := ok_iff

@[simp] theorem error_iff {e : ε} : Yields (.error e : Except ε α) P ↔ False := by simp [Yields]

@[simp] theorem throw_iff {e : ε} : Yields (throw e : Except ε α) P ↔ False := error_iff

@[simp] theorem bind_iff : Yields (x >>= f) R ↔ Yields x fun a => Yields (f a) R := by
  cases x <;> simp [bind, Except.bind]

@[simp] theorem map_iff {g : α → β} : Yields (g <$> x) R ↔ Yields x fun a => R (g a) := by
  cases x <;> simp [Functor.map, Except.map]

@[simp] theorem false_iff : Yields x (fun _ => False) ↔ False := by simp [Yields]

theorem and_left_iff {p : Prop} : Yields x (fun a => p ∧ P a) ↔ p ∧ Yields x P := by
  cases x <;> simp

theorem and_right_iff {p : Prop} : Yields x (fun a => P a ∧ p) ↔ Yields x P ∧ p := by
  cases x <;> simp

theorem const_iff {p : Prop} : Yields x (fun _ => p) ↔ Returns x ∧ p := by
  cases x <;> simp [Returns]

theorem returns_iff : Returns x ↔ Yields x fun _ => True := by
  cases x <;> simp [Returns]

@[simp] theorem returns_bind_iff : Returns (x >>= f) ↔ Yields x fun a => Returns (f a) := by
  simp [returns_iff]

@[simp] theorem returns_pure {a : α} : Returns (pure a : Except ε α) := ⟨a, rfl⟩

theorem guard_iff {c : Prop} [Decidable c] {e : ε} {k : β → Except ε α} :
    Yields (if c then throw e >>= k else x) P ↔ ¬ c ∧ Yields x P := by
  split <;> simp [*]

theorem congr {P' : α → Prop} (h : ∀ a, P a ↔ P' a) : Yields x P ↔ Yields x P' := by
  rw [funext fun a => propext (h a)]

@[simp] theorem mapM_iff {l : List α} : Yields (l.mapM f) (fun bs => ∀ b ∈ bs, R b) ↔
    ∀ a ∈ l, Yields (f a) R := by
  induction l with
  | nil => simp
  | cons a l ih => simp [and_left_iff, and_right_iff, ih]

theorem forall₂_iff_of_mapM {S : α → Prop} {T : α → β → Prop} {l : List α} {bs : List β}
    (hone : ∀ a b, f a = .ok b → (T a b ↔ S a)) (h : l.mapM f = .ok bs) :
    List.Forall₂ T l bs ↔ ∀ a ∈ l, S a := by
  induction l generalizing bs with
  | nil =>
    cases h
    simp
  | cons a l ih =>
    rw [List.mapM_cons, bind_eq_ok_iff] at h
    obtain ⟨b, hb, h⟩ := h
    obtain ⟨rest, hrest, h⟩ := bind_eq_ok_iff.mp h
    cases h
    rw [List.forall₂_cons, List.forall_mem_cons, hone a b hb, ih hrest]

theorem returns_mapM {l : List α} : Returns (l.mapM f) ↔ ∀ a ∈ l, Returns (f a) := by
  have h := mapM_iff (f := f) (l := l) (R := fun _ => True)
  simpa [returns_iff] using h

end Yields
