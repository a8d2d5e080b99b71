import Mathlib.Data.List.Basic

namespace Lockstep

section
variable {m : Type → Type} [Monad m] {S T I O : Type}

def drive (step : S → I → m (O × S)) : S → List I → m (List O)
  | _, [] => return []
  | s, i :: is => do
    let (o, s) ← step s i
    let os ← drive step s is
    return o :: os

def InStep (R : S → T → Prop) (x : m (O × S)) (y : m (O × T)) : Prop :=
  ∃ (A : Type) (effect : m A) (o : A → O) (s : A → S) (t : A → T),
    x = (effect >>= fun a => pure (o a, s a)) ∧ y = (effect >>= fun a => pure (o a, t a)) ∧
      ∀ a, R (s a) (t a)

variable [LawfulMonad m]

theorem drive_eq {step : S → I → m (O × S)} {step' : T → I → m (O × T)} {R : List I → S → T → Prop}
    (hstep : ∀ s t i is, R (i :: is) s t → InStep (R is) (step s i) (step' t i)) {s : S} {t : T}
    {is : List I} (h : R is s t) : drive step s is = drive step' t is := by
  induction is generalizing s t with
  | nil => rfl
  | cons i is ih =>
    obtain ⟨A, effect, o, s', t', hs, ht, hR⟩ := hstep s t i is h
    simp only [drive, hs, ht, bind_assoc, pure_bind, ih (hR _)]

end

section
variable {S T I O : Type}

def answers (step : S → I → O × S) : S → List I → List O
  | _, [] => []
  | s, i :: is => (step s i).1 :: answers step (step s i).2 is

theorem drive_pure (step : S → I → O × S) (s : S) (is : List I) :
    Id.run (drive (fun s i => pure (step s i)) s is) = answers step s is := by
  induction is generalizing s with
  | nil => rfl
  | cons i is ih => exact congrArg ((step s i).1 :: ·) (ih (step s i).2)

theorem answers_eq {step : S → I → O × S} {step' : T → I → O × T} {R : S → T → Prop}
    (hstep : ∀ s t i, R s t → (step s i).1 = (step' t i).1 ∧ R (step s i).2 (step' t i).2) {s : S}
    {t : T} (h : R s t) (is : List I) : answers step s is = answers step' t is := by
  rw [← drive_pure, ← drive_pure]
  refine congrArg Id.run (drive_eq (R := fun _ => R) ?_ h)
  intro s t i _ hR
  obtain ⟨hout, hnext⟩ := hstep s t i hR
  refine ⟨PUnit, pure PUnit.unit, fun _ => (step s i).1, fun _ => (step s i).2,
    fun _ => (step' t i).2, rfl, ?_, fun _ => hnext⟩
  rw [hout]
  rfl

end

end Lockstep
