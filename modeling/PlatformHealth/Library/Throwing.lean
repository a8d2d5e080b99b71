import PlatformHealth.Library.LockDiscipline

namespace LockDiscipline

abbrev Throwing (τ σ ω ε : Type) := ExceptT ω (StateT τ (Locked σ ε))

namespace Throwing

variable {τ σ ω ε α β : Type}

def locked (x : Locked σ ε α) : Throwing τ σ ω ε α := ExceptT.lift (StateT.lift x)

def beside (f : τ → Except ω α × τ) : Throwing τ σ ω ε α := ExceptT.mk fun t => return f t

def Settles (x : Throwing τ σ ω ε α) (t : τ) (s : σ) (Q : α → τ → σ → Prop) (E : ω → τ → σ → Prop)
    (F : Fault ε → Prop) : Prop :=
  Ends (x.run.run t) s (fun out s' =>
    match out.1 with
    | .ok a => Q a out.2 s'
    | .error w => E w out.2 s') F

section
variable {t : τ} {s : σ} {Q : α → τ → σ → Prop} {E : ω → τ → σ → Prop} {F : Fault ε → Prop}

@[simp] theorem settles_pure (a : α) :
    Settles (pure a : Throwing τ σ ω ε α) t s Q E F ↔ Q a t s := Iff.rfl

@[simp] theorem settles_throw (w : ω) :
    Settles (throw w : Throwing τ σ ω ε α) t s Q E F ↔ E w t s := Iff.rfl

@[simp] theorem settles_bind {x : Throwing τ σ ω ε β} {f : β → Throwing τ σ ω ε α} :
    Settles (x >>= f) t s Q E F ↔ Settles x t s (fun b t s => Settles (f b) t s Q E F) E F := by
  unfold Settles
  rw [ExceptT.run_bind, StateT.run_bind, ends_bind]
  refine iff_of_eq (congrArg (fun R => Ends (x.run.run t) s R F) ?_)
  funext out s'
  rcases out with ⟨b | w, t'⟩ <;> rfl

@[simp] theorem settles_tryCatch {x : Throwing τ σ ω ε α} {handle : ω → Throwing τ σ ω ε α} :
    Settles (tryCatch x handle) t s Q E F ↔
      Settles x t s Q (fun w t s => Settles (handle w) t s Q E F) F := by
  unfold Settles
  rw [ExceptT.run_tryCatch, StateT.run_bind, ends_bind]
  refine iff_of_eq (congrArg (fun R => Ends (x.run.run t) s R F) ?_)
  funext out s'
  rcases out with ⟨a | w, t'⟩ <;> rfl

@[simp] theorem settles_locked {x : Locked σ ε α} :
    Settles (locked x : Throwing τ σ ω ε α) t s Q E F ↔ Ends x s (fun a s' => Q a t s') F := by
  unfold Settles
  change Ends ((x >>= fun a => pure (a, t)) >>= fun p => pure (Except.ok p.1, p.2)) s _ F ↔ _
  rw [ends_bind, ends_bind]
  rfl

theorem settles_beside_ok {f : τ → Except ω α × τ} {a : α} {t' : τ} (h : f t = (.ok a, t')) :
    Settles (beside f : Throwing τ σ ω ε α) t s Q E F ↔ Q a t' s := by
  change Ends (pure (f t)) s _ F ↔ _
  rw [h]
  rfl

theorem settles_beside_error {f : τ → Except ω α × τ} {w : ω} {t' : τ}
    (h : f t = (.error w, t')) :
    Settles (beside f : Throwing τ σ ω ε α) t s Q E F ↔ E w t' s := by
  change Ends (pure (f t)) s _ F ↔ _
  rw [h]
  rfl

end

end Throwing

end LockDiscipline
