import Mathlib.Data.List.Basic

namespace LockDiscipline

inductive Fault (ε : Type) where
  | relock
  | raised (err : ε)

class Lockable (σ : Type) where
  held : σ → Bool
  setHeld : Bool → σ → σ
  held_setHeld : ∀ b s, held (setHeld b s) = b

open Lockable

abbrev Locked (σ ε : Type) := StateT σ (Except (Fault ε))

variable {σ ε α β : Type}

section
variable [Lockable σ]

-- a thread that takes the lock while it holds it never returns
def acquire : Locked σ ε Unit := do
  if held (← get) then throw .relock
  modify (setHeld true)

def release : Locked σ ε Unit := modify (setHeld false)

def withLock (body : Locked σ ε α) : Locked σ ε α := do
  acquire
  let a ← body
  release
  return a

end

def Ends (x : Locked σ ε α) (s : σ) (Q : α → σ → Prop) (F : Fault ε → Prop) : Prop :=
  match x s with
  | .ok (a, t) => Q a t
  | .error f => F f

section
variable {Q R : α → σ → Prop} {F G : Fault ε → Prop} {s : σ}

theorem Ends.mono {x : Locked σ ε α} (h : Ends x s Q F) (hQ : ∀ a t, Q a t → R a t)
    (hF : ∀ f, F f → G f) : Ends x s R G := by
  unfold Ends at h ⊢
  cases hx : x s with
  | ok out =>
    rw [hx] at h
    exact hQ _ _ h
  | error f =>
    rw [hx] at h
    exact hF f h

theorem ends_ok_iff {x : Locked σ ε α} :
    Ends x s Q (fun _ => False) ↔ ∃ a t, x s = .ok (a, t) ∧ Q a t := by
  unfold Ends
  cases x s with
  | ok out => exact ⟨fun h => ⟨out.1, out.2, rfl, h⟩, by rintro ⟨a, t, ⟨⟩, h⟩; exact h⟩
  | error f => exact ⟨False.elim, by rintro ⟨a, t, h, -⟩; cases h⟩

theorem ends_relock_iff {x : Locked σ ε α} :
    Ends x s (fun _ _ => False) (· = .relock) ↔ x s = .error .relock := by
  unfold Ends
  cases x s with
  | ok out => simp
  | error f => simp

@[simp] theorem ends_pure (a : α) : Ends (pure a : Locked σ ε α) s Q F ↔ Q a s := Iff.rfl

@[simp] theorem ends_bind {x : Locked σ ε β} {f : β → Locked σ ε α} :
    Ends (x >>= f) s Q F ↔ Ends x s (fun b t => Ends (f b) t Q F) F := by
  unfold Ends
  change (match (x s >>= fun p => f p.1 p.2 : Except (Fault ε) (α × σ)) with
    | .ok (a, t) => Q a t
    | .error e => F e) ↔ _
  cases x s <;> rfl

@[simp] theorem ends_map {x : Locked σ ε β} {f : β → α} :
    Ends (f <$> x) s Q F ↔ Ends x s (fun b t => Q (f b) t) F := by
  rw [map_eq_pure_bind, ends_bind]
  rfl

@[simp] theorem ends_get {Q : σ → σ → Prop} :
    Ends (get : Locked σ ε σ) s Q F ↔ Q s s := Iff.rfl

@[simp] theorem ends_modify {Q : Unit → σ → Prop} {f : σ → σ} :
    Ends (modify f : Locked σ ε Unit) s Q F ↔ Q () (f s) := Iff.rfl

@[simp] theorem ends_set {Q : Unit → σ → Prop} (t : σ) :
    Ends (set t : Locked σ ε Unit) s Q F ↔ Q () t := Iff.rfl

@[simp] theorem ends_throw {e : Fault ε} : Ends (throw e : Locked σ ε α) s Q F ↔ F e := Iff.rfl

end

def Simulates (I : σ → Prop) (x : Locked σ ε α) (y : Id α) : Prop :=
  ∀ s, I s → Ends x s (fun a t => a = Id.run y ∧ I t) (fun _ => False)

section
variable {I : σ → Prop}

theorem Simulates.pure (a : α) : Simulates I (pure a : Locked σ ε α) (Pure.pure a) := by
  intro s hs
  exact ⟨rfl, hs⟩

theorem Simulates.bind {x : Locked σ ε β} {y : Id β} {f : β → Locked σ ε α} {g : β → Id α}
    (hx : Simulates I x y) (hf : ∀ b, Simulates I (f b) (g b)) :
    Simulates I (x >>= f) (y >>= g) := by
  intro s hs
  rw [ends_bind]
  refine (hx s hs).mono ?_ (fun _ h => h)
  rintro b t ⟨rfl, ht⟩
  exact hf _ t ht

end

section
variable {Q : α → σ → Prop} {F : Fault ε → Prop} {s : σ} [Lockable σ]

@[simp] theorem ends_release {Q : Unit → σ → Prop} :
    Ends (release : Locked σ ε Unit) s Q F ↔ Q () (setHeld false s) := Iff.rfl

theorem ends_acquire {Q : Unit → σ → Prop} :
    Ends (acquire : Locked σ ε Unit) s Q F ↔
      if held s then F .relock else Q () (setHeld true s) := by
  cases h : held s <;> simp [acquire, h]

theorem ends_withLock_of_free {body : Locked σ ε α} (h : held s = false) :
    Ends (withLock body) s Q F ↔
      Ends body (setHeld true s) (fun a t => Q a (setHeld false t)) F := by
  simp [withLock, ends_acquire, h]

theorem ends_withLock_of_held {body : Locked σ ε α} (h : held s = true) :
    Ends (withLock body) s Q F ↔ F .relock := by
  simp [withLock, ends_acquire, h]

end

end LockDiscipline
