import Mathlib.Data.List.Basic
import Mathlib.Data.List.Induction

namespace BoundedQueue

variable {α : Type}

inductive Op (α : Type) where
  | push (e : α)
  | remove (p : α → Bool)

def push (c : Nat) (q : List α) (e : α) : List α := (if c ≤ q.length then q.tail else q) ++ [e]

def apply (c : Nat) (q : List α) : Op α → List α
  | .push e => push c q e
  | .remove p => q.filter (fun e => !p e)

def run (c : Nat) (ops : List (Op α)) : List α := ops.foldl (apply c) []

def pushed : List (Op α) → List α
  | [] => []
  | .push e :: ops => e :: pushed ops
  | .remove _ :: ops => pushed ops

def Removes (e : α) : Op α → Prop
  | .push _ => False
  | .remove p => p e = true

section
variable (c : Nat) (ops : List (Op α))

@[simp] theorem run_concat (op : Op α) : run c (ops ++ [op]) = apply c (run c ops) op :=
  List.foldl_append

@[simp] theorem pushed_append (ops' : List (Op α)) :
    pushed (ops ++ ops') = pushed ops ++ pushed ops' := by
  induction ops with
  | nil => rfl
  | cons op ops ih => cases op <;> simp [pushed, ih]

theorem run_sublist : (run c ops).Sublist (pushed ops) := by
  induction ops using List.reverseRecOn with
  | nil => exact .slnil
  | append_singleton ops op ih =>
    cases op with
    | push e =>
      have hfront : (if c ≤ (run c ops).length then (run c ops).tail else run c ops).Sublist
          (pushed ops) := by
        split
        · exact (List.tail_sublist _).trans ih
        · exact ih
      simpa [apply, push, pushed] using hfront.append_right [e]
    | remove p => simpa [apply, pushed] using List.filter_sublist.trans ih

theorem length_run_le (hc : 1 ≤ c) : (run c ops).length ≤ c := by
  induction ops using List.reverseRecOn with
  | nil => exact Nat.zero_le c
  | append_singleton ops op ih =>
    cases op with
    | push e =>
      by_cases hfull : c ≤ (run c ops).length
      · simp only [run_concat, apply, push, if_pos hfull, List.length_append, List.length_tail,
          List.length_singleton]
        omega
      · simp only [run_concat, apply, push, if_neg hfull, List.length_append,
          List.length_singleton]
        omega
    | remove p => simpa [apply] using Nat.le_trans (List.length_filter_le _ _) ih

end

structure Kept (c : Nat) (ops : List (Op α)) (log : List (Nat × α)) : Prop where
  increasing : log.Pairwise (fun x y => x.1 < y.1)
  recorded : ∀ x ∈ log, (pushed ops)[x.1]? = some x.2
  absent : ∀ before e after, ops = before ++ .push e :: after →
    ((pushed before).length, e) ∈ log ∨ (∃ op ∈ after, Removes e op) ∨
      c ≤ (pushed after).length

section
variable {c : Nat} {ops : List (Op α)} {log : List (Nat × α)}

theorem Kept.lt_length (h : Kept c ops log) {x : Nat × α} (hx : x ∈ log) :
    x.1 < (pushed ops).length := by
  obtain ⟨hlt, -⟩ := List.getElem?_eq_some_iff.mp (h.recorded x hx)
  exact hlt

theorem length_le_of_increasing {n : Nat} {log : List (Nat × α)}
    (hinc : log.Pairwise (fun x y => x.1 < y.1)) (hlt : ∀ x ∈ log, x.1 < n) {b : Nat}
    (hb : ∀ x ∈ log, b ≤ x.1) : log.length + b ≤ max b n := by
  induction log generalizing b with
  | nil =>
    rw [List.length_nil, Nat.zero_add]
    exact Nat.le_max_left b n
  | cons x log ih =>
    obtain ⟨hhead, htail⟩ := List.pairwise_cons.mp hinc
    have hx : x.1 < n := hlt x (by simp)
    have hbx : b ≤ x.1 := hb x (by simp)
    have hrest := ih htail (fun y hy => hlt y (by simp [hy])) (b := x.1 + 1)
      (fun y hy => hhead y hy)
    simp only [List.length_cons]
    omega

theorem kept_remove (h : Kept c ops log) (p : α → Bool) :
    Kept c (ops ++ [.remove p]) (log.filter (fun x => !p x.2)) := by
  refine ⟨h.increasing.filter _, ?_, ?_⟩
  · intro x hx
    simpa [pushed] using h.recorded x (List.mem_filter.mp hx).1
  · intro before e after heq
    rcases List.eq_nil_or_concat' after with rfl | ⟨after, op, rfl⟩
    · have hlast := congrArg List.getLast? heq
      simp at hlast
    · have heq : ops ++ [.remove p] = (before ++ .push e :: after) ++ [op] := by simpa using heq
      obtain ⟨hops, hop⟩ := List.append_inj' heq rfl
      obtain rfl : Op.remove p = op := by simpa using hop
      rcases h.absent before e after hops with hmem | ⟨op, hop, hrem⟩ | hlate
      · cases hp : p e with
        | false => exact .inl (List.mem_filter.mpr ⟨hmem, by simp [hp]⟩)
        | true => exact .inr (.inl ⟨.remove p, by simp, hp⟩)
      · exact .inr (.inl ⟨op, by simp [hop], hrem⟩)
      · exact .inr (.inr (by simpa [pushed] using hlate))

theorem kept_push (h : Kept c ops log) (e : α) :
    Kept c (ops ++ [.push e])
      ((if c ≤ log.length then log.tail else log) ++ [((pushed ops).length, e)]) := by
  have hsub : (if c ≤ log.length then log.tail else log).Sublist log := by
    split
    · exact List.tail_sublist log
    · exact .refl _
  refine ⟨?_, ?_, ?_⟩
  · refine List.pairwise_append.mpr ⟨h.increasing.sublist hsub, by simp, ?_⟩
    intro x hx y hy
    obtain rfl : y = ((pushed ops).length, e) := by simpa using hy
    exact h.lt_length (hsub.subset hx)
  · intro x hx
    rcases List.mem_append.mp hx with hx | hx
    · have hx := hsub.subset hx
      rw [pushed_append, List.getElem?_append_left (h.lt_length hx)]
      exact h.recorded x hx
    · obtain rfl : x = ((pushed ops).length, e) := by simpa using hx
      simp [pushed]
  · intro before e' after heq
    rcases List.eq_nil_or_concat' after with rfl | ⟨after, op, rfl⟩
    · obtain ⟨rfl, he⟩ := List.append_inj' heq rfl
      obtain rfl : e = e' := by simpa using he
      exact .inl (by simp)
    · have heq : ops ++ [.push e] = (before ++ .push e' :: after) ++ [op] := by simpa using heq
      obtain ⟨hops, hop⟩ := List.append_inj' heq rfl
      obtain rfl : Op.push e = op := by simpa using hop
      rcases h.absent before e' after hops with hmem | ⟨op, hop, hrem⟩ | hlate
      · by_cases hfull : c ≤ log.length
        · cases log with
          | nil => simp at hmem
          | cons x log =>
            rcases List.mem_cons.mp hmem with rfl | hmem
            · have hlen := length_le_of_increasing h.increasing (fun x hx => h.lt_length hx)
                (b := (pushed before).length) (by
                  intro y hy
                  rcases List.mem_cons.mp hy with rfl | hy
                  · exact Nat.le_refl _
                  · exact Nat.le_of_lt ((List.pairwise_cons.mp h.increasing).1 y hy))
              have hn : (pushed ops).length =
                  (pushed before).length + ((pushed after).length + 1) := by
                simp [hops, pushed]
              refine .inr (.inr ?_)
              simp only [pushed_append, pushed, List.length_append, List.length_singleton]
              omega
            · exact .inl (by rw [if_pos hfull]; simp [hmem])
        · exact .inl (by simp [hfull, hmem])
      · exact .inr (.inl ⟨op, by simp [hop], hrem⟩)
      · refine .inr (.inr ?_)
        simp only [pushed_append, List.length_append]
        omega

end

theorem exists_kept (c : Nat) (ops : List (Op α)) :
    ∃ log, Kept c ops log ∧ run c ops = log.map Prod.snd := by
  induction ops using List.reverseRecOn with
  | nil => exact ⟨[], ⟨.nil, by simp, by simp⟩, rfl⟩
  | append_singleton ops op ih =>
    obtain ⟨log, hkept, hrun⟩ := ih
    cases op with
    | push e =>
      refine ⟨_, kept_push hkept e, ?_⟩
      rw [run_concat, hrun]
      simp only [apply, push, List.length_map, List.map_append]
      split <;> simp
    | remove p =>
      refine ⟨_, kept_remove hkept p, ?_⟩
      rw [run_concat, hrun]
      simp [apply, List.filter_map, Function.comp_def]

end BoundedQueue
