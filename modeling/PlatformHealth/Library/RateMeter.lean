import PlatformHealth.Library.Runs
import Mathlib.Algebra.Order.Ring.Rat
import Mathlib.Algebra.Order.Ring.Abs
import Mathlib.Tactic.Ring

namespace RateMeter

structure Sample where
  count : ℚ
  clock : ℚ

def Sample.ofCounters (count clock : UInt64) : Sample := ⟨count.toNat, clock.toNat⟩

structure Meter (S A : Type) where
  step : S → A → S
  value : S → A → ℚ
  baseline : S → Option Sample

def elapsed : Option Sample → Option Sample → ℚ
  | some q, some p => p.clock - q.clock
  | _, _ => 0

def risen : Option Sample → Option Sample → ℚ
  | some q, some p => p.count - q.count
  | _, _ => 0

theorem elapsed_self (b : Option Sample) : elapsed b b = 0 := by
  cases b with
  | none => rfl
  | some q => exact sub_self q.clock

theorem elapsed_none_left (b : Option Sample) : elapsed none b = 0 := by cases b <;> rfl

theorem risen_self (b : Option Sample) : risen b b = 0 := by
  cases b with
  | none => rfl
  | some q => exact sub_self q.count

theorem risen_none_left (b : Option Sample) : risen none b = 0 := by cases b <;> rfl

theorem risen_add (q p : Sample) {b : Option Sample} (hb : b.isSome = true) :
    risen (some q) (some p) + risen (some p) b = risen (some q) b := by
  obtain ⟨r, rfl⟩ := Option.isSome_iff_exists.mp hb
  simp only [risen]
  ring

inductive Reads (scale error : ℚ) : Option Sample → Option Sample → ℚ → Prop
  | kept (b : Option Sample) (v : ℚ) : Reads scale error b b v
  | first (p : Sample) (v : ℚ) : Reads scale error none (some p) v
  | measured {q p : Sample} {v : ℚ} :
    |v * (p.clock - q.clock) - scale * (p.count - q.count)| ≤ error * (scale * (p.count - q.count)) →
    Reads scale error (some q) (some p) v

section
variable {scale error v : ℚ} {b b' : Option Sample}

theorem Reads.weight (h : Reads scale error b b' v) :
    |v * elapsed b b' - scale * risen b b'| ≤ error * (scale * risen b b') := by
  cases h with
  | kept b => simp [elapsed_self, risen_self]
  | first p => simp [elapsed_none_left, risen_none_left]
  | measured h => exact h

theorem Reads.isSome (h : Reads scale error b b' v) (hb : b.isSome = true) : b'.isSome = true := by
  cases h with
  | kept b => exact hb
  | first p => rfl
  | measured h => rfl

end

section
variable {c c' t t' : UInt64}

theorem reads_of_advance (hcount : c ≤ c') (hclock : t ≤ t') (hne : t' ≠ t) {scale error v : ℚ}
    (hv : |v - (c' - c).toNat / (t' - t).toNat * scale| ≤ error * ((c' - c).toNat / (t' - t).toNat * scale)) :
    Reads scale error (some (.ofCounters c t)) (some (.ofCounters c' t')) v := by
  have hlt : (t.toNat : ℚ) < t'.toNat := by
    have hle := UInt64.le_iff_toNat_le.mp hclock
    have hdiff : t'.toNat ≠ t.toNat := fun heq => hne (UInt64.toNat_inj.mp heq)
    exact_mod_cast lt_of_le_of_ne hle hdiff.symm
  have helapsed := sub_pos.mpr hlt
  rw [UInt64.toNat_sub_of_le _ _ hcount, UInt64.toNat_sub_of_le _ _ hclock,
    Nat.cast_sub (UInt64.le_iff_toNat_le.mp hcount), Nat.cast_sub (UInt64.le_iff_toNat_le.mp hclock)] at hv
  refine .measured ?_
  dsimp only [Sample.ofCounters]
  generalize (t'.toNat : ℚ) - t.toNat = dt at helapsed hv ⊢
  generalize (c'.toNat : ℚ) - c.toNat = dc at hv ⊢
  have hrate : scale * dc = dc / dt * scale * dt := by
    rw [mul_right_comm, div_mul_cancel₀ _ helapsed.ne', mul_comm]
  rw [hrate, ← sub_mul, abs_mul, abs_of_pos helapsed, ← mul_assoc]
  exact mul_le_mul_of_nonneg_right hv helapsed.le

theorem reads_of_standstill (hclock : t' = t) (hcount : c' = c) (scale error : ℚ) :
    Reads scale error (some (.ofCounters c t)) (some (.ofCounters c' t')) 0 := by
  rw [hclock, hcount]
  exact .kept _ 0

end

namespace Meter

variable {S A : Type} (m : Meter S A)

def weighted : S → List A → ℚ
  | _, [] => 0
  | s, a :: as => m.value s a * elapsed (m.baseline s) (m.baseline (m.step s a)) + weighted (m.step s a) as

def origin : S → List A → Option Sample
  | s, [] => m.baseline s
  | s, a :: as => (m.baseline s).or (origin (m.step s a) as)

def ReadsOf (scale error : ℚ) (s : S) (a : A) : Prop :=
  Reads scale error (m.baseline s) (m.baseline (m.step s a)) (m.value s a)

section
variable {m} {scale error : ℚ} {s : S} {a : A} {as : List A}

theorem isSome_run (h : Runs.Each m.step (m.ReadsOf scale error) s as) (hs : (m.baseline s).isSome = true) :
    (m.baseline (Runs.run m.step s as)).isSome = true := by
  induction as generalizing s with
  | nil => exact hs
  | cons a as ih => exact ih h.2 (h.1.isSome hs)

theorem origin_of_baseline {q : Sample} (hs : m.baseline s = some q) : m.origin s as = some q := by
  cases as with
  | nil => exact hs
  | cons a as => rw [origin, hs, Option.some_or]

theorem isSome_of_origin (h : Runs.Each m.step (m.ReadsOf scale error) s as) (ho : (m.origin s as).isSome = true) :
    (m.baseline (Runs.run m.step s as)).isSome = true := by
  induction as generalizing s with
  | nil => exact ho
  | cons a as ih =>
    cases hs : m.baseline s with
    | none =>
      rw [origin, hs, Option.none_or] at ho
      exact ih h.2 ho
    | some q => exact isSome_run h (by rw [hs]; rfl)

theorem weighted_near (h : Runs.Each m.step (m.ReadsOf scale error) s as) :
    |m.weighted s as - scale * risen (m.origin s as) (m.baseline (Runs.run m.step s as))| ≤
      error * (scale * risen (m.origin s as) (m.baseline (Runs.run m.step s as))) := by
  induction as generalizing s with
  | nil => simp [weighted, origin, risen_self]
  | cons a as ih =>
    obtain ⟨hread, hrest⟩ := h
    have hsum : risen (m.origin s (a :: as)) (m.baseline (Runs.run m.step s (a :: as))) =
        risen (m.baseline s) (m.baseline (m.step s a)) +
          risen (m.origin (m.step s a) as) (m.baseline (Runs.run m.step (m.step s a) as)) := by
      rw [Runs.run_cons]
      cases hs : m.baseline s with
      | none => rw [risen_none_left, zero_add, origin, hs, Option.none_or]
      | some q =>
        have hsome := hread.isSome (by rw [hs]; rfl)
        obtain ⟨p, hp⟩ := Option.isSome_iff_exists.mp hsome
        rw [origin_of_baseline hs, origin_of_baseline hp, hp]
        exact (risen_add q p (isSome_run hrest hsome)).symm
    rw [weighted, hsum, mul_add, mul_add, add_sub_add_comm]
    exact (abs_add_le _ _).trans (add_le_add hread.weight (ih hrest))

end

end Meter

structure Sampling {S A : Type} (m : Meter S A) (scale error : ℚ) (P : Type) where
  sample? : A → Option P
  sampleOf : P → Sample
  Valid : P → Prop
  Later : P → P → Prop
  Based : S → List P → Prop
  readsOf : ∀ {s a earlier}, Based s earlier → (∀ p ∈ sample? a, Valid p ∧ ∀ q ∈ earlier, Later q p) →
    m.ReadsOf scale error s a ∧ Based (m.step s a) (earlier ++ (sample? a).toList)
  baseline_of_empty : ∀ {s}, Based s [] → m.baseline s = none
  baseline_of_first : ∀ {s p}, Based s [p] → m.baseline s = some (sampleOf p)

namespace Sampling

section
variable {S A P : Type} {m : Meter S A} {scale error : ℚ} {s : S} {as : List A} {earlier : List P}
  (k : Sampling m scale error P)

theorem each_readsOf (h : k.Based s earlier) (hlater : (earlier ++ as.filterMap k.sample?).Pairwise k.Later)
    (hvalid : ∀ p ∈ as.filterMap k.sample?, k.Valid p) : Runs.Each m.step (m.ReadsOf scale error) s as := by
  induction as generalizing s earlier with
  | nil => trivial
  | cons a as ih =>
    have hsplit : (a :: as).filterMap k.sample? = (k.sample? a).toList ++ as.filterMap k.sample? := by
      cases hp : k.sample? a <;> simp [hp]
    rw [hsplit] at hlater hvalid
    have hnow : ∀ p ∈ k.sample? a, k.Valid p ∧ ∀ q ∈ earlier, k.Later q p := by
      intro p hp
      have hmem : p ∈ (k.sample? a).toList ++ as.filterMap k.sample? :=
        List.mem_append_left _ (Option.mem_toList.mpr hp)
      exact ⟨hvalid p hmem, fun q hq => (List.pairwise_append.mp hlater).2.2 q hq p hmem⟩
    obtain ⟨hread, hnext⟩ := k.readsOf h hnow
    refine ⟨hread, ih hnext ?_ fun p hp => hvalid p (List.mem_append_right _ hp)⟩
    rwa [List.append_assoc]

theorem origin_of_empty (h : k.Based s []) (hvalid : ∀ p ∈ as.filterMap k.sample?, k.Valid p) :
    m.origin s as = (as.filterMap k.sample?).head?.map k.sampleOf := by
  induction as generalizing s with
  | nil => exact k.baseline_of_empty h
  | cons a as ih =>
    rw [Meter.origin, k.baseline_of_empty h, Option.none_or]
    cases hp : k.sample? a with
    | none =>
      have hnext := (k.readsOf (a := a) h (by simp [hp])).2
      rw [hp] at hnext
      rw [List.filterMap_cons_none hp]
      exact ih hnext fun p hmem => hvalid p (by rwa [List.filterMap_cons_none hp])
    | some p =>
      have hnext := (k.readsOf (a := a) h fun p hp => ⟨hvalid p (by simp [Option.mem_def.mp hp]), by simp⟩).2
      rw [hp] at hnext
      rw [List.filterMap_cons_some hp]
      exact Meter.origin_of_baseline (k.baseline_of_first hnext)

theorem weighted_near (h : k.Based s []) (hlater : (as.filterMap k.sample?).Pairwise k.Later)
    (hvalid : ∀ p ∈ as.filterMap k.sample?, k.Valid p) {first : P}
    (hfirst : (as.filterMap k.sample?).head? = some first) :
    ∃ last, m.baseline (Runs.run m.step s as) = some last ∧
      |m.weighted s as - scale * (last.count - (k.sampleOf first).count)| ≤
        error * (scale * (last.count - (k.sampleOf first).count)) := by
  have hreads := k.each_readsOf h hlater hvalid
  have horigin := (k.origin_of_empty h hvalid).trans (congrArg (Option.map k.sampleOf) hfirst)
  obtain ⟨last, hlast⟩ := Option.isSome_iff_exists.mp (Meter.isSome_of_origin hreads (by rw [horigin]; rfl))
  have hnear := Meter.weighted_near hreads
  rw [horigin, hlast] at hnear
  exact ⟨last, hlast, hnear⟩

end

end Sampling

end RateMeter
