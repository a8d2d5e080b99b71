import Mathlib.Data.List.TakeWhile

-- a counter read off a log, newest entry first; it starts again behind an entry that clears it
-- and behind every n-th entry it has counted
namespace Tally

variable {E : Type} (counts clears : E → Bool) (n : Nat)

def since : List E → List E
  | [] => []
  | e :: older =>
    if clears e || counts e && (since older).countP counts + 1 = n then [] else e :: since older

def tally (log : List E) : Nat := (since counts clears n log).countP counts

section
variable {counts clears n} {e : E} {older : List E}

theorem tally_clears (h : clears e = true) : tally counts clears n (e :: older) = 0 := by
  simp [tally, since, h]

theorem tally_other (hclears : clears e = false) (hcounts : counts e = false) :
    tally counts clears n (e :: older) = tally counts clears n older := by
  simp [tally, since, hclears, hcounts]

theorem tally_nth (hclears : clears e = false) (hcounts : counts e = true)
    (h : tally counts clears n older + 1 = n) : tally counts clears n (e :: older) = 0 := by
  unfold tally at h
  simp [tally, since, hclears, hcounts, h]

theorem tally_counts (hclears : clears e = false) (hcounts : counts e = true)
    (h : tally counts clears n older + 1 ≠ n) :
    tally counts clears n (e :: older) = tally counts clears n older + 1 := by
  unfold tally at h
  simp [tally, since, hclears, hcounts, h]

theorem tally_lt (hn : 0 < n) (log : List E) : tally counts clears n log < n := by
  induction log with
  | nil => exact hn
  | cons e older ih =>
    cases hclears : clears e with
    | true => rwa [tally_clears hclears]
    | false =>
      cases hcounts : counts e with
      | false => rwa [tally_other hclears hcounts]
      | true =>
        by_cases hnth : tally counts clears n older + 1 = n
        · rwa [tally_nth hclears hcounts hnth]
        · rw [tally_counts hclears hcounts hnth]
          omega

theorem tally_eq_mod (hn : 0 < n) (log : List E) :
    tally counts clears n log = (log.takeWhile (fun e => !clears e)).countP counts % n := by
  induction log with
  | nil => exact (Nat.zero_mod n).symm
  | cons e older ih =>
    have hlt : tally counts clears n older < n := tally_lt hn older
    cases hclears : clears e with
    | true => simp [tally_clears hclears, hclears]
    | false =>
      rw [List.takeWhile_cons_of_pos (by simp [hclears])]
      cases hcounts : counts e with
      | false => rw [tally_other hclears hcounts, ih, List.countP_cons_of_neg (by simp [hcounts])]
      | true =>
        rw [List.countP_cons_of_pos hcounts, ← Nat.mod_add_mod, ← ih]
        by_cases hnth : tally counts clears n older + 1 = n
        · rw [tally_nth hclears hcounts hnth, hnth, Nat.mod_self]
        · rw [tally_counts hclears hcounts hnth, Nat.mod_eq_of_lt (by omega)]

end

end Tally
