import PlatformHealth.Daemon.AlertAggregator
import PlatformHealth.Library.Spacing

namespace PlatformHealth.AlertAggregator

section
variable {minutes : Int} {feed : List (Int × PhmEvent)}

theorem InRange.of_prefix {before after : List (Int × PhmEvent)} (h : InRange minutes (before ++ after)) :
    InRange minutes before :=
  ⟨h.duration, fun x hx y hy => h.span x (by simp [hx]) y (by simp [hy])⟩

theorem duration_pos (h : 0 < minutes) : 0 < minutes * nsPerMinute := by
  unfold nsPerMinute
  omega

theorem spaced_of_key (h : InRange minutes feed) (hclock : feed.Pairwise (fun x y => x.1 ≤ y.1)) (key : String) :
    ((((setSuppressionDuration {} minutes).accepted feed).filter fun x => alertKey x.2 = key).map
      Prod.fst).Pairwise fun s t => minutes * nsPerMinute ≤ t - s := by
  have hsub := Suppression.admitted_sublist alertKey (Recent minutes) feed
  rw [accepted_eq, List.pairwise_map, List.pairwise_filter]
  refine (Suppression.admitted_spaced alertKey (Recent minutes) hclock h.ages).imp_of_mem ?_
  intro x y hx hy hspaced hxkey hykey
  have hfree := hspaced ((of_decide_eq_true hxkey).trans (of_decide_eq_true hykey).symm)
  rw [h.recent_iff (hsub.subset hx) (hsub.subset hy), Suppression.Within, Int.not_lt] at hfree
  exact hfree

theorem volume_le (h : InRange minutes feed) (hminutes : 0 < minutes)
    (hclock : feed.Pairwise (fun x y => x.1 ≤ y.1)) {keys : List String}
    (hkeys : ∀ x ∈ feed, alertKey x.2 ∈ keys) (since last : Int) :
    (((setSuppressionDuration {} minutes).accepted feed).filter fun x => since ≤ x.1 ∧ x.1 ≤ last).length ≤
      keys.length * ((last - since) / (minutes * nsPerMinute) + 1).toNat := by
  let window := ((setSuppressionDuration {} minutes).accepted feed).filter fun x => since ≤ x.1 ∧ x.1 ≤ last
  have hkeys' : ∀ x ∈ window, alertKey x.2 ∈ keys := by
    intro x hx
    have hmem : x ∈ (setSuppressionDuration {} minutes).accepted feed := List.mem_of_mem_filter hx
    rw [accepted_eq] at hmem
    exact hkeys x ((Suppression.admitted_sublist _ _ feed).subset hmem)
  refine Spacing.length_le_of_keys hkeys' fun key => ?_
  let ofKey := window.filter fun x => alertKey x.2 = key
  have hsublist : ofKey.Sublist
      (((setSuppressionDuration {} minutes).accepted feed).filter fun x => alertKey x.2 = key) :=
    List.filter_sublist.filter _
  have hspaced := (spaced_of_key h hclock key).sublist (hsublist.map Prod.fst)
  have hwithin : ∀ t ∈ ofKey.map Prod.fst, since ≤ t ∧ t ≤ last := by
    intro t ht
    obtain ⟨x, hx, rfl⟩ := List.mem_map.mp ht
    exact of_decide_eq_true (List.mem_filter.mp (List.mem_of_mem_filter hx)).2
  have hcount := Spacing.length_le_of_spaced (duration_pos hminutes) hspaced hwithin
  rwa [List.length_map] at hcount

theorem covered {before after : List (Int × PhmEvent)} {x : Int × PhmEvent}
    (h : InRange minutes (before ++ x :: after)) (hminutes : 0 < minutes) :
    ∃ y ∈ (setSuppressionDuration {} minutes).accepted (before ++ [x]),
      alertKey y.2 = alertKey x.2 ∧ x.1 - y.1 < minutes * nsPerMinute := by
  have hrange : InRange minutes (before ++ [x]) := by
    refine @InRange.of_prefix minutes (before ++ [x]) after ?_
    rwa [List.append_assoc, List.singleton_append]
  have hsub := Suppression.admitted_sublist alertKey (Recent minutes) before
  rw [accepted_concat]
  split
  · next hheld =>
    rw [suppressed_iff] at hheld
    obtain ⟨y, hy, hrecent⟩ := hheld
    obtain ⟨hmem, hkey⟩ := Suppression.mem_latest _ hy
    rw [hrange.recent_iff (by simp [hsub.subset hmem]) (by simp)] at hrecent
    exact ⟨y, by rwa [accepted_eq], hkey, hrecent⟩
  · refine ⟨x, by simp, rfl, ?_⟩
    rw [Int.sub_self]
    exact duration_pos hminutes

theorem rate_limited {before after : List (Int × PhmEvent)} {x : Int × PhmEvent}
    (h : InRange minutes (before ++ x :: after)) (hminutes : 0 < minutes)
    (hclock : (before ++ x :: after).Pairwise (fun x y => x.1 ≤ y.1)) {keys : List String}
    (hkeys : ∀ y ∈ before ++ x :: after, alertKey y.2 ∈ keys) (since last : Int) :
    (((setSuppressionDuration {} minutes).accepted (before ++ x :: after)).filter
          fun y => since ≤ y.1 ∧ y.1 ≤ last).length ≤
        keys.length * ((last - since) / (minutes * nsPerMinute) + 1).toNat ∧
      ∃ y ∈ (setSuppressionDuration {} minutes).accepted (before ++ [x]),
        alertKey y.2 = alertKey x.2 ∧ x.1 - y.1 < minutes * nsPerMinute :=
  ⟨volume_le h hminutes hclock hkeys since last, covered h hminutes⟩

end

def repeated : PhmEvent := alert "camera" "alive" .warning

theorem repeated_limited :
    (((setSuppressionDuration {} 5).accepted ([(0, repeated), (1, repeated)] ++ (2, repeated) :: [])).filter
        fun y => 0 ≤ y.1 ∧ y.1 ≤ 2).length ≤
          [alertKey repeated].length * ((2 - 0) / (5 * nsPerMinute) + 1).toNat ∧
      ∃ y ∈ (setSuppressionDuration {} 5).accepted ([(0, repeated), (1, repeated)] ++ [(2, repeated)]),
        alertKey y.2 = alertKey repeated ∧ 2 - y.1 < 5 * nsPerMinute :=
  rate_limited ⟨by decide, by decide⟩ (by decide) (by decide) (by simp) 0 2

end PlatformHealth.AlertAggregator
