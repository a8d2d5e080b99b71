import Mathlib.Data.List.Basic
import Mathlib.Data.List.Induction

namespace Suppression

variable {α κ κ' : Type} [DecidableEq κ] [DecidableEq κ']

def latest (key : α → κ) (log : List (Int × α)) (k : κ) : Option (Int × α) :=
  (log.filter fun y => key y.2 = k).getLast?

section
variable (key : α → κ) (young : Int → Int → Prop) [DecidableRel young]

def Held (log : List (Int × α)) (x : Int × α) : Prop :=
  ∃ y ∈ latest key log (key x.2), young y.1 x.1

instance (log : List (Int × α)) (x : Int × α) : Decidable (Held key young log x) :=
  decidable_of_iff ((latest key log (key x.2)).any (fun y => young y.1 x.1) = true)
    (by cases h : latest key log (key x.2) <;> simp [Held, h])

def admitNext (log : List (Int × α)) (x : Int × α) : List (Int × α) :=
  if Held key young log x then log else log ++ [x]

def admitted (feed : List (Int × α)) : List (Int × α) := feed.foldl (admitNext key young) []

end

section
variable (key : α → κ) {young : Int → Int → Prop} {log : List (Int × α)}

theorem latest_concat (log : List (Int × α)) (x : Int × α) (k : κ) :
    latest key (log ++ [x]) k = if key x.2 = k then some x else latest key log k := by
  unfold latest
  rw [List.filter_append]
  by_cases hk : key x.2 = k <;> simp [hk]

theorem mem_latest {k : κ} {y : Int × α} (h : y ∈ latest key log k) : y ∈ log ∧ key y.2 = k := by
  have hmem := List.mem_filter.mp (List.mem_of_getLast? h)
  exact ⟨hmem.1, of_decide_eq_true hmem.2⟩

theorem latest_filter (p : κ → Bool) {k : κ} (hk : p k = true) :
    latest key (log.filter fun y => p (key y.2)) k = latest key log k := by
  unfold latest
  rw [List.filter_filter]
  congr 1
  refine List.filter_congr fun y _ => ?_
  by_cases hy : key y.2 = k <;> simp [hy, hk]

theorem latest_congr {fine : α → κ'} {x : Int × α}
    (h : ∀ y ∈ log, key y.2 = key x.2 ↔ fine y.2 = fine x.2) :
    latest key log (key x.2) = latest fine log (fine x.2) := by
  unfold latest
  congr 1
  exact List.filter_congr fun y hy => decide_eq_decide.mpr (h y hy)

theorem held_iff_exists {x : Int × α} (hclock : log.Pairwise fun y z => y.1 ≤ z.1)
    (hages : ∀ y ∈ log, ∀ z ∈ log, y.1 ≤ z.1 → young y.1 x.1 → young z.1 x.1) :
    Held key young log x ↔ ∃ y ∈ log, key y.2 = key x.2 ∧ young y.1 x.1 := by
  constructor
  · rintro ⟨y, hy, hyoung⟩
    obtain ⟨hmem, hkey⟩ := mem_latest key hy
    exact ⟨y, hmem, hkey, hyoung⟩
  · rintro ⟨y, hy, hkey, hyoung⟩
    have hmem : y ∈ log.filter fun y => key y.2 = key x.2 :=
      List.mem_filter.mpr ⟨hy, decide_eq_true hkey⟩
    obtain ⟨front, z, hfront⟩ := List.eq_nil_or_concat (log.filter fun y => key y.2 = key x.2)
      |>.resolve_left (List.ne_nil_of_mem hmem)
    have hlast : z ∈ latest key log (key x.2) := by
      unfold latest
      rw [hfront]
      simp
    have hle : y.1 ≤ z.1 := by
      have hsorted := hclock.sublist (List.filter_sublist (p := fun y => key y.2 = key x.2))
      rw [hfront, List.concat_eq_append] at hsorted hmem
      rcases List.mem_append.mp hmem with hin | hin
      · exact (List.pairwise_append.mp hsorted).2.2 y hin z (by simp)
      · obtain rfl : y = z := by simpa using hin
        exact Int.le_refl _
    exact ⟨z, hlast, hages y hy z (mem_latest key hlast).1 hle hyoung⟩

end

def Ages (young : Int → Int → Prop) (feed : List (Int × α)) : Prop :=
  ∀ x ∈ feed, ∀ y ∈ feed, ∀ z ∈ feed, x.1 ≤ y.1 → young x.1 z.1 → young y.1 z.1

def Within (span t now : Int) : Prop := now - t < span

instance (span : Int) : DecidableRel (Within span) := fun t now => inferInstanceAs (Decidable (now - t < span))

theorem ages_within (span : Int) (feed : List (Int × α)) : Ages (Within span) feed := by
  intro x _ y _ z _ hle hwithin
  unfold Within at *
  omega

section
variable (key : α → κ) (young : Int → Int → Prop) [DecidableRel young] (feed : List (Int × α))

@[simp] theorem admitted_nil : admitted key young [] = [] := rfl

@[simp] theorem admitted_concat (x : Int × α) :
    admitted key young (feed ++ [x]) = admitNext key young (admitted key young feed) x :=
  List.foldl_append

theorem prefix_admitNext (log : List (Int × α)) (x : Int × α) : log <+: admitNext key young log x := by
  unfold admitNext
  split
  · exact List.prefix_refl log
  · exact List.prefix_append log [x]

theorem prefix_admitted_append (rest : List (Int × α)) :
    admitted key young feed <+: admitted key young (feed ++ rest) := by
  induction rest using List.reverseRecOn with
  | nil => simp
  | append_singleton rest x ih =>
    rw [← List.append_assoc, admitted_concat]
    exact ih.trans (prefix_admitNext key young _ x)

theorem admitted_sublist : (admitted key young feed).Sublist feed := by
  induction feed using List.reverseRecOn with
  | nil => exact .slnil
  | append_singleton feed x ih =>
    rw [admitted_concat, admitNext]
    split
    · exact ih.trans (List.sublist_append_left feed [x])
    · exact ih.append_right [x]

variable {feed} in
theorem admitted_spaced (hclock : feed.Pairwise fun x y => x.1 ≤ y.1) (hages : Ages young feed) :
    (admitted key young feed).Pairwise fun x y => key x.2 = key y.2 → ¬ young x.1 y.1 := by
  induction feed using List.reverseRecOn with
  | nil => exact .nil
  | append_singleton feed x ih =>
    have hbefore := ih (List.pairwise_append.mp hclock).1 fun y hy z hz w hw =>
      hages y (by simp [hy]) z (by simp [hz]) w (by simp [hw])
    rw [admitted_concat, admitNext]
    split
    · exact hbefore
    · next hfree =>
      have hsub := admitted_sublist key young feed
      refine List.pairwise_append.mpr ⟨hbefore, by simp, ?_⟩
      intro y hy z hz hkey hyoung
      obtain rfl : z = x := by simpa using hz
      refine hfree ((held_iff_exists key ((List.pairwise_append.mp hclock).1.sublist hsub) ?_).mpr
        ⟨y, hy, hkey, hyoung⟩)
      exact fun v hv w hw => hages v (by simp [hsub.subset hv]) w (by simp [hsub.subset hw]) _ (by simp)

theorem admitted_filter (p : κ → Bool) :
    (admitted key young feed).filter (fun x => p (key x.2)) =
      admitted key young (feed.filter fun x => p (key x.2)) := by
  induction feed using List.reverseRecOn with
  | nil => rfl
  | append_singleton feed x ih =>
    rw [admitted_concat, List.filter_append]
    cases hp : p (key x.2) with
    | false =>
      have hnil : [x].filter (fun x => p (key x.2)) = [] := by simp [hp]
      rw [hnil, List.append_nil, ← ih, admitNext]
      split
      · rfl
      · rw [List.filter_append, hnil, List.append_nil]
    | true =>
      have hheld : Held key young (admitted key young feed) x ↔
          Held key young ((admitted key young feed).filter fun x => p (key x.2)) x := by
        rw [Held, Held, latest_filter key p hp]
      simp only [List.filter_cons, hp, List.filter_nil, if_true, admitted_concat, ← ih, admitNext, ← hheld]
      split <;> simp [hp]

theorem admitted_congr {fine : α → κ'} (h : ∀ x ∈ feed, ∀ y ∈ feed, key x.2 = key y.2 ↔ fine x.2 = fine y.2) :
    admitted key young feed = admitted fine young feed := by
  induction feed using List.reverseRecOn with
  | nil => rfl
  | append_singleton feed x ih =>
    have hfeed := ih fun x hx y hy => h x (by simp [hx]) y (by simp [hy])
    have hlatest : latest key (admitted fine young feed) (key x.2) =
        latest fine (admitted fine young feed) (fine x.2) :=
      latest_congr key fun y hy => h y (by simp [(admitted_sublist fine young feed).subset hy]) x (by simp)
    have hheld : Held key young (admitted fine young feed) x ↔ Held fine young (admitted fine young feed) x := by
      rw [Held, Held, hlatest]
    rw [admitted_concat, admitted_concat, hfeed, admitNext, admitNext]
    simp only [hheld]

end

section
variable {β : Type} (f : α → β) (key : β → κ) (young : Int → Int → Prop) [DecidableRel young]

omit [DecidableRel young] in
theorem held_map (log : List (Int × α)) (x : Int × α) :
    Held key young (log.map (Prod.map id f)) (Prod.map id f x) ↔ Held (key ∘ f) young log x := by
  have hlatest : latest key (log.map (Prod.map id f)) (key (f x.2)) =
      (latest (key ∘ f) log (key (f x.2))).map (Prod.map id f) := by
    unfold latest
    rw [List.filter_map, List.getLast?_map]
    rfl
  unfold Held
  rw [Prod.map_snd, hlatest]
  simp

theorem admitted_map (feed : List (Int × α)) :
    (admitted (key ∘ f) young feed).map (Prod.map id f) =
      admitted key young (feed.map (Prod.map id f)) := by
  induction feed using List.reverseRecOn with
  | nil => rfl
  | append_singleton feed x ih =>
    have hheld := held_map f key young (admitted (key ∘ f) young feed) x
    rw [List.map_append, List.map_singleton, admitted_concat, admitted_concat, admitNext, admitNext, ← ih]
    simp only [hheld]
    split <;> simp

end

section
variable (key : α → κ) (young : Int → Int → Prop) [DecidableRel young]
  (fine : α → κ') (young' : Int → Int → Prop) [DecidableRel young']

-- at each item of the feed the two rules decide alike on the same log
def Alike (logOf : List (Int × α) → List (Int × α)) (feed : List (Int × α)) : Prop :=
  ∀ before x after, feed = before ++ x :: after →
    (Held key young (logOf before) x ↔ Held fine young' (logOf before) x)

end

section
variable {key : α → κ} {young : Int → Int → Prop} [DecidableRel young]
  {fine : α → κ'} {young' : Int → Int → Prop} [DecidableRel young'] {feed : List (Int × α)}

omit [DecidableRel young] [DecidableRel young'] in
theorem alike_concat_iff {logOf : List (Int × α) → List (Int × α)} {x : Int × α} :
    Alike key young fine young' logOf (feed ++ [x]) ↔
      Alike key young fine young' logOf feed ∧
        (Held key young (logOf feed) x ↔ Held fine young' (logOf feed) x) := by
  constructor
  · intro h
    exact ⟨fun before y after heq => h before y (after ++ [x]) (by simp [heq]), h feed x [] rfl⟩
  · rintro ⟨h, hx⟩ before y after heq
    rcases List.eq_nil_or_concat after with rfl | ⟨after, z, rfl⟩
    · obtain ⟨rfl, heq⟩ := List.append_inj' heq rfl
      obtain rfl : x = y := by simpa using heq
      exact hx
    · rw [List.concat_eq_append, ← List.cons_append, ← List.append_assoc] at heq
      exact h before y after (List.append_inj' heq rfl).1

theorem admitted_eq_of_alike (h : Alike key young fine young' (admitted fine young') feed) :
    admitted key young feed = admitted fine young' feed := by
  induction feed using List.reverseRecOn with
  | nil => rfl
  | append_singleton feed x ih =>
    obtain ⟨hbefore, hx⟩ := alike_concat_iff.mp h
    rw [admitted_concat, admitted_concat, ih hbefore, admitNext, admitNext]
    simp only [hx]

theorem alike_of_prefixes
    (h : ∀ before, before <+: feed → admitted key young before = admitted fine young' before) :
    Alike key young fine young' (admitted fine young') feed := by
  intro before x after heq
  have hbefore := h before ⟨x :: after, heq.symm⟩
  have hcut := h (before ++ [x]) ⟨after, by simp [heq]⟩
  rw [admitted_concat, admitted_concat, hbefore, admitNext, admitNext] at hcut
  by_cases hkey : Held key young (admitted fine young' before) x <;>
    by_cases hfine : Held fine young' (admitted fine young' before) x
  · exact iff_of_true hkey hfine
  · rw [if_pos hkey, if_neg hfine] at hcut
    simpa using congrArg List.length hcut
  · rw [if_neg hkey, if_pos hfine] at hcut
    simpa using congrArg List.length hcut
  · exact iff_of_false hkey hfine

theorem latest_of_same_time {before rest : List (Int × α)} {x : Int × α}
    (h : Held key young (admitted key young before) x) (hrest : ∀ z ∈ rest, z.1 = x.1) :
    latest key (admitted key young (before ++ rest)) (key x.2) =
      latest key (admitted key young before) (key x.2) := by
  induction rest using List.reverseRecOn with
  | nil => simp
  | append_singleton rest z ih =>
    have hlatest := ih fun w hw => hrest w (by simp [hw])
    rw [← List.append_assoc, admitted_concat, admitNext]
    split
    · exact hlatest
    · next hfree =>
      have hne : key z.2 ≠ key x.2 := by
        intro hkey
        refine hfree ?_
        rw [Held, hkey, hlatest, hrest z (by simp)]
        exact h
      rw [latest_concat, if_neg hne, hlatest]

variable [DecidableEq α]

theorem count_of_held {before rest : List (Int × α)} {x : Int × α}
    (h : Held key young (admitted key young before) x)
    (hclock : (x :: rest).Pairwise fun y z => y.1 ≤ z.1) :
    (admitted key young (before ++ rest)).count x = (admitted key young before).count x := by
  induction rest using List.reverseRecOn with
  | nil => simp
  | append_singleton rest z ih =>
    rw [← List.append_assoc, admitted_concat, admitNext]
    have hcount := ih (hclock.sublist (by simp))
    split
    · exact hcount
    · next hfree =>
      have hne : z ≠ x := by
        rintro rfl
        have hsame : ∀ w ∈ rest, w.1 = z.1 := by
          intro w hw
          obtain ⟨hfirst, hlater⟩ := List.pairwise_cons.mp hclock
          have hlow := hfirst w (by simp [hw])
          have hhigh := (List.pairwise_append.mp hlater).2.2 w hw z (by simp)
          omega
        refine hfree ?_
        rw [Held, latest_of_same_time h hsame]
        exact h
      rw [List.count_append, hcount, List.count_singleton, if_neg (by simpa using hne), Nat.add_zero]

theorem count_of_skipped {before rest : List (Int × α)} {x : Int × α}
    (h : Held key young (admitted key young before) x)
    (hclock : (x :: rest).Pairwise fun y z => y.1 ≤ z.1) :
    (admitted key young (before ++ x :: rest)).count x = (admitted key young before).count x := by
  have hcut : admitted key young (before ++ [x]) = admitted key young before := by
    rw [admitted_concat, admitNext, if_pos h]
  have hcount := @count_of_held _ _ _ key young _ _ (before ++ [x]) rest x (by rwa [hcut]) hclock
  rwa [hcut, List.append_assoc, List.singleton_append] at hcount

theorem count_of_free {before rest : List (Int × α)} {x : Int × α}
    (h : ¬ Held key young (admitted key young before) x) :
    (admitted key young before).count x + 1 ≤ (admitted key young (before ++ x :: rest)).count x := by
  have hpre := (prefix_admitted_append key young (before ++ [x]) rest).sublist.count_le x
  rw [admitted_concat, admitNext, if_neg h, List.count_append, List.count_singleton_self] at hpre
  simpa using hpre

theorem alike_of_count (hclock : feed.Pairwise fun x y => x.1 ≤ y.1)
    (h : ∀ x, (admitted key young feed).count x = (admitted fine young' feed).count x) :
    Alike key young fine young' (admitted fine young') feed := by
  refine alike_of_prefixes fun before => ?_
  induction before using List.reverseRecOn with
  | nil => exact fun _ => rfl
  | append_singleton before x ih =>
    rintro ⟨rest, hrest⟩
    have hfeed : feed = before ++ x :: rest := by simp [← hrest]
    have hbefore := ih ⟨x :: rest, hfeed.symm⟩
    have hlater := (List.pairwise_append.mp (hfeed ▸ hclock)).2.1
    have hsame := h x
    rw [hfeed] at hsame
    rw [admitted_concat, admitted_concat, admitNext, admitNext]
    by_cases hkey : Held key young (admitted key young before) x <;>
      by_cases hfine : Held fine young' (admitted fine young' before) x
    · rw [if_pos hkey, if_pos hfine, hbefore]
    · have hfew := count_of_skipped hkey hlater
      have hmany := @count_of_free _ _ _ fine young' _ _ before rest x hfine
      rw [hbefore] at hfew
      omega
    · have hfew := count_of_skipped hfine hlater
      have hmany := @count_of_free _ _ _ key young _ _ before rest x hkey
      rw [hbefore] at hmany
      omega
    · rw [if_neg hkey, if_neg hfine, hbefore]

end

section
variable {key : α → κ} {fine : α → κ'} {young : Int → Int → Prop} [DecidableRel young] {feed : List (Int × α)}

theorem alike_iff_apart (hfine : ∀ a b, fine a = fine b → key a = key b)
    (hclock : feed.Pairwise fun x y => x.1 ≤ y.1) (hages : Ages young feed) :
    Alike key young fine young (admitted fine young) feed ↔
      (admitted fine young feed).Pairwise fun x y =>
        key x.2 = key y.2 → fine x.2 ≠ fine y.2 → ¬ young x.1 y.1 := by
  induction feed using List.reverseRecOn with
  | nil => exact iff_of_true (fun before x after heq => by simp at heq) .nil
  | append_singleton feed x ih =>
    have hfeed := ih (List.pairwise_append.mp hclock).1 fun y hy z hz w hw =>
      hages y (by simp [hy]) z (by simp [hz]) w (by simp [hw])
    have hsub := admitted_sublist fine young feed
    have hsorted := (List.pairwise_append.mp hclock).1.sublist hsub
    have hages' : ∀ y ∈ admitted fine young feed, ∀ z ∈ admitted fine young feed, y.1 ≤ z.1 →
        young y.1 x.1 → young z.1 x.1 := fun y hy z hz =>
      hages y (by simp [hsub.subset hy]) z (by simp [hsub.subset hz]) x (by simp)
    have hkey := held_iff_exists key hsorted hages'
    have hheld := held_iff_exists fine hsorted hages'
    rw [admitted_concat, admitNext, alike_concat_iff, hfeed, hkey]
    by_cases hyounger : Held fine young (admitted fine young feed) x
    · obtain ⟨y, hy, hsame, hyoung⟩ := hheld.mp hyounger
      rw [if_pos hyounger]
      exact and_iff_left (iff_of_true ⟨y, hy, hfine _ _ hsame, hyoung⟩ hyounger)
    · rw [if_neg hyounger, List.pairwise_append, iff_false_right hyounger]
      refine and_congr_right fun _ => ?_
      constructor
      · intro hnone
        refine ⟨by simp, fun y hy z hz hsame _ hyoung => ?_⟩
        obtain rfl : z = x := by simpa using hz
        exact hnone ⟨y, hy, hsame, hyoung⟩
      · rintro ⟨-, hapart⟩ ⟨y, hy, hsame, hyoung⟩
        have hother : fine y.2 ≠ fine x.2 := fun heq => hyounger (hheld.mpr ⟨y, hy, heq, hyoung⟩)
        exact hapart y hy x (by simp) hsame hother hyoung

end

section
variable {τ : Type} [DecidableEq τ] (key : α → κ) (tag : α → τ) {young : Int → Int → Prop} [DecidableRel young]
  {feed : List (Int × α)}

def tagged (a : α) : τ × κ := (tag a, key a)

theorem admitted_tagged_filter (t : τ) :
    (admitted (tagged key tag) young feed).filter (fun x => tag x.2 = t) =
      admitted key young (feed.filter fun x => tag x.2 = t) := by
  have hfilter := admitted_filter (tagged key tag) young feed fun k => decide (k.1 = t)
  refine hfilter.trans (admitted_congr _ _ _ ?_)
  intro x hx y hy
  have hx : tag x.2 = t := of_decide_eq_true (List.mem_filter.mp hx).2
  have hy : tag y.2 = t := of_decide_eq_true (List.mem_filter.mp hy).2
  simp [tagged, hx, hy]

theorem isolated_iff_alike (hclock : feed.Pairwise fun x y => x.1 ≤ y.1) :
    (∀ t, (admitted key young feed).filter (fun x => tag x.2 = t) =
        admitted key young (feed.filter fun x => tag x.2 = t)) ↔
      Alike key young (tagged key tag) young (admitted (tagged key tag) young) feed := by
  classical
  constructor
  · intro h
    refine alike_of_count hclock fun x => ?_
    have hcount (l : List (Int × α)) :
        (l.filter fun y => tag y.2 = tag x.2).count x = l.count x :=
      List.count_filter (by simp)
    rw [← hcount, h, ← admitted_tagged_filter, hcount]
  · intro h t
    rw [admitted_eq_of_alike h, admitted_tagged_filter]

end

def Remembers (key : α → κ) (log : List (Int × α)) (last : κ → Option Int) : Prop :=
  ∀ k, last k = (latest key log k).map Prod.fst

section
variable {key : α → κ} {young : Int → Int → Prop} {log : List (Int × α)}
  {last : κ → Option Int}

theorem Remembers.held_iff (h : Remembers key log last) (x : Int × α) :
    Held key young log x ↔ ∃ t, last (key x.2) = some t ∧ young t x.1 := by
  rw [Held, h]
  cases latest key log (key x.2) <;> simp

theorem Remembers.concat (h : Remembers key log last) (x : Int × α) :
    Remembers key (log ++ [x]) fun k => if k = key x.2 then some x.1 else last k := by
  intro k
  rw [latest_concat]
  by_cases hk : key x.2 = k
  · simp [hk]
  · simp [hk, Ne.symm hk, h k]

end

end Suppression
