import PlatformHealth.Library.Chrono
import PlatformHealth.Library.Suppression
import PlatformHealth.Types

namespace PlatformHealth

def nsPerMinute : Int := 60000000000

-- clock readings are nanoseconds, the duration is minutes
structure AlertAggregator where
  events : List PhmEvent := []
  lastSuppressed : StringMap Int := ∅
  suppressionDuration : Int := 5

def alertKey (event : PhmEvent) : String :=
  event.sourceSe ++ "/" ++ event.sourceMonitor ++ "/" ++ toString event.severity.value

def alertTriple (event : PhmEvent) : String × String × Severity :=
  (event.sourceSe, event.sourceMonitor, event.severity)

section
variable {e f : PhmEvent}

theorem length_severity (v : Severity) : (toString v.value).toList.length = 1 := by
  cases v <;> decide

theorem severity_inj {v w : Severity} (h : (toString v.value).toList = (toString w.value).toList) :
    v = w := by
  revert h
  cases v <;> cases w <;> decide

theorem alertKey_eq_iff : alertKey e = alertKey f ↔ e.severity = f.severity ∧
    e.sourceSe ++ "/" ++ e.sourceMonitor = f.sourceSe ++ "/" ++ f.sourceMonitor := by
  constructor
  · intro h
    have hlist := congrArg String.toList h
    simp only [alertKey, String.toList_append] at hlist
    obtain ⟨-, hdigit⟩ := List.append_inj' hlist (by rw [length_severity, length_severity])
    have hseverity := severity_inj hdigit
    refine ⟨hseverity, ?_⟩
    simpa only [alertKey, hseverity, String.append_left_inj] using h
  · rintro ⟨hseverity, htext⟩
    rw [alertKey, alertKey, hseverity, htext]

theorem alertKey_of_triple (e f : PhmEvent) (h : alertTriple e = alertTriple f) : alertKey e = alertKey f := by
  simp only [alertTriple, Prod.mk.injEq] at h
  obtain ⟨hse, hmonitor, hseverity⟩ := h
  rw [alertKey, alertKey, hse, hmonitor, hseverity]

theorem alertTriple_of_alertKey (he : '/' ∉ e.sourceSe.toList) (hf : '/' ∉ f.sourceSe.toList)
    (h : alertKey e = alertKey f) : alertTriple e = alertTriple f := by
  obtain ⟨hseverity, htext⟩ := alertKey_eq_iff.mp h
  have hlist : e.sourceSe.toList ++ '/' :: e.sourceMonitor.toList =
      f.sourceSe.toList ++ '/' :: f.sourceMonitor.toList := by
    simpa using congrArg String.toList htext
  have hcut (xs ys : List Char) (hx : '/' ∉ xs) :
      (xs ++ '/' :: ys).takeWhile (· ≠ '/') = xs := by
    rw [List.takeWhile_append_of_pos]
    · simp
    · intro c hc
      exact decide_eq_true fun heq => hx (heq ▸ hc)
  have hse : e.sourceSe.toList = f.sourceSe.toList := by
    rw [← hcut _ e.sourceMonitor.toList he, hlist, hcut _ _ hf]
  have hmonitor : e.sourceMonitor.toList = f.sourceMonitor.toList := by
    rw [hse] at hlist
    simpa using hlist
  rw [alertTriple, alertTriple, String.toList_injective hse, String.toList_injective hmonitor,
    hseverity]

end

namespace AlertAggregator

def setSuppressionDuration (a : AlertAggregator) (minutes : Int) : AlertAggregator :=
  { a with suppressionDuration := minutes }

-- now - it->second < suppression_duration_
abbrev Recent (minutes : Int) : Int → Int → Prop := Chrono.Younger nsPerMinute minutes

instance (minutes : Int) : DecidableRel (Recent minutes) := fun t now =>
  inferInstanceAs (Decidable (Chrono.Younger nsPerMinute minutes t now))

def suppressed (a : AlertAggregator) (now : Int) (event : PhmEvent) : Bool :=
  match a.lastSuppressed[alertKey event]? with
  | some it => decide (Recent a.suppressionDuration it now)
  | none => false

def addEvent (a : AlertAggregator) (now : Int) (event : PhmEvent) : AlertAggregator :=
  if a.suppressed now event then a
  else
    { a with
      events := a.events ++ [event]
      lastSuppressed := a.lastSuppressed.insert (alertKey event) now }

def getAggregatedAlerts (a : AlertAggregator) : List PhmEvent := a.events

def clear (a : AlertAggregator) : AlertAggregator :=
  { a with events := [], lastSuppressed := ∅ }

def addEvents (a : AlertAggregator) : List (Int × PhmEvent) → AlertAggregator
  | [] => a
  | x :: rest => addEvents (a.addEvent x.1 x.2) rest

def accepted (a : AlertAggregator) : List (Int × PhmEvent) → List (Int × PhmEvent)
  | [] => []
  | x :: rest =>
    if a.suppressed x.1 x.2 then accepted (a.addEvent x.1 x.2) rest
    else x :: accepted (a.addEvent x.1 x.2) rest

-- what suppression by the triple for so many minutes promises of one sequence of calls
structure Exact (minutes : Int) (feed : List (Int × PhmEvent)) : Prop where
  spaced : ((setSuppressionDuration {} minutes).accepted feed).Pairwise fun x y =>
    alertTriple x.2 = alertTriple y.2 → minutes * nsPerMinute ≤ y.1 - x.1
  justified : ∀ before x after, feed = before ++ x :: after →
    ((setSuppressionDuration {} minutes).addEvents before).suppressed x.1 x.2 = true →
      ∃ y ∈ (setSuppressionDuration {} minutes).accepted before,
        alertTriple y.2 = alertTriple x.2 ∧ x.1 - y.1 < minutes * nsPerMinute
  listed : ((setSuppressionDuration {} minutes).addEvents feed).getAggregatedAlerts =
    ((setSuppressionDuration {} minutes).accepted feed).map Prod.snd
  independent : ∀ triple,
    ((setSuppressionDuration {} minutes).accepted feed).filter (fun x => alertTriple x.2 = triple) =
      (setSuppressionDuration {} minutes).accepted (feed.filter fun x => alertTriple x.2 = triple)

-- the alerts that suppression by the triple lets through, with exact durations
def byTriple (minutes : Int) (feed : List (Int × PhmEvent)) : List (Int × PhmEvent) :=
  Suppression.admitted alertTriple (Suppression.Within (minutes * nsPerMinute)) feed

-- at every event the code's comparison with the last of these alerts that has the event's triple is
-- right, and so is the one with the last that has its flattened text
structure Undisturbed (minutes : Int) (feed : List (Int × PhmEvent)) : Prop where
  timed : Suppression.Alike alertTriple (Recent minutes) alertTriple
    (Suppression.Within (minutes * nsPerMinute)) (byTriple minutes) feed
  apart : Suppression.Alike alertKey (Recent minutes) alertTriple (Recent minutes) (byTriple minutes) feed

section
variable {a : AlertAggregator}

theorem accepted_concat (a : AlertAggregator) (feed : List (Int × PhmEvent)) (x : Int × PhmEvent) :
    a.accepted (feed ++ [x]) =
      if (a.addEvents feed).suppressed x.1 x.2 then a.accepted feed else a.accepted feed ++ [x] := by
  induction feed generalizing a with
  | nil => rfl
  | cons y feed ih =>
    simp only [List.cons_append, accepted, addEvents, ih]
    split <;> split <;> simp

theorem addEvents_concat (a : AlertAggregator) (feed : List (Int × PhmEvent)) (x : Int × PhmEvent) :
    a.addEvents (feed ++ [x]) = (a.addEvents feed).addEvent x.1 x.2 := by
  induction feed generalizing a with
  | nil => rfl
  | cons y feed ih => exact ih (a.addEvent y.1 y.2)

theorem suppressionDuration_addEvents (a : AlertAggregator) (feed : List (Int × PhmEvent)) :
    (a.addEvents feed).suppressionDuration = a.suppressionDuration := by
  induction feed generalizing a with
  | nil => rfl
  | cons x feed ih =>
    refine (ih (a.addEvent x.1 x.2)).trans ?_
    unfold addEvent
    split <;> rfl

structure Follows (a : AlertAggregator) (log : List (Int × PhmEvent)) : Prop where
  listed : a.events = log.map Prod.snd
  latest : Suppression.Remembers alertKey log fun key => a.lastSuppressed[key]?

theorem Follows.suppressed_iff {log : List (Int × PhmEvent)} (h : Follows a log)
    (x : Int × PhmEvent) :
    a.suppressed x.1 x.2 = true ↔ Suppression.Held alertKey (Recent a.suppressionDuration) log x := by
  rw [h.latest.held_iff, suppressed]
  cases a.lastSuppressed[alertKey x.2]? <;> simp

theorem Follows.addEvent {log : List (Int × PhmEvent)} (h : Follows a log) (x : Int × PhmEvent) :
    Follows (a.addEvent x.1 x.2)
      (Suppression.admitNext alertKey (Recent a.suppressionDuration) log x) := by
  unfold AlertAggregator.addEvent Suppression.admitNext
  simp only [h.suppressed_iff]
  split
  · exact h
  · constructor
    · simp [h.listed]
    · convert h.latest.concat x using 2 with key
      rw [Std.ExtTreeMap.getElem?_insert]
      by_cases hkey : key = alertKey x.2
      · simp [hkey]
      · simp [hkey, Ne.symm hkey]

theorem follows_fresh (minutes : Int) : Follows (setSuppressionDuration {} minutes) [] := by
  refine ⟨rfl, ?_⟩
  intro k
  simp [setSuppressionDuration, Suppression.latest]

theorem follows_addEvents (minutes : Int) (feed : List (Int × PhmEvent)) :
    Follows ((setSuppressionDuration {} minutes).addEvents feed)
        (Suppression.admitted alertKey (Recent minutes) feed) ∧
      (setSuppressionDuration {} minutes).accepted feed =
        Suppression.admitted alertKey (Recent minutes) feed := by
  induction feed using List.reverseRecOn with
  | nil => exact ⟨follows_fresh minutes, rfl⟩
  | append_singleton feed x ih =>
    obtain ⟨hfollows, haccepted⟩ := ih
    have hminutes := suppressionDuration_addEvents (setSuppressionDuration {} minutes) feed
    have hsuppressed := hfollows.suppressed_iff x
    rw [hminutes] at hsuppressed
    constructor
    · have hnext := hfollows.addEvent x
      rw [hminutes] at hnext
      rwa [addEvents_concat, Suppression.admitted_concat]
    · rw [accepted_concat, Suppression.admitted_concat, Suppression.admitNext, haccepted]
      simp only [hsuppressed]
      rfl

theorem accepted_eq (minutes : Int) (feed : List (Int × PhmEvent)) :
    (setSuppressionDuration {} minutes).accepted feed =
      Suppression.admitted alertKey (Recent minutes) feed := (follows_addEvents minutes feed).2

theorem suppressed_iff (minutes : Int) (feed : List (Int × PhmEvent)) (x : Int × PhmEvent) :
    ((setSuppressionDuration {} minutes).addEvents feed).suppressed x.1 x.2 = true ↔
      Suppression.Held alertKey (Recent minutes) (Suppression.admitted alertKey (Recent minutes) feed) x := by
  rw [(follows_addEvents minutes feed).1.suppressed_iff, suppressionDuration_addEvents]
  rfl

end

section
variable {minutes : Int} {feed : List (Int × PhmEvent)}

theorem held_byTriple (hclock : feed.Pairwise fun x y => x.1 ≤ y.1) (x : Int × PhmEvent) :
    Suppression.Held alertTriple (Suppression.Within (minutes * nsPerMinute)) (byTriple minutes feed) x ↔
      ∃ y ∈ byTriple minutes feed, alertTriple y.2 = alertTriple x.2 ∧ x.1 - y.1 < minutes * nsPerMinute := by
  refine Suppression.held_iff_exists alertTriple (hclock.sublist (Suppression.admitted_sublist _ _ _)) ?_
  intro y _ z _ hle hwithin
  unfold Suppression.Within at *
  omega

theorem byTriple_of_exact (hclock : feed.Pairwise fun x y => x.1 ≤ y.1) (h : Exact minutes feed) :
    ∀ before, before <+: feed → Suppression.admitted alertKey (Recent minutes) before = byTriple minutes before := by
  intro before
  induction before using List.reverseRecOn with
  | nil => exact fun _ => rfl
  | append_singleton before x ih =>
    rintro ⟨after, hafter⟩
    have hfeed : feed = before ++ x :: after := by simp [← hafter]
    have hbefore := ih ⟨x :: after, hfeed.symm⟩
    have hsorted := (List.pairwise_append.mp (hfeed ▸ hclock)).1
    have hspaced := h.spaced
    have hjustified := h.justified before x after hfeed
    rw [suppressed_iff, accepted_eq, hbefore] at hjustified
    rw [accepted_eq, ← hafter] at hspaced
    have hkept := hspaced.sublist (Suppression.prefix_admitted_append alertKey (Recent minutes) (before ++ [x])
      after).sublist
    have hiff : Suppression.Held alertKey (Recent minutes) (byTriple minutes before) x ↔
        Suppression.Held alertTriple (Suppression.Within (minutes * nsPerMinute)) (byTriple minutes before) x := by
      rw [held_byTriple hsorted]
      refine ⟨hjustified, ?_⟩
      rintro ⟨y, hy, htriple, hrecent⟩
      by_contra hfree
      rw [Suppression.admitted_concat, Suppression.admitNext, hbefore, if_neg hfree] at hkept
      have hle := (List.pairwise_append.mp hkept).2.2 y hy x (by simp) htriple
      omega
    unfold byTriple at *
    rw [Suppression.admitted_concat, Suppression.admitted_concat, hbefore, Suppression.admitNext,
      Suppression.admitNext]
    simp only [hiff]

theorem undisturbed_of_exact (hclock : feed.Pairwise fun x y => x.1 ≤ y.1) (h : Exact minutes feed) :
    Undisturbed minutes feed := by
  have hprefix := byTriple_of_exact hclock h
  have halike := Suppression.alike_of_prefixes hprefix
  have htimed : Suppression.Alike alertTriple (Recent minutes) alertTriple
      (Suppression.Within (minutes * nsPerMinute)) (byTriple minutes) feed := by
    classical
    refine Suppression.alike_of_count hclock fun x => ?_
    have hcount (l : List (Int × PhmEvent)) :
        (l.filter fun y => alertTriple y.2 = alertTriple x.2).count x = l.count x :=
      List.count_filter (by simp)
    have hone := h.independent (alertTriple x.2)
    rw [accepted_eq, accepted_eq, hprefix feed (List.prefix_refl feed)] at hone
    have hsame : Suppression.admitted alertKey (Recent minutes)
          (feed.filter fun y => alertTriple y.2 = alertTriple x.2) =
        (Suppression.admitted alertTriple (Recent minutes) feed).filter
          fun y => alertTriple y.2 = alertTriple x.2 := by
      refine (Suppression.admitted_congr _ _ _ ?_).trans
        (Suppression.admitted_filter alertTriple (Recent minutes) feed fun t => t = alertTriple x.2).symm
      intro y hy z hz
      have hy : alertTriple y.2 = alertTriple x.2 := of_decide_eq_true (List.mem_filter.mp hy).2
      have hz : alertTriple z.2 = alertTriple x.2 := of_decide_eq_true (List.mem_filter.mp hz).2
      exact iff_of_true (alertKey_of_triple _ _ (hy.trans hz.symm)) (hy.trans hz.symm)
    rw [← hcount, ← hsame, ← hone, hcount]
    rfl
  refine ⟨htimed, ?_⟩
  intro before x after heq
  exact (halike before x after heq).trans (htimed before x after heq).symm

theorem exact_of_undisturbed (hclock : feed.Pairwise fun x y => x.1 ≤ y.1) (h : Undisturbed minutes feed) :
    Exact minutes feed := by
  have halike {fed : List (Int × PhmEvent)} (hfed : fed <+: feed) :
      Suppression.admitted alertKey (Recent minutes) fed = byTriple minutes fed := by
    obtain ⟨rest, hrest⟩ := hfed
    refine Suppression.admitted_eq_of_alike ?_
    intro before x after heq
    have hfeed : feed = before ++ x :: (after ++ rest) := by rw [← hrest, heq]; simp
    exact (h.apart before x _ hfeed).trans (h.timed before x _ hfeed)
  have hall := halike (List.prefix_refl feed)
  refine ⟨?_, ?_, ?_, ?_⟩
  · rw [accepted_eq, hall]
    refine (Suppression.admitted_spaced alertTriple _ hclock (Suppression.ages_within _ feed)).imp ?_
    intro x y hspaced htriple
    exact Int.not_lt.mp (hspaced htriple)
  · intro before x after heq hsuppressed
    have hsorted := (List.pairwise_append.mp (heq ▸ hclock)).1
    rw [suppressed_iff, halike ⟨x :: after, heq.symm⟩] at hsuppressed
    rw [accepted_eq, halike ⟨x :: after, heq.symm⟩]
    exact (held_byTriple hsorted x).mp
      ((h.timed before x after heq).mp ((h.apart before x after heq).mp hsuppressed))
  · rw [getAggregatedAlerts, (follows_addEvents minutes feed).1.listed, accepted_eq]
  · intro triple
    rw [accepted_eq, accepted_eq, hall]
    have htimed : Suppression.admitted alertTriple (Recent minutes) feed = byTriple minutes feed :=
      Suppression.admitted_eq_of_alike h.timed
    rw [← htimed]
    refine (Suppression.admitted_filter alertTriple (Recent minutes) feed fun t => t = triple).trans
      (Suppression.admitted_congr _ _ _ ?_).symm
    intro x hx y hy
    have hx : alertTriple x.2 = triple := of_decide_eq_true (List.mem_filter.mp hx).2
    have hy : alertTriple y.2 = triple := of_decide_eq_true (List.mem_filter.mp hy).2
    exact iff_of_true (alertKey_of_triple _ _ (hx.trans hy.symm)) (hx.trans hy.symm)

end

theorem exact_iff (minutes : Int) (feed : List (Int × PhmEvent)) (hclock : feed.Pairwise fun x y => x.1 ≤ y.1) :
    Exact minutes feed ↔ Undisturbed minutes feed :=
  ⟨undisturbed_of_exact hclock, exact_of_undisturbed hclock⟩

-- the duration and the times between the events are 64-bit counts of nanoseconds
structure InRange {α : Type} (minutes : Int) (feed : List (Int × α)) : Prop where
  duration : Chrono.Fits (minutes * nsPerMinute)
  span : ∀ x ∈ feed, ∀ y ∈ feed, Chrono.Fits (y.1 - x.1)

section
variable {α : Type} {minutes : Int} {feed : List (Int × α)}

theorem InRange.recent_iff (h : InRange minutes feed) {x y : Int × α} (hx : x ∈ feed) (hy : y ∈ feed) :
    Recent minutes x.1 y.1 ↔ Suppression.Within (minutes * nsPerMinute) x.1 y.1 :=
  Chrono.younger_iff h.duration (h.span x hx y hy)

theorem InRange.ages (h : InRange minutes feed) : Suppression.Ages (Recent minutes) feed := by
  intro x hx y hy z hz hle
  rw [h.recent_iff hx hz, h.recent_iff hy hz]
  exact Suppression.ages_within _ feed x hx y hy z hz hle

end

section
variable {minutes : Int} {feed : List (Int × PhmEvent)}

theorem InRange.timed (h : InRange minutes feed) :
    Suppression.Alike alertTriple (Recent minutes) alertTriple
      (Suppression.Within (minutes * nsPerMinute)) (byTriple minutes) feed := by
  intro before x after heq
  refine exists_congr fun y => and_congr_right fun hy => h.recent_iff ?_ ?_
  · have hmem := (Suppression.admitted_sublist _ _ _).subset (Suppression.mem_latest _ hy).1
    simp [heq, hmem]
  · simp [heq]

theorem InRange.undisturbed_iff (h : InRange minutes feed) (hclock : feed.Pairwise fun x y => x.1 ≤ y.1) :
    Undisturbed minutes feed ↔ (byTriple minutes feed).Pairwise fun x y =>
      alertKey x.2 = alertKey y.2 → alertTriple x.2 ≠ alertTriple y.2 → minutes * nsPerMinute ≤ y.1 - x.1 := by
  have hlogs : ∀ before, before <+: feed →
      Suppression.admitted alertTriple (Recent minutes) before = byTriple minutes before := by
    rintro before ⟨rest, hrest⟩
    refine Suppression.admitted_eq_of_alike fun first x after heq => ?_
    exact h.timed first x (after ++ rest) (by rw [← hrest, heq]; simp)
  have hapart : Suppression.Alike alertKey (Recent minutes) alertTriple (Recent minutes) (byTriple minutes) feed ↔
      Suppression.Alike alertKey (Recent minutes) alertTriple (Recent minutes)
        (Suppression.admitted alertTriple (Recent minutes)) feed := by
    refine forall_congr' fun before => forall_congr' fun x => forall_congr' fun after => forall_congr' fun heq => ?_
    rw [hlogs before ⟨x :: after, heq.symm⟩]
  have hpairs := Suppression.alike_iff_apart alertKey_of_triple hclock h.ages
  rw [hlogs feed (List.prefix_refl feed)] at hpairs
  have hsub := Suppression.admitted_sublist alertTriple (Suppression.Within (minutes * nsPerMinute)) feed
  have hmeaning : ((byTriple minutes feed).Pairwise fun x y =>
        alertKey x.2 = alertKey y.2 → alertTriple x.2 ≠ alertTriple y.2 → ¬ Recent minutes x.1 y.1) ↔
      (byTriple minutes feed).Pairwise fun x y =>
        alertKey x.2 = alertKey y.2 → alertTriple x.2 ≠ alertTriple y.2 → minutes * nsPerMinute ≤ y.1 - x.1 := by
    refine List.Pairwise.iff_of_mem fun {x y} hx hy => ?_
    rw [h.recent_iff (hsub.subset hx) (hsub.subset hy), Suppression.Within, Int.not_lt]
  rw [← hmeaning, ← hpairs, ← hapart]
  exact ⟨Undisturbed.apart, fun hc => ⟨h.timed, hc⟩⟩

theorem exact_of_plain_names (h : InRange minutes feed) (hclock : feed.Pairwise fun x y => x.1 ≤ y.1)
    (hplain : ∀ x ∈ feed, '/' ∉ x.2.sourceSe.toList) : Exact minutes feed := by
  refine exact_of_undisturbed hclock ((h.undisturbed_iff hclock).mpr (List.pairwise_iff_forall_sublist.mpr ?_))
  intro x y hxy hkey hne
  have hmem := (hxy.trans (Suppression.admitted_sublist _ _ feed)).subset
  exact absurd (alertTriple_of_alertKey (hplain x (hmem (by simp))) (hplain y (hmem (by simp))) hkey) hne

end

section

def alert (se monitor : String) (severity : Severity) : PhmEvent where
  id := "1"
  sourceSe := se
  sourceMonitor := monitor
  severity := severity

def splitAlike : List (Int × PhmEvent) :=
  [(0, alert "a/b" "c" .error), (1, alert "a" "b/c" .error)]

def repeatedAlert : List (Int × PhmEvent) :=
  [(0, alert "a" "c" .error), (1, alert "a" "c" .error)]

theorem exact_fails : ¬ Exact 5 splitAlike ∧ ¬ Exact 200000000 repeatedAlert := by
  constructor
  · intro h
    obtain ⟨y, hy, htriple, -⟩ := h.justified [(0, alert "a/b" "c" .error)]
      (1, alert "a" "b/c" .error) [] rfl (by decide)
    have hy : y ∈ [(0, alert "a/b" "c" .error)] := hy
    obtain rfl : y = (0, alert "a/b" "c" .error) := by simpa using hy
    exact absurd htriple (by decide)
  · intro h
    have haccepted : (setSuppressionDuration {} 200000000).accepted repeatedAlert = repeatedAlert := rfl
    have hspaced := h.spaced
    rw [haccepted] at hspaced
    exact absurd ((List.pairwise_cons.mp hspaced).1 _ (List.mem_singleton_self _) rfl) (by decide)

def threeAlerts : List (Int × PhmEvent) :=
  [(0, alert "a" "c" .error), (1, alert "a" "c" .error), (2, alert "b" "c" .error)]

theorem exact_iff_plain : Exact 5 threeAlerts := by
  have hrange : InRange 5 threeAlerts := ⟨by decide, by decide⟩
  exact (exact_iff 5 threeAlerts (by decide)).mpr ((hrange.undisturbed_iff (by decide)).mpr (by decide))

end

end AlertAggregator

end PlatformHealth
