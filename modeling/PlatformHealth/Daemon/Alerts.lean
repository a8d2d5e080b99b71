import PlatformHealth.Daemon.AlertAggregator
import PlatformHealth.Entity.Isolation
import PlatformHealth.Monitors.Builtin

namespace PlatformHealth

namespace SupervisedEntity

variable {μ ε : Type} [IMonitor μ ε]

def returned (se : SupervisedEntity μ) (readings : Nat → ε) : List PhmEvent :=
  match se.outcome readings with
  | .ok events => events
  | .error _ => []

def checkEvents : SupervisedEntity μ → List (EntityOp μ ε) → List PhmEvent
  | _, [] => []
  | se, op :: ops =>
    (match op with
      | .checkAll readings => se.returned readings
      | _ => []) ++ checkEvents (se.apply op) ops

theorem mem_returned {se : SupervisedEntity μ} {readings : Nat → ε} {event : PhmEvent}
    (h : event ∈ se.returned readings) :
    ∃ p : μ × ε, (IMonitor.check p.1 p.2).outcome = .ok event := by
  unfold returned at h
  split at h
  · next events hok =>
    have hanswers := (returns_iff se readings).mp ⟨events, hok⟩
    have hevents := returned_checkMonitors hanswers se []
    obtain rfl : events = generated (answers readings 0 se.monitors) :=
      Except.ok.inj (hok.symm.trans hevents)
    obtain ⟨p, -, hp⟩ := List.mem_filterMap.mp h
    refine ⟨p, ?_⟩
    unfold reported at hp
    split at hp
    · cases hp
    · next evt hevt =>
      split at hp
      · cases hp
      · rw [hevt, Option.some.inj hp]
  · cases h

theorem sourceSe_checkEvents (se : SupervisedEntity BuiltinMonitor)
    (ops : List (EntityOp BuiltinMonitor Reading)) :
    ∀ event ∈ se.checkEvents ops, event.sourceSe = "" := by
  induction ops generalizing se with
  | nil => simp [checkEvents]
  | cons op ops ih =>
    intro event h
    rcases List.mem_append.mp h with h | h
    · cases op with
      | checkAll readings =>
        obtain ⟨p, hp⟩ := mem_returned h
        exact (BuiltinMonitor.regular_check _ _).sourceSe event hp
      | _ => cases h
    · exact ih (se.apply op) event h

end SupervisedEntity

namespace AlertAggregator

abbrev OwnedEvent := Int × String × PhmEvent

def only (name : String) (feed : List OwnedEvent) : List (Int × PhmEvent) :=
  (feed.filter (fun x => x.2.1 = name)).map (Prod.map id Prod.snd)

def acceptedOwned (a : AlertAggregator) : List OwnedEvent → List OwnedEvent
  | [] => []
  | x :: rest =>
    if a.suppressed x.1 x.2.2 then acceptedOwned (a.addEvent x.1 x.2.2) rest
    else x :: acceptedOwned (a.addEvent x.1 x.2.2) rest

def monitorAndSeverity (event : PhmEvent) : String × Severity := (event.sourceMonitor, event.severity)

theorem alertKey_unattributed {e f : PhmEvent} (he : e.sourceSe = "") (hf : f.sourceSe = "") :
    alertKey e = alertKey f ↔ monitorAndSeverity e = monitorAndSeverity f := by
  rw [alertKey_eq_iff, he, hf, String.append_right_inj]
  simp only [monitorAndSeverity, Prod.mk.injEq]
  exact and_comm

section
variable {feed : List OwnedEvent} (minutes : Int)

theorem acceptedOwned_concat (a : AlertAggregator) (feed : List OwnedEvent) (x : OwnedEvent) :
    a.acceptedOwned (feed ++ [x]) =
      if (a.addEvents (feed.map (Prod.map id Prod.snd))).suppressed x.1 x.2.2
        then a.acceptedOwned feed else a.acceptedOwned feed ++ [x] := by
  induction feed generalizing a with
  | nil => rfl
  | cons y feed ih =>
    simp only [List.cons_append, acceptedOwned, List.map_cons, addEvents, Prod.map_fst, id_eq,
      Prod.map_snd, ih]
    split <;> split <;> simp

theorem acceptedOwned_eq (feed : List OwnedEvent) :
    (setSuppressionDuration {} minutes).acceptedOwned feed =
      Suppression.admitted (alertKey ∘ Prod.snd) (Recent minutes) feed := by
  induction feed using List.reverseRecOn with
  | nil => rfl
  | append_singleton feed x ih =>
    have hsuppressed : ((setSuppressionDuration {} minutes).addEvents
          (feed.map (Prod.map id Prod.snd))).suppressed x.1 x.2.2 = true ↔
        Suppression.Held (alertKey ∘ Prod.snd) (Recent minutes)
          (Suppression.admitted (alertKey ∘ Prod.snd) (Recent minutes) feed) x := by
      rw [← Suppression.held_map, Suppression.admitted_map]
      exact suppressed_iff minutes _ (Prod.map id Prod.snd x)
    rw [acceptedOwned_concat, ih, Suppression.admitted_concat, Suppression.admitNext]
    simp only [hsuppressed]

theorem map_only_injective {name : String} {xs ys : List OwnedEvent}
    (hx : ∀ x ∈ xs, x.2.1 = name) (hy : ∀ y ∈ ys, y.2.1 = name)
    (h : xs.map (Prod.map id Prod.snd) = ys.map (Prod.map id Prod.snd)) : xs = ys := by
  have hself {zs : List OwnedEvent} (hz : ∀ z ∈ zs, z.2.1 = name) :
      (zs.map (Prod.map id Prod.snd)).map (fun z : Int × PhmEvent => (z.1, name, z.2)) = zs := by
    rw [List.map_map]
    refine (List.map_congr_left fun z hmem => ?_).trans (List.map_id zs)
    obtain rfl := hz z hmem
    rfl
  rw [← hself hx, h, hself hy]

theorem isolated_iff (hclock : feed.Pairwise fun x y => x.1 ≤ y.1) :
    (∀ name, only name ((setSuppressionDuration {} minutes).acceptedOwned feed) =
        (setSuppressionDuration {} minutes).accepted (only name feed)) ↔
      Suppression.Alike (alertKey ∘ Prod.snd) (Recent minutes)
        (Suppression.tagged (alertKey ∘ Prod.snd) Prod.fst) (Recent minutes)
        (Suppression.admitted (Suppression.tagged (alertKey ∘ Prod.snd) Prod.fst) (Recent minutes)) feed := by
  rw [← Suppression.isolated_iff_alike _ _ hclock]
  refine forall_congr' fun name => ?_
  rw [accepted_eq, acceptedOwned_eq, only, only, ← Suppression.admitted_map]
  constructor
  · intro h
    refine @map_only_injective name _ _ ?_ ?_ h
    · intro x hx
      exact of_decide_eq_true (List.mem_filter.mp hx).2
    · intro x hx
      have hmem := (Suppression.admitted_sublist _ _ _).subset hx
      exact of_decide_eq_true (List.mem_filter.mp hmem).2
  · intro h
    exact congrArg (List.map (Prod.map id Prod.snd)) h

theorem isolated_iff_of_owners {A B : String} (howner : ∀ x ∈ feed, x.2.1 = A ∨ x.2.1 = B) :
    let a := setSuppressionDuration {} minutes
    (∀ name, only name (a.acceptedOwned feed) = a.accepted (only name feed)) ↔
      only A (a.acceptedOwned feed) = a.accepted (only A feed) ∧
        only B (a.acceptedOwned feed) = a.accepted (only B feed) := by
  intro a
  refine ⟨fun h => ⟨h A, h B⟩, ?_⟩
  rintro ⟨hA, hB⟩ name
  by_cases hname : name = A ∨ name = B
  · rcases hname with rfl | rfl
    · exact hA
    · exact hB
  · have hnone {xs : List OwnedEvent} (hsub : xs.Sublist feed) : only name xs = [] := by
      rw [only, List.map_eq_nil_iff, List.filter_eq_nil_iff]
      intro x hx heq
      obtain rfl : x.2.1 = name := of_decide_eq_true heq
      exact hname (howner x (hsub.subset hx))
    rw [hnone (.refl _), acceptedOwned_eq, hnone (Suppression.admitted_sublist _ _ feed)]
    rfl

theorem unattributed_of_owner {cfg : SEConfig} {ops : List (EntityOp BuiltinMonitor Reading)}
    (hevents : (only cfg.name feed).map Prod.snd = (SupervisedEntity.new cfg).checkEvents ops)
    {x : OwnedEvent} (hx : x ∈ feed) (hname : x.2.1 = cfg.name) : x.2.2.sourceSe = "" := by
  refine SupervisedEntity.sourceSe_checkEvents (SupervisedEntity.new cfg) ops _ (hevents ▸ ?_)
  have hmem : (x.1, x.2.2) ∈ only cfg.name feed :=
    List.mem_map.mpr ⟨x, List.mem_filter.mpr ⟨hx, decide_eq_true hname⟩, rfl⟩
  exact List.mem_map.mpr ⟨_, hmem, rfl⟩

-- what suppression by the monitor's name and the severity keeps of each entity's own events
def ownAlerts (minutes : Int) (feed : List OwnedEvent) : List OwnedEvent :=
  Suppression.admitted (Suppression.tagged (monitorAndSeverity ∘ Prod.snd) Prod.fst) (Recent minutes) feed

-- the last of these alerts with an event's monitor and severity says about the event what the last
-- one of the event's own entity says
def Undisturbed.byOthers (minutes : Int) (feed : List OwnedEvent) : Prop :=
  Suppression.Alike (monitorAndSeverity ∘ Prod.snd) (Recent minutes)
    (Suppression.tagged (monitorAndSeverity ∘ Prod.snd) Prod.fst) (Recent minutes) (ownAlerts minutes) feed

theorem alertKey_iff (hse : ∀ x ∈ feed, x.2.2.sourceSe = "") {x y : OwnedEvent} (hx : x ∈ feed) (hy : y ∈ feed) :
    alertKey x.2.2 = alertKey y.2.2 ↔ monitorAndSeverity x.2.2 = monitorAndSeverity y.2.2 :=
  alertKey_unattributed (hse x hx) (hse y hy)

theorem alike_iff_byOthers (hse : ∀ x ∈ feed, x.2.2.sourceSe = "") :
    Suppression.Alike (alertKey ∘ Prod.snd) (Recent minutes)
        (Suppression.tagged (alertKey ∘ Prod.snd) Prod.fst) (Recent minutes)
        (Suppression.admitted (Suppression.tagged (alertKey ∘ Prod.snd) Prod.fst) (Recent minutes)) feed ↔
      Undisturbed.byOthers minutes feed := by
  refine forall_congr' fun before => forall_congr' fun x => forall_congr' fun after => forall_congr' fun heq => ?_
  have hkey {y z : OwnedEvent} (hy : y ∈ feed) (hz : z ∈ feed) := alertKey_iff hse hy hz
  have hbefore {y : OwnedEvent} (hy : y ∈ before) : y ∈ feed := by simp [heq, hy]
  have hx : x ∈ feed := by simp [heq]
  have hlog : Suppression.admitted (Suppression.tagged (alertKey ∘ Prod.snd) Prod.fst) (Recent minutes) before =
      ownAlerts minutes before := by
    refine Suppression.admitted_congr _ _ _ fun y hy z hz => ?_
    simp [Suppression.tagged, hkey (hbefore hy) (hbefore hz)]
  have hmem {y : OwnedEvent} (hy : y ∈ ownAlerts minutes before) : y ∈ feed :=
    hbefore ((Suppression.admitted_sublist _ _ _).subset hy)
  rw [hlog, Suppression.Held, Suppression.Held, Suppression.Held, Suppression.Held,
    @Suppression.latest_congr _ _ _ _ _ (alertKey ∘ Prod.snd) _ (monitorAndSeverity ∘ Prod.snd) x
      fun y hy => hkey (hmem hy) hx,
    @Suppression.latest_congr _ _ _ _ _ (Suppression.tagged (alertKey ∘ Prod.snd) Prod.fst) _
      (Suppression.tagged (monitorAndSeverity ∘ Prod.snd) Prod.fst) x
      fun y hy => by simp [Suppression.tagged, hkey (hmem hy) hx]]

theorem InRange.byOthers_iff {minutes : Int} (h : InRange minutes feed)
    (hclock : feed.Pairwise fun x y => x.1 ≤ y.1) :
    Undisturbed.byOthers minutes feed ↔ (ownAlerts minutes feed).Pairwise fun x y =>
      monitorAndSeverity x.2.2 = monitorAndSeverity y.2.2 → x.2.1 ≠ y.2.1 →
        minutes * nsPerMinute ≤ y.1 - x.1 := by
  have hforget (a b : String × PhmEvent)
      (hfine : Suppression.tagged (monitorAndSeverity ∘ Prod.snd) Prod.fst a =
        Suppression.tagged (monitorAndSeverity ∘ Prod.snd) Prod.fst b) :
      (monitorAndSeverity ∘ Prod.snd) a = (monitorAndSeverity ∘ Prod.snd) b := congrArg Prod.snd hfine
  refine (Suppression.alike_iff_apart hforget hclock h.ages).trans (List.Pairwise.iff_of_mem fun {x y} hx hy => ?_)
  have hsub := Suppression.admitted_sublist
    (Suppression.tagged (monitorAndSeverity ∘ Prod.snd) (Prod.fst : String × PhmEvent → String)) (Recent minutes) feed
  rw [h.recent_iff (hsub.subset hx) (hsub.subset hy), Suppression.Within, Int.not_lt]
  refine forall_congr' fun hsame => imp_congr_left (not_congr ?_)
  exact Prod.ext_iff.trans (and_iff_left hsame)

theorem alerts_isolated_iff (A B : SEConfig) (opsA opsB : List (EntityOp BuiltinMonitor Reading)) (minutes : Int)
    (feed : List OwnedEvent) (hclock : feed.Pairwise (fun x y => x.1 ≤ y.1))
    (howner : ∀ x ∈ feed, x.2.1 = A.name ∨ x.2.1 = B.name)
    (hA : (only A.name feed).map Prod.snd = (SupervisedEntity.new A).checkEvents opsA)
    (hB : (only B.name feed).map Prod.snd = (SupervisedEntity.new B).checkEvents opsB) :
    let a := setSuppressionDuration {} minutes
    (only A.name (a.acceptedOwned feed) = a.accepted (only A.name feed) ∧
        only B.name (a.acceptedOwned feed) = a.accepted (only B.name feed)) ↔
      Undisturbed.byOthers minutes feed := by
  intro a
  have hse : ∀ x ∈ feed, x.2.2.sourceSe = "" := by
    intro x hx
    rcases howner x hx with hname | hname
    · exact unattributed_of_owner hA hx hname
    · exact unattributed_of_owner hB hx hname
  exact (isolated_iff_of_owners minutes howner).symm.trans
    ((isolated_iff minutes hclock).trans (alike_iff_byOthers minutes hse))

end

section
variable (entity monitor : String)

def watch : BuiltinMonitor :=
  .processLifecycle (.new monitor { params := StringMap.empty.insert "process_name" "worker" })

def lossSeen : List (EntityOp BuiltinMonitor Reading) :=
  [.registerMonitor (some (watch monitor)), .start (fun _ => .ofCurrent (some ⟨1, Int.zero_lt_one⟩) {}),
    .checkAll (fun _ => {})]

end

def twoLosses (m n : String) : List OwnedEvent :=
  ((SupervisedEntity.new { name := "a" }).checkEvents (lossSeen m)).map (fun e => (0, "a", e)) ++
    ((SupervisedEntity.new { name := "b" }).checkEvents (lossSeen n)).map (fun e => (1, "b", e))

theorem alert_lost_to_other_entity :
    let a := setSuppressionDuration {} 5
    let feed := twoLosses "process_lifecycle" "process_lifecycle"
    (only "a" feed).map Prod.snd = (SupervisedEntity.new { name := "a" }).checkEvents
        (lossSeen "process_lifecycle") ∧
      (only "b" feed).map Prod.snd = (SupervisedEntity.new { name := "b" }).checkEvents
        (lossSeen "process_lifecycle") ∧
      only "b" (a.acceptedOwned feed) ≠ a.accepted (only "b" feed) := by
  intro a feed
  refine ⟨rfl, rfl, fun h => ?_⟩
  exact absurd (congrArg List.length h) (by decide +kernel)

theorem alerts_isolated_of_own_names :
    let a := setSuppressionDuration {} 5
    let feed := twoLosses "a process" "b process"
    only "a" (a.acceptedOwned feed) = a.accepted (only "a" feed) ∧
      only "b" (a.acceptedOwned feed) = a.accepted (only "b" feed) := by
  intro a feed
  have hrange : InRange 5 feed := ⟨by decide, by decide +kernel⟩
  have hclock : feed.Pairwise fun x y => x.1 ≤ y.1 :=
    .cons (by decide +kernel) (.cons (by decide +kernel) .nil)
  refine (alerts_isolated_iff { name := "a" } { name := "b" } (lossSeen "a process") (lossSeen "b process") 5
    feed hclock (by decide +kernel) rfl rfl).mpr ?_
  exact (hrange.byOthers_iff hclock).mpr (by decide +kernel)

end AlertAggregator

end PlatformHealth
