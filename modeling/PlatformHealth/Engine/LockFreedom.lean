import PlatformHealth.Engine.Operations

namespace PlatformHealth

open LockDiscipline

namespace PhmEngine

variable {μ ε : Type} [IMonitor μ ε]

def Launches (se : SupervisedEntity μ) (readings : Nat → ε) : Prop :=
  (SupervisedEntity.startMonitors readings 0 se.monitors).2 = true ∧ se.currentState = .init

section
variable {e : PhmEngine μ} {ref : Nat} {se : SupervisedEntity μ} {readings : Nat → ε}

theorem relock_of_launches (hlock : e.mutex = true) (hcb : se.stateCb = true)
    (h : Launches se readings) :
    Ends (se.start (stateCallback ref) readings) e (fun _ _ => False) (· = .relock) := by
  have hheld : Lockable.held (e.setState ref .running) = true := hlock
  have hallowed : isTransitionAllowed .init .running = true := rfl
  simp only [SupervisedEntity.start, SupervisedEntity.transitionTo, h.1, h.2, hallowed, hcb,
    stateCallback, onEntityStateChanged, getGlobalState, ends_bind, ends_modify,
    ends_withLock_of_held hheld, Bool.not_true, Bool.and_self, decide_true,
    if_true, if_false, Bool.false_eq_true]

theorem start_of_not_launches (h : ¬ Launches se readings) :
    Ends (se.start (stateCallback ref) readings) e
      (fun out f => out.1 = se.apply (.start readings) ∧ f = e) (fun _ => False) := by
  have hnot : ((SupervisedEntity.startMonitors readings 0 se.monitors).2 &&
      decide (se.currentState = .init)) = false := by
    simpa [Launches] using h
  simp [SupervisedEntity.start, SupervisedEntity.apply, hnot]

end

def Startable (e : PhmEngine μ) (readings : Nat → Nat → ε) (ref : Nat) : Prop :=
  ∃ se, e.objects[ref]? = some se ∧ se.config.enabled = true ∧ Launches se (readings ref)

section
variable {readings : Nat → Nat → ε} {ref : Nat} {se : SupervisedEntity μ}

theorem startable_store {e : PhmEngine μ} {other : Nat} (hne : ref ≠ other) :
    Startable (e.store ref se) readings other ↔ Startable e readings other := by
  simp only [Startable, store, List.getElem?_set_ne hne]

theorem evolves_start {e : PhmEngine μ} (h : e.objects[ref]? = some se) (readings : Nat → ε) :
    Evolves e.objects (e.store ref (se.apply (.start readings))).objects :=
  (Evolves.refl _).set h (SupervisedEntity.config_run se [.start readings])
    fun hcb => (SupervisedEntity.stateCb_apply se (.start readings)).trans hcb

theorem startEntities_completes {refs : List Nat} (hnodup : refs.Nodup) {e : PhmEngine μ}
    (h : ∀ ref ∈ refs, ¬ Startable e readings ref) :
    Ends (startEntities readings refs) e
      (fun _ f => Evolves e.objects f.objects ∧ f.entities = e.entities) (fun _ => False) := by
  induction refs generalizing e with
  | nil => exact ⟨.refl _, rfl⟩
  | cons ref rest ih =>
    obtain ⟨hnot, hnodup'⟩ := List.nodup_cons.mp hnodup
    have hrest : ∀ r ∈ rest, ¬ Startable e readings r := fun r hr => h r (by simp [hr])
    rw [startEntities, ends_bind, ends_get]
    cases hse : e.objects[ref]? with
    | none => exact ih hnodup' hrest
    | some se =>
      dsimp only
      cases henabled : se.config.enabled with
      | false => exact ih hnodup' hrest
      | true =>
        have hlaunch : ¬ Launches se (readings ref) := fun hl => h ref (by simp) ⟨se, hse, henabled, hl⟩
        rw [if_pos rfl, ends_bind]
        refine (start_of_not_launches hlaunch).mono ?_ (fun _ h => h)
        rintro ⟨se', ok⟩ f ⟨rfl, rfl⟩
        rw [ends_bind, ends_modify]
        have hstored : ∀ r ∈ rest,
            ¬ Startable (f.store ref (se.apply (.start (readings ref)))) readings r := by
          intro r hr
          have hne : ref ≠ r := by
            rintro rfl
            exact hnot hr
          rw [startable_store hne]
          exact hrest r hr
        refine (ih hnodup' hstored).mono ?_ (fun _ h => h)
        rintro _ g ⟨hobj, hent⟩
        exact ⟨(evolves_start hse _).trans hobj, hent⟩

theorem startEntities_relocks {refs : List Nat} (hnodup : refs.Nodup) {e : PhmEngine μ}
    (hlock : e.mutex = true)
    (hcb : ∀ ref ∈ refs, ∃ se, e.objects[ref]? = some se ∧ se.stateCb = true)
    (h : ∃ ref ∈ refs, Startable e readings ref) :
    Ends (startEntities readings refs) e (fun _ _ => False) (· = .relock) := by
  induction refs generalizing e with
  | nil => simp at h
  | cons ref rest ih =>
    obtain ⟨hnot, hnodup'⟩ := List.nodup_cons.mp hnodup
    obtain ⟨se, hse, hsecb⟩ := hcb ref (by simp)
    have hcb' : ∀ r ∈ rest, ∃ se, e.objects[r]? = some se ∧ se.stateCb = true :=
      fun r hr => hcb r (by simp [hr])
    rw [startEntities, ends_bind, ends_get, hse]
    dsimp only
    by_cases hstart : Startable e readings ref
    · obtain ⟨se', hse', henabled, hlaunch⟩ := hstart
      obtain rfl : se = se' := by simpa [hse] using hse'
      rw [if_pos henabled, ends_bind]
      exact (relock_of_launches hlock hsecb hlaunch).mono (fun _ _ h => h.elim) (fun _ h => h)
    · have hex : ∃ r ∈ rest, Startable e readings r := by simpa [hstart] using h
      cases henabled : se.config.enabled with
      | false => exact ih hnodup' hlock hcb' hex
      | true =>
        have hlaunch : ¬ Launches se (readings ref) := fun hl => hstart ⟨se, hse, henabled, hl⟩
        rw [if_pos rfl, ends_bind]
        refine (start_of_not_launches hlaunch).mono ?_ (fun _ h => h.elim)
        rintro ⟨se', ok⟩ f ⟨rfl, rfl⟩
        rw [ends_bind, ends_modify]
        have hne (r : Nat) (hr : r ∈ rest) : ref ≠ r := by
          rintro rfl
          exact hnot hr
        refine ih hnodup' hlock ?_ ?_
        · intro r hr
          obtain ⟨t, ht, htcb⟩ := hcb' r hr
          exact ⟨t, by rw [store, List.getElem?_set_ne (hne r hr), ht], htcb⟩
        · obtain ⟨r, hr, hs⟩ := hex
          exact ⟨r, hr, (startable_store (hne r hr)).mpr hs⟩

end

def LockSafe (e : PhmEngine μ) : EngineOp ε → Prop
  | .getStats => False
  | .start readings => e.running = true ∨
      ∀ (name : String) (ref : Nat), e.entities[name]? = some ref → ¬ Startable e readings ref
  | _ => True

section
variable {e : PhmEngine μ}

theorem start_completes (he : e.Ready) {readings : Nat → Nat → ε}
    (h : LockSafe e (.start readings)) :
    Ends (start readings) e (fun _ f => f.Ready) (fun _ => False) := by
  rw [start, ends_withLock_of_free he.free, ends_bind, ends_get]
  split
  · exact ⟨rfl, he.registered⟩
  · next hrun =>
    have hnone : ∀ ref ∈ e.refs, ¬ Startable e readings ref := by
      intro ref href
      obtain ⟨name, hname⟩ := mem_refs.mp href
      exact (h.resolve_left hrun) name ref hname
    rw [ends_bind, ends_get, ends_bind]
    refine Ends.mono (startEntities_completes (e := { e with mutex := true })
      he.registered.nodup_refs hnone) ?_ (fun _ h => h)
    rintro _ f ⟨hobj, hent⟩
    exact ⟨rfl, he.registered.evolves (f := { f with mutex := false }) hobj hent⟩

theorem start_relocks (he : e.Ready) {readings : Nat → Nat → ε}
    (h : ¬ LockSafe e (.start readings)) :
    Ends (start readings) e (fun _ _ => False) (· = .relock) := by
  obtain ⟨hrun, name, ref, href, hstart⟩ : e.running = false ∧ ∃ (name : String) (ref : Nat),
      e.entities[name]? = some ref ∧ Startable e readings ref := by
    simpa [LockSafe] using h
  have hex : ∃ ref ∈ e.refs, Startable e readings ref := ⟨ref, mem_refs.mpr ⟨name, href⟩, hstart⟩
  rw [start, ends_withLock_of_free he.free, ends_bind, ends_get]
  split
  · next hr => exact Bool.noConfusion (hrun.symm.trans hr)
  · rw [ends_bind, ends_get, ends_bind]
    exact (startEntities_relocks (e := { e with mutex := true }) he.registered.nodup_refs rfl
      (fun _ href => he.registered.exists_of_mem_refs href) hex).mono (fun _ _ h => h.elim) (fun _ h => h)

theorem getStats_relocks (he : e.Ready) :
    Ends getStats e (fun _ _ => False) (· = .relock) := by
  rw [getStats, ends_withLock_of_free he.free, ends_bind, ends_get, ends_bind, getGlobalState]
  exact (ends_withLock_of_held (Lockable.held_setHeld true e)).mpr rfl

theorem perform_completes (he : e.Ready) {op : EngineOp ε} (h : LockSafe e op) :
    Ends (perform op) e (fun _ f => f.Ready) (fun _ => False) := by
  cases op with
  | addSupervisedEntity cfg => exact (keeps_addSupervisedEntity cfg).discard e he
  | registerEntity entity => exact (keeps_registerEntity entity).discard e he
  | removeEntity name => exact (keeps_removeEntity name).discard e he
  | loadConfiguration path parsed => exact (keeps_loadConfiguration path parsed).discard e he
  | reloadConfiguration parsed => exact (keeps_reloadConfiguration parsed).discard e he
  | start readings => exact ends_map.mpr (start_completes he h)
  | stop => exact keeps_stop e he
  | isRunning => exact he
  | getGlobalState => exact ends_map.mpr ((ends_getGlobalState he.free).mpr he)
  | getEntity name => exact (keeps_getEntity name).discard e he
  | getEntityNames => exact keeps_getEntityNames.discard e he
  | getStats => exact h.elim
  | getAllEvents minSeverity => exact he
  | acknowledgeEvents eventIds => exact he
  | setGlobalStateCallback installed => exact he.evolves (.refl _) rfl he.free
  | config => exact he

theorem not_lockSafe_of_error (he : e.Ready) {op : EngineOp ε} {x : Fault CheckFault}
    (h : perform op e = .error x) : ¬ LockSafe e op := by
  intro hsafe
  obtain ⟨_, f, hok, -⟩ := ends_ok_iff.mp (perform_completes he hsafe)
  cases hok.symm.trans h

theorem start_or_getStats_of_error (he : e.Ready) {op : EngineOp ε} {x : Fault CheckFault}
    (h : perform op e = .error x) : (∃ readings, op = .start readings) ∨ op = .getStats := by
  have hunsafe := not_lockSafe_of_error he h
  cases op with
  | start readings => exact .inl ⟨readings, rfl⟩
  | getStats => exact .inr rfl
  | _ => exact absurd trivial hunsafe

theorem perform_relocks (he : e.Ready) {op : EngineOp ε} (h : ¬ LockSafe e op) :
    Ends (perform op) e (fun _ _ => False) (· = .relock) := by
  cases op with
  | start readings => exact ends_map.mpr (start_relocks he h)
  | getStats => exact ends_map.mpr (getStats_relocks he)
  | _ => exact absurd trivial h

theorem exec_keeps (he : e.Ready) (s : EngineStep μ ε) :
    Ends (exec s) e (fun _ f => f.Ready) (fun _ => True) := by
  cases s with
  | call op =>
    by_cases h : LockSafe e op
    · exact (perform_completes he h).mono (fun _ _ h => h) (fun _ h => h.elim)
    · exact (perform_relocks he h).mono (fun _ _ h => h.elim) (fun _ _ => trivial)
  | tick readings uptimeMs =>
    exact (tick_keeps he readings uptimeMs).mono (fun _ _ h => h) (fun _ _ => trivial)
  | makeShared cfg => exact he.evolves (evolves_append _ _) rfl he.free
  | useEntity ref op =>
    exact (useEntity_completes he ref op).mono (fun _ _ h => h) (fun _ h => h.elim)

theorem Reachable.ready (h : Reachable e) : e.Ready := by
  induction h with
  | new cfg => exact ⟨rfl, registered_new cfg⟩
  | step s _ hexec ih =>
    have hkeeps := exec_keeps ih s
    rw [Ends, hexec] at hkeeps
    exact hkeeps

theorem completes_iff_lockSafe (h : Reachable e) (op : EngineOp ε) :
    (perform op e ≠ .error .relock ∧ ∃ f, perform op e = .ok ((), f) ∧ f.mutex = false) ↔
      LockSafe e op := by
  by_cases hsafe : LockSafe e op
  · obtain ⟨_, f, hok, hf⟩ := ends_ok_iff.mp (perform_completes h.ready hsafe)
    exact iff_of_true ⟨by simp [hok], f, hok, hf.free⟩ hsafe
  · have hrelock := ends_relock_iff.mp (perform_relocks h.ready hsafe)
    exact iff_of_false (fun hc => hc.1 hrelock) hsafe

end

theorem stop_completes :
    let add : EngineOp Report := .addSupervisedEntity { name := "lidar", monitors := [{ debounceCount := 2 }] }
    ∃ e f : PhmEngine ReportingMonitor, perform (.start fun _ _ => {}) (new {}) = .ok ((), e) ∧
      perform add e = .ok ((), f) ∧ f.running = true ∧ f.entities.size = 1 ∧
      perform .stop f ≠ .error .relock ∧ ∃ g, perform .stop f = .ok ((), g) ∧ g.mutex = false := by
  intro add
  refine ⟨_, _, rfl, rfl, rfl, Std.ExtTreeMap.size_insert, ?_⟩
  exact (completes_iff_lockSafe (.step (.call add) (.step (.call (.start fun _ _ => {})) (.new {}) rfl) rfl)
    .stop).mpr trivial

theorem getStats_and_start_relock :
    let e : PhmEngine ReportingMonitor := new {}
    let add : EngineOp Report := .addSupervisedEntity { name := "se" }
    (Reachable e ∧ perform (.getStats : EngineOp Report) e = .error .relock) ∧
      ∃ f, Reachable f ∧ perform add e = .ok ((), f) ∧
        perform (.start fun _ _ => {}) f = .error .relock :=
  ⟨⟨.new {}, rfl⟩, _, .step (.call (.addSupervisedEntity { name := "se" })) (.new {}) rfl, rfl, rfl⟩

end PhmEngine

end PlatformHealth
