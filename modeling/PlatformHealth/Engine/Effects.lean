import PlatformHealth.Engine.Operations

namespace PlatformHealth

open LockDiscipline

namespace PhmEngine

variable {μ ε : Type} [IMonitor μ ε]

section
variable {e f : PhmEngine μ} {ref : Nat} {se se' : SupervisedEntity μ}

@[simp] theorem store_store : (e.store ref se).store ref se' = e.store ref se' := by
  simp [store]

@[simp] theorem store_setState (state : SeState) :
    (e.setState ref state).store ref se = e.store ref se := by
  have hset : (e.objects.modify ref fun se => { se with currentState := state }).set ref se =
      e.objects.set ref se := by
    apply List.ext_getElem?
    intro other
    rcases eq_or_ne ref other with rfl | hne
    · simp [List.getElem?_set]
    · simp [List.getElem?_set_ne hne, hne]
  simp only [store, setState, hset]

theorem stateCallback_eq (hfree : e.mutex = false) (ref : Nat) (name : String)
    (oldState newState : SeState) :
    stateCallback ref name oldState newState e = .ok ((), e.setState ref newState) := by
  have hends : Ends (stateCallback ref name oldState newState) e
      (fun _ f => f = e.setState ref newState) (fun _ => False) := by
    have hfree' : (e.setState ref newState).mutex = false := hfree
    simp only [stateCallback, onEntityStateChanged, ends_bind, ends_modify,
      ends_getGlobalState hfree']
    simp
  obtain ⟨_, f, hf, rfl⟩ := ends_ok_iff.mp hends
  exact hf

structure Aside (ref : Nat) (e f : PhmEngine μ) : Prop where
  free : f.mutex = false
  store : ∀ se, f.store ref se = e.store ref se

theorem Aside.refl (hfree : e.mutex = false) (ref : Nat) : Aside ref e e := ⟨hfree, fun _ => rfl⟩

theorem simulates_aside (ref : Nat) (name : String) (oldState newState : SeState) :
    Simulates (Aside ref e) (stateCallback ref name oldState newState) (pure ()) := by
  intro f hf
  rw [Ends, stateCallback_eq hf.free]
  exact ⟨rfl, hf.free, fun se => (store_setState newState).trans (hf.store se)⟩

theorem useEntity_eq (hfree : e.mutex = false) (hse : e.objects[ref]? = some se)
    (op : EntityOp μ ε) : useEntity ref op e = .ok ((), e.store ref (se.apply op)) := by
  have hends : Ends (useEntity ref op) e (fun _ f => f = e.store ref (se.apply op))
      (fun _ => False) := by
    rw [useEntity, ends_bind, ends_get, hse]
    dsimp only
    rw [ends_bind]
    refine (SupervisedEntity.simulates_perform (simulates_aside ref) op se e
      (.refl hfree ref)).mono ?_ (fun _ h => h)
    rintro se' f ⟨hse', hf⟩
    rw [SupervisedEntity.perform_silent] at hse'
    subst hse'
    exact hf.store _
  obtain ⟨_, f, hf, rfl⟩ := ends_ok_iff.mp hends
  exact hf

def entityTick (se : SupervisedEntity μ) (r : EntityReading ε) : SupervisedEntity μ :=
  let checked := se.apply (.checkAll r.check)
  if checked.currentState = .fatal && checked.config.autoRestart then
    checked.reset.apply (.start r.restart)
  else checked

def collected (e : PhmEngine μ) (se : SupervisedEntity μ) (nowMs : Int) : PhmEngine μ :=
  { e with reported := e.reported ++ se.monitors.map (record se nowMs) }

theorem ends_restart (hfree : e.mutex = false) (ref : Nat) (se : SupervisedEntity μ)
    (readings : Nat → ε) :
    Ends (do
      let (se, _) ← se.start (stateCallback ref) readings
      modify (·.store ref se)) e (fun _ f => f = e.store ref (se.apply (.start readings)))
      (fun _ => False) := by
  rw [ends_bind]
  refine (SupervisedEntity.simulates_start (simulates_aside ref) readings se e
    (.refl hfree ref)).mono ?_ (fun _ h => h)
  rintro ⟨started, ok⟩ f ⟨hout, hf⟩
  obtain rfl : started = se.apply (.start readings) := congrArg Prod.fst hout
  rw [ends_modify, hf.store]

theorem ends_tickEntity (hfree : e.mutex = false) (hse : e.objects[ref]? = some se)
    (r : EntityReading ε) :
    Ends (tickEntity ref r) e
      (fun _ f => f = (e.collected (se.apply (.checkAll r.check)) r.nowMs).store ref (entityTick se r) ∧
        ∃ events, (Id.run (se.checkAll SupervisedEntity.silent r.check)).2 = .ok events)
      (fun x => ∃ fault, (Id.run (se.checkAll SupervisedEntity.silent r.check)).2 = .error fault ∧
        x = .raised fault) := by
  rw [tickEntity, ends_bind, ends_get, hse]
  dsimp only
  rw [ends_bind]
  refine (SupervisedEntity.simulates_checkAll (simulates_aside ref) r.check se e
    (.refl hfree ref)).mono ?_ (fun _ h => h.elim)
  rintro ⟨checked, events⟩ f ⟨hout, hf⟩
  obtain rfl : checked = se.apply (.checkAll r.check) := congrArg Prod.fst hout
  have hevents : events = (Id.run (se.checkAll SupervisedEntity.silent r.check)).2 :=
    congrArg Prod.snd hout
  rw [ends_bind, ends_modify, hf.store]
  cases events with
  | error fault => exact ⟨fault, hevents.symm, rfl⟩
  | ok events =>
    dsimp only
    rw [ends_bind, collectAndReport, ends_modify]
    split
    · next hrestart =>
      rw [ends_bind, ends_modify]
      refine (ends_restart (e := ((e.collected (se.apply (.checkAll r.check)) r.nowMs).store ref
        (se.apply (.checkAll r.check))).store ref (se.apply (.checkAll r.check)).reset) hfree ref _
        r.restart).mono ?_ (fun _ h => h.elim)
      rintro _ f rfl
      refine ⟨?_, events, hevents.symm⟩
      simp only [entityTick, hrestart, if_true, store_store]
    · next hstay =>
      refine ⟨?_, events, hevents.symm⟩
      simp only [entityTick, hstay]
      rfl

end

section
variable {g : Nat → SupervisedEntity μ → SupervisedEntity μ} {refs : List Nat}
  {xs ys : List (SupervisedEntity μ)}

def Swept (g : Nat → SupervisedEntity μ → SupervisedEntity μ) (refs : List Nat)
    (xs ys : List (SupervisedEntity μ)) : Prop :=
  ∀ ref : Nat, ys[ref]? = if ref ∈ refs then xs[ref]?.map (g ref) else xs[ref]?

theorem Swept.nil (g : Nat → SupervisedEntity μ → SupervisedEntity μ)
    (xs : List (SupervisedEntity μ)) : Swept g [] xs xs := by
  intro ref
  simp

theorem Swept.cons {ref : Nat} {se : SupervisedEntity μ} (hnot : ref ∉ refs)
    (hse : xs[ref]? = some se) (h : Swept g refs (xs.set ref (g ref se)) ys) :
    Swept g (ref :: refs) xs ys := by
  intro other
  rw [h other]
  rcases eq_or_ne ref other with rfl | hne
  · have hlt := (List.getElem?_eq_some_iff.mp hse).1
    rw [hse, if_neg hnot, if_pos (by simp), List.getElem?_set_self hlt]
    rfl
  · simp [List.getElem?_set_ne hne, hne.symm]

theorem Swept.cons_none {ref : Nat} (hse : xs[ref]? = none) (h : Swept g refs xs ys) :
    Swept g (ref :: refs) xs ys := by
  intro other
  rw [h other]
  rcases eq_or_ne other ref with rfl | hne
  · simp [hse]
  · simp [hne]

theorem Swept.evolves (h : Swept g refs xs ys) (hcfg : ∀ ref se, (g ref se).config = se.config)
    (hcb : ∀ ref se, (g ref se).stateCb = se.stateCb) : Evolves xs ys := by
  intro ref se hse
  have hys := h ref
  rw [hse] at hys
  by_cases hmem : ref ∈ refs
  · exact ⟨g ref se, by simpa [hmem] using hys, hcfg ref se, fun hse => (hcb ref se).trans hse⟩
  · exact ⟨se, by simpa [hmem] using hys, rfl, id⟩

end

def Completes (se : SupervisedEntity μ) (r : EntityReading ε) : Prop :=
  ∃ events, (Id.run (se.checkAll SupervisedEntity.silent r.check)).2 = .ok events

theorem config_entityTick (se : SupervisedEntity μ) (r : EntityReading ε) :
    (entityTick se r).config = se.config := by
  have hchecked : (se.apply (.checkAll r.check)).config = se.config :=
    SupervisedEntity.config_run se [.checkAll r.check]
  unfold entityTick
  dsimp only
  split
  · exact (SupervisedEntity.config_run _ [.start r.restart]).trans hchecked
  · exact hchecked

theorem stateCb_entityTick (se : SupervisedEntity μ) (r : EntityReading ε) :
    (entityTick se r).stateCb = se.stateCb := by
  have hchecked := SupervisedEntity.stateCb_apply se (.checkAll r.check)
  unfold entityTick
  dsimp only
  split
  · exact (SupervisedEntity.stateCb_apply _ (.start r.restart)).trans hchecked
  · exact hchecked

section
variable {e : PhmEngine μ} {readings : Nat → EntityReading ε}

structure Ticked (readings : Nat → EntityReading ε) (refs : List Nat) (e f : PhmEngine μ) : Prop where
  same : f = { e with objects := f.objects, reported := f.reported }
  swept : Swept (fun ref se => entityTick se (readings ref)) refs e.objects f.objects

theorem ends_tickEntities (hfree : e.mutex = false) {refs : List Nat} (hnodup : refs.Nodup) :
    Ends (tickEntities readings refs) e
      (fun _ f => Ticked readings refs e f ∧
        ∀ ref ∈ refs, ∀ se, e.objects[ref]? = some se → Completes se (readings ref))
      (fun _ => ∃ ref ∈ refs, ∃ se, e.objects[ref]? = some se ∧ ¬ Completes se (readings ref)) := by
  induction refs generalizing e with
  | nil => exact ⟨⟨rfl, .nil _ _⟩, by simp⟩
  | cons ref rest ih =>
    obtain ⟨hnot, hnodup'⟩ := List.nodup_cons.mp hnodup
    rw [tickEntities, ends_bind]
    cases hse : e.objects[ref]? with
    | none =>
      rw [tickEntity, ends_bind, ends_get, hse]
      refine (ih hfree hnodup').mono ?_ ?_
      · rintro _ f ⟨⟨hsame, hswept⟩, hall⟩
        exact ⟨⟨hsame, hswept.cons_none hse⟩, by simpa [hse] using hall⟩
      · rintro _ ⟨other, hmem, hfail⟩
        exact ⟨other, by simp [hmem], hfail⟩
    | some se =>
      refine (ends_tickEntity hfree hse (readings ref)).mono ?_ ?_
      · rintro _ f ⟨rfl, hcompletes⟩
        have hothers (other : Nat) (hmem : other ∈ rest) :
            (((e.collected (se.apply (.checkAll (readings ref).check)) (readings ref).nowMs).store ref
              (entityTick se (readings ref))).objects)[other]? = e.objects[other]? := by
          have hne : ref ≠ other := fun heq => hnot (heq ▸ hmem)
          exact List.getElem?_set_ne hne
        refine (ih (e := (e.collected (se.apply (.checkAll (readings ref).check))
          (readings ref).nowMs).store ref (entityTick se (readings ref))) hfree hnodup').mono ?_ ?_
        · rintro _ f ⟨⟨hsame, hswept⟩, hall⟩
          refine ⟨⟨?_, hswept.cons hnot hse⟩, ?_⟩
          · rw [hsame]
            rfl
          · intro other hmem t ht
            rcases List.mem_cons.mp hmem with rfl | hrest
            · obtain rfl : se = t := by simpa [hse] using ht
              exact hcompletes
            · exact hall other hrest t (by rw [hothers other hrest, ht])
        · rintro _ ⟨other, hmem, t, ht, hfail⟩
          exact ⟨other, by simp [hmem], t, by rw [← hothers other hmem, ht], hfail⟩
      · rintro x ⟨fault, hfault, rfl⟩
        refine ⟨ref, by simp, se, hse, ?_⟩
        rintro ⟨events, hok⟩
        rw [hfault] at hok
        cases hok

end

section
variable {e : PhmEngine μ}

theorem ends_tick (he : e.Ready) (hrun : e.running = true) (readings : Nat → EntityReading ε)
    (uptimeMs : Nat) :
    Ends (tick readings uptimeMs) e
      (fun _ f => f = { e with objects := f.objects, reported := f.reported, uptimeMs } ∧
        Swept (fun ref se => entityTick se (readings ref)) e.refs e.objects f.objects ∧
        ∀ ref ∈ e.refs, ∀ se, e.objects[ref]? = some se → Completes se (readings ref))
      (fun _ => ∃ ref ∈ e.refs, ∃ se, e.objects[ref]? = some se ∧ ¬ Completes se (readings ref)) := by
  have hlocked : ({ e with mutex := false } : PhmEngine μ) = e := by rw [← he.free]
  rw [tick, ends_bind, ends_get, if_pos hrun, ends_bind, ends_withLock_of_free he.free, ends_bind,
    ends_get, ends_pure, ends_bind]
  change Ends (tickEntities readings e.refs) { e with mutex := false } _ _
  rw [hlocked]
  refine (ends_tickEntities he.free he.registered.nodup_refs).mono ?_ (fun _ h => h)
  rintro _ f ⟨⟨hsame, hswept⟩, hall⟩
  rw [ends_modify]
  refine ⟨?_, hswept, hall⟩
  rw [hsame]

end

end PhmEngine

end PlatformHealth
