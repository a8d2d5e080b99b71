import PlatformHealth.Engine.Isolation

namespace PlatformHealth

open LockDiscipline

inductive LoopStep (ε : Type) where
  | snapshot
  | visit (r : EntityReading ε)
  | removeEntity (name : String)

inductive LoopEvent where
  | removed (ref : Nat)
  | checked (ref : Nat)
  | started (ref : Nat)
deriving DecidableEq

-- snapshot is what the iteration still has to visit; an exception in the loop's thread
-- takes the process down
structure TickLoop (μ : Type) where
  engine : PhmEngine μ
  snapshot : List Nat := []
  events : List LoopEvent := []
  halted : Bool := false

namespace TickLoop

open PhmEngine

variable {μ ε : Type} [IMonitor μ ε]

def step (t : TickLoop μ) (s : LoopStep ε) : TickLoop μ :=
  if t.halted then t
  else
    match s with
    | .snapshot =>
      if t.snapshot = [] && t.engine.running then { t with snapshot := t.engine.refs } else t
    | .visit r =>
      match t.snapshot with
      | [] => t
      | ref :: rest =>
        match t.engine.objects[ref]? with
        | none => { t with snapshot := rest }
        | some se =>
          match tickEntity ref r t.engine with
          | .ok (_, f) =>
            { t with
              engine := f
              snapshot := rest
              events := t.events ++ .checked ref :: if restarts se r then [.started ref] else [] }
          | .error _ => { t with events := t.events ++ [.checked ref], halted := true }
    | .removeEntity name =>
      match removeEntity name t.engine with
      | .ok (true, f) =>
        { t with engine := f, events := t.events ++ (t.engine.entities[name]?.map .removed).toList }
      | .ok (false, f) => { t with engine := f }
      | .error _ => { t with halted := true }

def Undisturbed (x y : LoopEvent) : Prop :=
  ∀ ref, x = .removed ref → y ≠ .checked ref ∧ y ≠ .started ref

def StaysRemoved (t : TickLoop μ) : Prop := t.events.Pairwise Undisturbed

-- the entity is not among those the current iteration still has to visit
def RemovedOutside (t : TickLoop μ) (s : LoopStep ε) : Prop :=
  ∀ name ref, s = .removeEntity name → t.engine.entities[name]? = some ref → ref ∉ t.snapshot

structure Gone (t : TickLoop μ) : Prop where
  ready : t.engine.Ready
  gone : ∀ ref, .removed ref ∈ t.events → ref ∉ t.engine.refs ∧ ref ∉ t.snapshot
  safe : t.StaysRemoved

section
variable {t : TickLoop μ} {e f : PhmEngine μ}

theorem refs_removed (he : e.Ready) {name : String} {ref : Nat} (href : e.entities[name]? = some ref) :
    ref ∉ (e.removed name).refs ∧ ∀ r, r ∈ (e.removed name).refs → r ∈ e.refs := by
  have hent : (e.removed name).entities = e.entities.erase name := by
    simp only [removed, href]
  constructor
  · intro hmem
    obtain ⟨other, hother⟩ := mem_refs.mp hmem
    rw [hent, Std.ExtTreeMap.getElem?_erase] at hother
    split at hother
    · cases hother
    · next hne =>
      obtain ⟨se, hse, hname, -⟩ := he.registered name ref href
      obtain ⟨se', hse', hother', -⟩ := he.registered other ref hother
      obtain rfl : se = se' := Option.some.inj (hse.symm.trans hse')
      exact hne (by simp [← hname, ← hother'])
  · intro r hmem
    obtain ⟨other, hother⟩ := mem_refs.mp hmem
    rw [hent, Std.ExtTreeMap.getElem?_erase] at hother
    split at hother
    · cases hother
    · exact mem_refs.mpr ⟨other, hother⟩

theorem pairwise_append_undisturbed {xs ys : List LoopEvent} (hxs : xs.Pairwise Undisturbed)
    (hys : ys.Pairwise Undisturbed)
    (h : ∀ ref, .removed ref ∈ xs → .checked ref ∉ ys ∧ .started ref ∉ ys) :
    (xs ++ ys).Pairwise Undisturbed := by
  refine List.pairwise_append.mpr ⟨hxs, hys, ?_⟩
  rintro x hx y hy ref rfl
  obtain ⟨hchecked, hstarted⟩ := h ref hx
  exact ⟨fun heq => hchecked (heq ▸ hy), fun heq => hstarted (heq ▸ hy)⟩

theorem Gone.snapshot (h : t.Gone) : (t.step (.snapshot : LoopStep ε)).Gone := by
  unfold step
  split
  · exact h
  · dsimp only
    split
    · exact ⟨h.ready, fun ref href => ⟨(h.gone ref href).1, (h.gone ref href).1⟩, h.safe⟩
    · exact h

theorem pairwise_visited (ref : Nat) (restarted : Bool) :
    (LoopEvent.checked ref :: if restarted then [.started ref] else []).Pairwise Undisturbed := by
  cases restarted <;> simp [Undisturbed]

theorem Gone.visit (h : t.Gone) (r : EntityReading ε) : (t.step (.visit r)).Gone := by
  unfold step
  split
  · exact h
  dsimp only
  cases hsnap : t.snapshot with
  | nil => exact h
  | cons ref rest =>
    have hkept : ∀ other, .removed other ∈ t.events →
        other ∉ t.engine.refs ∧ other ≠ ref ∧ other ∉ rest := by
      intro other hother
      obtain ⟨hrefs, hleft⟩ := h.gone other hother
      rw [hsnap, List.mem_cons, not_or] at hleft
      exact ⟨hrefs, hleft⟩
    dsimp only
    cases hse : t.engine.objects[ref]? with
    | none => exact ⟨h.ready, fun other hother => ⟨(hkept other hother).1, (hkept other hother).2.2⟩, h.safe⟩
    | some se =>
      dsimp only
      have hends := ends_tickEntity h.ready.free hse r
      have hready := tickEntity_keeps h.ready ref r
      rw [Ends] at hends hready
      cases htick : tickEntity ref r t.engine with
      | error fault =>
        dsimp only
        refine ⟨h.ready, ?_, ?_⟩
        · intro other hother
          have hold : .removed other ∈ t.events := by simpa using hother
          obtain ⟨hrefs, hne, hrest⟩ := hkept other hold
          exact ⟨hrefs, by simp [hne, hrest]⟩
        · refine pairwise_append_undisturbed h.safe (List.pairwise_singleton ..) ?_
          intro other hother
          simpa using (hkept other hother).2.1
      | ok out =>
        obtain ⟨⟨⟩, f⟩ := out
        rw [htick] at hends hready
        obtain ⟨rfl, -⟩ := hends
        dsimp only
        refine ⟨hready, ?_, ?_⟩
        · intro other hother
          have hold : .removed other ∈ t.events := by
            cases hrestart : restarts se r <;> simpa [hrestart] using hother
          exact ⟨(hkept other hold).1, (hkept other hold).2.2⟩
        · refine pairwise_append_undisturbed h.safe (pairwise_visited ref _) ?_
          intro other hother
          have hne := (hkept other hother).2.1
          cases restarts se r <;> simpa using hne

theorem Gone.removeEntity (h : t.Gone) (name : String)
    (houtside : t.RemovedOutside (.removeEntity name : LoopStep ε)) :
    (t.step (.removeEntity name : LoopStep ε)).Gone := by
  unfold step
  split
  · exact h
  dsimp only
  have hends := ends_removeEntity h.ready.free name
  have hready := keeps_removeEntity name t.engine h.ready
  rw [Ends] at hends hready
  have hrefs : ∀ other, other ∉ t.engine.refs → other ∉ (t.engine.removed name).refs := by
    intro other hother
    cases href : t.engine.entities[name]? with
    | none => rwa [removed, href]
    | some ref => exact fun hmem => hother ((refs_removed h.ready href).2 other hmem)
  cases hremove : PhmEngine.removeEntity name t.engine with
  | error fault =>
    rw [hremove] at hends
    exact hends.elim
  | ok out =>
    obtain ⟨found, f⟩ := out
    rw [hremove] at hends hready
    obtain rfl : f = t.engine.removed name := hends
    cases found with
    | false =>
      exact ⟨hready, fun other hother => ⟨hrefs other (h.gone other hother).1, (h.gone other hother).2⟩, h.safe⟩
    | true =>
      refine ⟨hready, ?_, ?_⟩
      · intro other hother
        rcases List.mem_append.mp hother with hold | hnew
        · exact ⟨hrefs other (h.gone other hold).1, (h.gone other hold).2⟩
        · have href : t.engine.entities[name]? = some other := by simpa using hnew
          exact ⟨(refs_removed h.ready href).1, houtside name other rfl href⟩
      · refine pairwise_append_undisturbed h.safe ?_ ?_
        · cases t.engine.entities[name]? <;> simp
        · intro other _
          simp

theorem Gone.step (h : t.Gone) (s : LoopStep ε) (houtside : t.RemovedOutside s) : (t.step s).Gone := by
  cases s with
  | snapshot => exact h.snapshot
  | visit r => exact h.visit r
  | removeEntity name => exact h.removeEntity name houtside

theorem Gone.initial (he : Reachable e) : Gone { engine := e } where
  ready := he.ready
  gone := fun ref href => by cases href
  safe := List.Pairwise.nil

end

section
variable {t : TickLoop μ} {e f : PhmEngine μ}

theorem step_visit {ref : Nat} {rest : List Nat} (hhalted : t.halted = false)
    (hsnap : t.snapshot = ref :: rest) {r : EntityReading ε}
    (h : tickEntity ref r t.engine = .ok ((), f)) :
    (t.step (.visit r)).engine = f ∧ (t.step (.visit r)).snapshot = rest ∧
      (t.step (.visit r)).halted = false := by
  unfold step
  rw [if_neg (by simp [hhalted])]
  dsimp only
  rw [hsnap]
  dsimp only
  cases hse : t.engine.objects[ref]? with
  | none =>
    have hends : Ends (tickEntity ref r) t.engine (fun _ g => g = t.engine) (fun _ => False) := by
      rw [tickEntity, ends_bind, ends_get, hse]
      exact rfl
    rw [Ends, h] at hends
    exact ⟨hends.symm, rfl, hhalted⟩
  | some se =>
    rw [h]
    exact ⟨rfl, rfl, hhalted⟩

theorem ends_tickEntities_run (readings : Nat → EntityReading ε) {refs : List Nat}
    (hhalted : t.halted = false) (hsnap : t.snapshot = refs) :
    Ends (tickEntities readings refs) t.engine
      (fun _ f => f = (Runs.run step t (refs.map fun ref => .visit (readings ref))).engine)
      (fun _ => True) := by
  induction refs generalizing t with
  | nil => exact rfl
  | cons ref rest ih =>
    rw [tickEntities, ends_bind, Ends]
    cases hvisit : tickEntity ref (readings ref) t.engine with
    | error fault => exact trivial
    | ok out =>
      obtain ⟨⟨⟩, f⟩ := out
      obtain ⟨rfl, hrest, hgoes⟩ := step_visit hhalted hsnap hvisit
      exact ih hgoes hrest

theorem ends_tick_run (he : e.Ready) (hrun : e.running = true) (readings : Nat → EntityReading ε)
    (uptimeMs : Nat) :
    let steps := .snapshot :: e.refs.map fun ref => .visit (readings ref)
    Ends (tick readings uptimeMs) e
      (fun _ f => f = { (Runs.run step { engine := e } steps).engine with uptimeMs }) (fun _ => True) := by
  intro steps
  have hfirst : step { engine := e } (.snapshot : LoopStep ε) = { engine := e, snapshot := e.refs } := by
    simp [step, hrun]
  have hlocked : Lockable.setHeld false (Lockable.setHeld true e) = e := eq_of_unlocked he.free rfl
  rw [tick, ends_bind, ends_get, if_pos hrun, ends_bind, ends_withLock_of_free he.free, ends_bind,
    ends_get, ends_pure, ends_bind, hlocked, Runs.run_cons, hfirst]
  refine (ends_tickEntities_run (t := { engine := e, snapshot := e.refs }) readings rfl rfl).mono ?_
    (fun _ h => h)
  rintro _ f rfl
  exact rfl

theorem removeEntity_eq (hfree : e.mutex = false) {name : String} {ref : Nat}
    (href : e.entities[name]? = some ref) :
    PhmEngine.removeEntity name e = .ok (true, e.removed name) := by
  have hends : Ends (PhmEngine.removeEntity name) e (fun ok f => ok = true ∧ f = e.removed name)
      (fun _ => False) := by
    have hlocked : (Lockable.setHeld true e).entities[name]? = some ref := href
    rw [PhmEngine.removeEntity, ends_withLock_of_free hfree, ends_bind, ends_get]
    simp only [hlocked, removed, href]
    exact ⟨rfl, eq_of_unlocked hfree rfl⟩
  obtain ⟨_, f, hf, rfl, rfl⟩ := ends_ok_iff.mp hends
  exact hf

theorem events_visit {ref : Nat} {rest : List Nat} {se : SupervisedEntity μ} (hhalted : t.halted = false)
    (hsnap : t.snapshot = ref :: rest) (hse : t.engine.objects[ref]? = some se) (r : EntityReading ε) :
    t.events ++ [.checked ref] <+: (t.step (.visit r)).events := by
  unfold step
  rw [if_neg (by simp [hhalted])]
  dsimp only
  rw [hsnap]
  dsimp only
  rw [hse]
  dsimp only
  cases tickEntity ref r t.engine with
  | error fault => exact List.prefix_refl _
  | ok out => exact ⟨if restarts se r then [.started ref] else [], by simp⟩

theorem removed_inside {name : String} {ref : Nat} {rest : List Nat} (he : t.engine.Ready)
    (hhalted : t.halted = false) (hsnap : t.snapshot = ref :: rest)
    (href : t.engine.entities[name]? = some ref) (r : EntityReading ε) :
    ¬ StaysRemoved (Runs.run step t [.removeEntity name, .visit r]) := by
  let after : TickLoop μ :=
    { t with engine := t.engine.removed name, events := t.events ++ [.removed ref] }
  have hafter : t.step (.removeEntity name : LoopStep ε) = after := by
    unfold step
    rw [if_neg (by simp [hhalted])]
    dsimp only
    rw [removeEntity_eq he.free href, href]
    rfl
  obtain ⟨se, hse, -⟩ := he.registered name ref href
  have hstopped : after.engine.objects[ref]? = some se.stop := by
    simp [after, removed, href, hse]
  have hgoes : after.halted = false := hhalted
  have hchecked := events_visit hgoes hsnap hstopped r
  intro hsafe
  rw [Runs.run_cons, hafter] at hsafe
  have hpair := hsafe.sublist hchecked.sublist
  rw [List.append_assoc] at hpair
  have hfirst := List.rel_of_pairwise_cons (List.pairwise_append.mp hpair).2.1 (List.mem_cons_self ..)
  exact (hfirst ref rfl).1 rfl

end

theorem removed_stays_removed (e : PhmEngine μ) (he : Reachable e) (steps : List (LoopStep ε))
    (houtside : Runs.Each step RemovedOutside { engine := e } steps) :
    Runs.Always step StaysRemoved { engine := e } steps :=
  Runs.always_of_invariant (I := Gone) (fun _ s h hout => h.step s hout) (fun _ h => h.safe)
    (Gone.initial he) houtside

def restartable : List (EngineStep ReportingMonitor Report) :=
  [.makeShared { name := "se", autoRestart := true, monitors := [{ type := .custom, debounceCount := 1 }] },
    .useEntity 0 (.registerMonitor (some { type := .custom })),
    .useEntity 0 (.start fun _ => {}), .call (.registerEntity (some 0)), .call (.start fun _ _ => {})]

def reads (fault : Option FaultEvent) : EntityReading Report where
  check := fun _ => { fault }
  restart := fun _ => {}

theorem visited_removal_stays :
    let steps : List (LoopStep Report) := [.snapshot, .visit (reads none), .removeEntity "se"]
    ∃ e : PhmEngine ReportingMonitor, execAll restartable (new {}) = .ok ((), e) ∧ e.running = true ∧
      Runs.Always step StaysRemoved { engine := e } steps := by
  intro steps
  have hview : (execAll restartable (new {})).toOption.map (fun out => (out.2.running,
      (Runs.run step { engine := out.2 } (steps.take 2)).snapshot)) = some (true, []) := by
    decide +kernel
  obtain ⟨e, hexec, hview⟩ := exists_of_view (fun e => (e.running,
    (Runs.run step { engine := e } (steps.take 2)).snapshot)) hview
  simp only [Prod.mk.injEq] at hview
  obtain ⟨hrunning, hvisited⟩ := hview
  refine ⟨e, hexec, hrunning, removed_stays_removed e ((Reachable.new {}).execAll hexec) steps ⟨?_, ?_, ?_, trivial⟩⟩
  · rintro name ref hremove
    cases hremove
  · rintro name ref hremove
    cases hremove
  · rintro name ref - -
    change ref ∉ (Runs.run step { engine := e } (steps.take 2)).snapshot
    rw [hvisited]
    exact List.not_mem_nil

def fatalEvent : FaultEvent where
  event := { id := "f", severity := .fatal }
  faulty := by decide

theorem removed_entity_restarted :
    let steps : List (LoopStep Report) := [.snapshot, .removeEntity "se", .visit (reads (some fatalEvent))]
    ∃ e : PhmEngine ReportingMonitor, execAll restartable (new {}) = .ok ((), e) ∧ Reachable e ∧
      e.running = true ∧ e.entities["se"]? = some 0 ∧
      (Runs.run step { engine := e } steps).events = [.removed 0, .checked 0, .started 0] ∧
      ¬ Runs.Always step StaysRemoved { engine := e } steps := by
  intro steps
  have hview : (execAll restartable (new {})).toOption.map (fun out => (out.2.running,
      out.2.entities["se"]?, (Runs.run step { engine := out.2 } steps).events)) =
      some (true, some 0, [.removed 0, .checked 0, .started 0]) := by
    decide +kernel
  obtain ⟨e, hexec, hview⟩ := exists_of_view (fun e => (e.running, e.entities["se"]?,
    (Runs.run step { engine := e } steps).events)) hview
  simp only [Prod.mk.injEq] at hview
  obtain ⟨hrunning, hse, hevents⟩ := hview
  refine ⟨e, hexec, (Reachable.new {}).execAll hexec, hrunning, hse, hevents, ?_⟩
  intro h
  have hsafe := (Runs.always_iff_prefix _ _).mp h steps (List.prefix_refl steps)
  rw [StaysRemoved, hevents] at hsafe
  have hfirst := List.rel_of_pairwise_cons hsafe (List.mem_cons_self ..)
  exact (hfirst 0 rfl).1 rfl

end TickLoop

end PlatformHealth
