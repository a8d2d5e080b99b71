import PlatformHealth.Engine.Steps

namespace PlatformHealth

open LockDiscipline

namespace PhmEngine

variable {μ ε : Type} [IMonitor μ ε]

def entitySamples (r : EntityReading ε) (se : SupervisedEntity μ) : List DataRecord :=
  let checked := se.apply (.checkAll r.check)
  checked.monitors.map (record checked r.nowMs)

def samplesOf (readings : Nat → EntityReading ε) (objects : List (SupervisedEntity μ)) (refs : List Nat) :
    List DataRecord :=
  refs.flatMap fun ref => objects[ref]?.elim [] (entitySamples (readings ref))

def sampled (e : PhmEngine μ) : EngineStep μ ε → List DataRecord
  | .tick readings _ => if e.running then samplesOf readings e.objects e.refs else []
  | _ => []

def samples : List (EngineStep μ ε) → PhmEngine μ → List DataRecord
  | [], _ => []
  | s :: rest, e =>
    e.sampled s ++
      match exec s e with
      | .ok out => samples rest out.2
      | .error _ => []

section
variable {e f : PhmEngine μ} {readings : Nat → EntityReading ε} {refs : List Nat}

theorem samplesOf_set {ref : Nat} (hnot : ref ∉ refs) (objects : List (SupervisedEntity μ))
    (se : SupervisedEntity μ) : samplesOf readings (objects.set ref se) refs = samplesOf readings objects refs := by
  refine List.flatMap_congr fun other hmem => ?_
  have hne : ref ≠ other := fun heq => hnot (heq ▸ hmem)
  rw [List.getElem?_set_ne hne]

theorem reported_tickEntities (hfree : e.mutex = false) (hnodup : refs.Nodup) :
    Ends (tickEntities readings refs) e
      (fun _ f => f.reported = e.reported ++ samplesOf readings e.objects refs) (fun _ => True) := by
  induction refs generalizing e with
  | nil => exact (List.append_nil _).symm
  | cons ref rest ih =>
    obtain ⟨hnot, hnodup'⟩ := List.nodup_cons.mp hnodup
    rw [tickEntities, ends_bind, samplesOf, List.flatMap_cons, ← samplesOf]
    cases hse : e.objects[ref]? with
    | none =>
      rw [tickEntity, ends_bind, ends_get, hse]
      exact ih hfree hnodup'
    | some se =>
      refine (ends_tickEntity hfree hse (readings ref)).mono ?_ (fun _ _ => trivial)
      rintro _ f ⟨rfl, -⟩
      refine (ih (e := (e.collected (se.apply (.checkAll (readings ref).check)) (readings ref).nowMs).store ref
        (entityTick se (readings ref))) hfree hnodup').mono ?_ (fun _ h => h)
      intro _ f hf
      rw [hf, ← List.append_assoc]
      congr 1
      exact samplesOf_set hnot _ _

theorem reported_tick (he : e.Ready) (readings : Nat → EntityReading ε) (uptimeMs : Nat) :
    Ends (tick readings uptimeMs) e
      (fun _ f => f.reported = e.reported ++ e.sampled (.tick readings uptimeMs)) (fun _ => True) := by
  have hlocked : ({ e with mutex := false } : PhmEngine μ) = e := by rw [← he.free]
  rw [tick, ends_bind, ends_get, sampled]
  split
  · rw [ends_bind, ends_withLock_of_free he.free, ends_bind, ends_get, ends_pure, ends_bind]
    change Ends (tickEntities readings e.refs) { e with mutex := false } _ _
    rw [hlocked]
    exact (reported_tickEntities he.free he.registered.nodup_refs).mono (fun _ _ h => h) (fun _ h => h)
  · exact (List.append_nil _).symm

theorem reported_added (e : PhmEngine μ) (cfg : SEConfig) : (e.added cfg).reported = e.reported := by
  unfold added
  split <;> rfl

theorem reported_loaded (e : PhmEngine μ) (path : String) (result : ParseResult) :
    (e.loaded path result).reported = e.reported :=
  Runs.run_eq_of_each (fun f : PhmEngine μ => f.reported) result.entities
    (fun f cfg _ => reported_added f cfg) { e with config := result.global }

theorem reported_of_change {s : EngineStep μ ε} (h : Change e s f)
    (hs : ∀ readings uptimeMs, s ≠ .tick readings uptimeMs) : f.reported = e.reported := by
  cases h with
  | inert _ => rfl
  | added cfg => exact reported_added e cfg
  | enrolled ref =>
    unfold enrolled
    split
    · rfl
    · split <;> rfl
  | removed name =>
    unfold removed
    split <;> rfl
  | loaded path result => exact reported_loaded e path result
  | reloaded result _ => exact reported_loaded e e.configPath result
  | started readings objects _ _ => rfl
  | stopped =>
    unfold stopped
    split <;> rfl
  | calledBack installed => rfl
  | ticked readings uptimeMs objects reported _ _ => exact absurd rfl (hs readings uptimeMs)
  | shared cfg => rfl
  | used op hse => rfl

theorem reported_of_exec (he : e.Ready) {s : EngineStep μ ε} (h : exec s e = .ok ((), f)) :
    f.reported = e.reported ++ e.sampled s := by
  have hquiet (hs : ∀ readings uptimeMs, s ≠ .tick readings uptimeMs) (hnone : e.sampled s = []) :
      f.reported = e.reported ++ e.sampled s := by
    rw [hnone, List.append_nil]
    exact reported_of_change (effect_of_exec he h).change hs
  cases s with
  | tick readings uptimeMs =>
    have hends := reported_tick he readings uptimeMs
    change tick readings uptimeMs e = _ at h
    rw [Ends, h] at hends
    exact hends
  | call op => exact hquiet (by simp) rfl
  | makeShared cfg => exact hquiet (by simp) rfl
  | useEntity ref op => exact hquiet (by simp) rfl

theorem reported_of_execAll {steps : List (EngineStep μ ε)} (he : Reachable e)
    (h : execAll steps e = .ok ((), f)) : f.reported = e.reported ++ samples steps e := by
  induction steps generalizing e with
  | nil =>
    cases h
    exact (List.append_nil _).symm
  | cons s rest ih =>
    change (exec s e >>= fun out => PhmEngine.execAll rest out.2) = _ at h
    cases hs : exec s e with
    | error x =>
      rw [hs] at h
      cases h
    | ok out =>
      rw [hs] at h
      rw [ih (he.step s hs) h, reported_of_exec he.ready hs, samples, hs, List.append_assoc]

theorem dataDir_of_execAll {steps : List (EngineStep μ ε)} (he : Reachable e)
    (h : execAll steps e = .ok ((), f)) : f.dataDir = e.dataDir := by
  induction steps generalizing e with
  | nil =>
    cases h
    rfl
  | cons s rest ih =>
    change (exec s e >>= fun out => PhmEngine.execAll rest out.2) = _ at h
    cases hs : exec s e with
    | error x =>
      rw [hs] at h
      cases h
    | ok out =>
      rw [hs] at h
      rw [ih (he.step s hs) h, (effect_of_exec he.ready hs).frame.dataDir]

end

end PhmEngine

end PlatformHealth
