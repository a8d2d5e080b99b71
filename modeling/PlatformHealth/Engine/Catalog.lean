import PlatformHealth.Engine.Steps

namespace PlatformHealth

open LockDiscipline

def entryOf (cfgs : List SEConfig) (name : String) : Option SEConfig :=
  cfgs.find? fun cfg => cfg.name = name

namespace PhmEngine

variable {μ ε : Type} [IMonitor μ ε]

def configOf (e : PhmEngine μ) (name : String) : Option SEConfig :=
  (e.named name).map (·.config)

section
variable {e : PhmEngine μ}

theorem Ready.added (h : e.Ready) (cfg : SEConfig) : (e.added cfg).Ready := by
  have hkeeps := keeps_addSupervisedEntity cfg e h
  rwa [Ends, addSupervisedEntity_eq h.free] at hkeeps

theorem Registered.named (h : e.Registered) {name : String} {ref : Nat}
    (href : e.entities[name]? = some ref) :
    ∃ se, e.objects[ref]? = some se ∧ e.named name = some se := by
  obtain ⟨se, hse, -, -⟩ := h name ref href
  exact ⟨se, hse, by rw [PhmEngine.named, href]; exact hse⟩

theorem configOf_isSome (h : e.Registered) (name : String) :
    (e.configOf name).isSome = e.entities.contains name := by
  rw [Std.ExtTreeMap.contains_eq_isSome_getElem?]
  cases href : e.entities[name]? with
  | none => simp [configOf, PhmEngine.named, href]
  | some ref =>
    obtain ⟨se, -, hse⟩ := h.named href
    simp [configOf, hse]

theorem configOf_of_evolves {f : PhmEngine μ} (h : e.Registered) (hobj : Evolves e.objects f.objects)
    (hent : f.entities = e.entities) (name : String) : f.configOf name = e.configOf name := by
  cases href : e.entities[name]? with
  | none => simp [configOf, PhmEngine.named, hent, href]
  | some ref =>
    obtain ⟨se, hse, -⟩ := h.named href
    obtain ⟨se', hse', hcfg, -⟩ := hobj ref se hse
    simp [configOf, PhmEngine.named, hent, href, hse, hse', hcfg]

theorem configOf_of_known (h : e.Registered) {cfg : SEConfig} (hknown : e.entities.contains cfg.name = true)
    (name : String) : e.configOf name = (e.configOf name).or (entryOf [cfg] name) := by
  by_cases hname : cfg.name = name
  · subst hname
    rw [← configOf_isSome h, Option.isSome_iff_exists] at hknown
    obtain ⟨old, hold⟩ := hknown
    rw [hold, Option.some_or]
  · simp [entryOf, hname]

theorem configOf_insert (h : e.Registered) {ref : Nat} {se : SupervisedEntity μ}
    (hse : e.objects[ref]? = some se) (hnew : e.entities.contains se.config.name = false) (name : String) :
    configOf { e with entities := e.entities.insert se.config.name ref } name =
      (e.configOf name).or (entryOf [se.config] name) := by
  by_cases hname : se.config.name = name
  · subst hname
    have hnone : e.configOf se.config.name = none := by
      rw [← Option.isNone_iff_eq_none, ← Option.not_isSome, configOf_isSome h, hnew]
      rfl
    rw [hnone]
    simp [configOf, PhmEngine.named, entryOf, hse]
  · simp [configOf, PhmEngine.named, entryOf, Std.ExtTreeMap.getElem?_insert, hname]

theorem configOf_added (h : e.Registered) (cfg : SEConfig) (name : String) :
    (e.added cfg).configOf name = (e.configOf name).or (entryOf [cfg] name) := by
  unfold added
  split
  · next hknown => exact configOf_of_known h hknown name
  · next hnew =>
    have hgrown : Registered { e with
        objects := e.objects ++ [{ SupervisedEntity.new cfg with stateCb := true }] } :=
      h.evolves (evolves_append _ _) rfl
    have hnamed : (e.objects ++ [{ SupervisedEntity.new cfg with stateCb := true }])[e.objects.length]? =
        some ({ SupervisedEntity.new cfg with stateCb := true } : SupervisedEntity μ) := by simp
    rw [← configOf_of_evolves (f := { e with
      objects := e.objects ++ [{ SupervisedEntity.new cfg with stateCb := true }] }) h
      (evolves_append _ _) rfl name]
    exact configOf_insert hgrown hnamed (Bool.eq_false_iff.mpr hnew) name

theorem configOf_enrolled (h : e.Registered) {ref : Nat} {se : SupervisedEntity μ}
    (hse : e.objects[ref]? = some se) (name : String) :
    (e.enrolled ref).configOf name = (e.configOf name).or (entryOf [se.config] name) := by
  rw [enrolled, hse]
  dsimp only
  split
  · next hknown => exact configOf_of_known h hknown name
  · next hnew =>
    have hset : Evolves e.objects (e.store ref { se with stateCb := true }).objects :=
      (Evolves.refl _).set hse rfl fun _ => rfl
    have hlt := (List.getElem?_eq_some_iff.mp hse).1
    have hstored : (e.store ref { se with stateCb := true }).objects[ref]? =
        some { se with stateCb := true } := List.getElem?_set_self hlt
    rw [← configOf_of_evolves h hset rfl name]
    exact configOf_insert (h.evolves hset rfl) hstored (Bool.eq_false_iff.mpr hnew) name

theorem configOf_removed (h : e.Registered) (removed name : String) :
    (e.removed removed).configOf name = if removed = name then none else e.configOf name := by
  unfold PhmEngine.removed
  split
  · next hnone =>
    split
    · next heq =>
      subst heq
      simp [configOf, PhmEngine.named, hnone]
    · rfl
  · next ref href =>
    have hstop : Evolves e.objects (e.objects.modify ref SupervisedEntity.stop) :=
      evolves_modify _ _ (fun _ => rfl) (fun _ => rfl)
    rw [← configOf_of_evolves (f := { e with objects := e.objects.modify ref SupervisedEntity.stop })
      h hstop rfl name]
    by_cases hname : removed = name <;>
      simp [configOf, PhmEngine.named, Std.ExtTreeMap.getElem?_erase, hname]

theorem configOf_addAll (h : e.Ready) (cfgs : List SEConfig) (name : String) :
    (Runs.run PhmEngine.added e cfgs).configOf name = (e.configOf name).or (entryOf cfgs name) := by
  induction cfgs generalizing e with
  | nil => simp [entryOf]
  | cons cfg rest ih =>
    have hcons : entryOf (cfg :: rest) name = (entryOf [cfg] name).or (entryOf rest name) := by
      by_cases hname : cfg.name = name <;> simp [entryOf, hname]
    rw [Runs.run_cons, ih (h.added cfg), configOf_added h.registered, hcons, Option.or_assoc]

theorem configOf_loaded (h : e.Ready) (path : String) (result : ParseResult) (name : String) :
    (e.loaded path result).configOf name = (e.configOf name).or (entryOf result.entities name) := by
  have hready : Ready { e with config := result.global } := h.evolves (.refl _) rfl h.free
  exact configOf_addAll hready result.entities name

def incoming (e : PhmEngine μ) : EngineStep μ ε → List SEConfig
  | .call (.addSupervisedEntity cfg) => [cfg]
  | .call (.registerEntity (some ref)) => (e.objects[ref]?.map (·.config)).toList
  | .call (.loadConfiguration _ (.ok result)) => result.entities
  | .call (.reloadConfiguration (.ok result)) => if e.configPath = "" then [] else result.entities
  | _ => []

omit [IMonitor μ ε] in
theorem Inert.incoming {s : EngineStep μ ε} (h : Inert e s) : e.incoming s = [] := by
  cases s with
  | call op =>
    cases op with
    | addSupervisedEntity cfg => exact h.elim
    | registerEntity entity =>
      obtain rfl : entity = none := h
      rfl
    | loadConfiguration path parsed =>
      obtain ⟨what, rfl⟩ := h
      rfl
    | reloadConfiguration parsed =>
      rcases h with ⟨what, rfl⟩ | hpath
      · rfl
      · cases parsed <;> simp [PhmEngine.incoming, hpath]
    | _ => rfl
  | _ => rfl

theorem Effect.configOf {f : PhmEngine μ} {s : EngineStep μ ε} (he : e.Ready) (h : Effect s e f) :
    (∃ removed, s = .call (.removeEntity removed) ∧
        ∀ name, f.configOf name = if removed = name then none else e.configOf name) ∨
      ∀ name, f.configOf name = (e.configOf name).or (entryOf (e.incoming s) name) := by
  have hkept (hent : f.entities = e.entities) (hnone : e.incoming s = []) (name : String) :
      f.configOf name = (e.configOf name).or (entryOf (e.incoming s) name) := by
    rw [configOf_of_evolves he.registered h.evolves hent, hnone]
    exact (Option.or_none).symm
  cases h.change with
  | inert hinert => exact .inr (hkept rfl hinert.incoming)
  | added cfg => exact .inr (configOf_added he.registered cfg)
  | enrolled ref =>
    cases hse : e.objects[ref]? with
    | none => exact .inr (hkept (by simp [enrolled, hse]) (by simp [incoming, hse]))
    | some se =>
      have hin : e.incoming (.call (.registerEntity (some ref)) : EngineStep μ ε) = [se.config] := by
        simp [incoming, hse]
      exact .inr fun name => hin ▸ configOf_enrolled he.registered hse name
  | removed name => exact .inl ⟨name, rfl, configOf_removed he.registered name⟩
  | loaded path result => exact .inr (configOf_loaded he path result)
  | reloaded result hpath =>
    have hin : e.incoming (.call (.reloadConfiguration (.ok result)) : EngineStep μ ε) =
        result.entities := by simp [incoming, hpath]
    exact .inr fun name => hin ▸ configOf_loaded he e.configPath result name
  | stopped =>
    refine .inr (hkept ?_ rfl)
    unfold PhmEngine.stopped
    split <;> rfl
  | _ => exact .inr (hkept rfl rfl)

end

end PhmEngine

end PlatformHealth
