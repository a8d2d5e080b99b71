import PlatformHealth.Engine.Catalog
import Mathlib.Data.List.Nodup

namespace PlatformHealth

open LockDiscipline

abbrev Document := {result : ParseResult // (result.entities.map (·.name)).Nodup}

namespace Document

def entry (d : Document) (name : String) : Option SEConfig := entryOf d.val.entities name

def Keeps (d d' : Document) : Prop := d.val.entities ⊆ d'.val.entities

theorem entry_eq_some_iff (d : Document) {name : String} {cfg : SEConfig} :
    d.entry name = some cfg ↔ cfg ∈ d.val.entities ∧ cfg.name = name := by
  constructor
  · intro h
    exact ⟨List.mem_of_find?_eq_some h, by simpa using List.find?_some h⟩
  · rintro ⟨hmem, rfl⟩
    cases hentry : d.entry cfg.name with
    | none =>
      have hnot := List.find?_eq_none.mp hentry cfg hmem
      simp at hnot
    | some other =>
      have hother : other ∈ d.val.entities := List.mem_of_find?_eq_some hentry
      have hname : other.name = cfg.name := by simpa using List.find?_some hentry
      rw [List.inj_on_of_nodup_map d.property hother hmem hname]

theorem keeps_iff {d d' : Document} :
    d.Keeps d' ↔ ∀ name cfg, d.entry name = some cfg → d'.entry name = some cfg := by
  simp only [entry_eq_some_iff]
  constructor
  · rintro h name cfg ⟨hmem, hname⟩
    exact ⟨h hmem, hname⟩
  · intro h cfg hmem
    exact (h cfg.name cfg ⟨hmem, rfl⟩).1

end Document

structure Deployment (μ : Type) where
  engine : PhmEngine μ
  document : Document

namespace Deployment

open PhmEngine

variable {μ ε : Type} [IMonitor μ ε]

def reload (t : Deployment μ) (d : Document) : Deployment μ :=
  match reloadConfiguration (.ok d.val) t.engine with
  | .ok (true, e) => ⟨e, d⟩
  | .ok (false, e) => ⟨e, t.document⟩
  | .error _ => t

def Converged (t : Deployment μ) : Prop :=
  ∀ name, t.engine.configOf name = t.document.entry name

structure Loaded (t : Deployment μ) : Prop where
  ready : t.engine.Ready
  path : t.engine.configPath ≠ ""

section
variable {t : Deployment μ} {d : Document}

theorem reload_eq (h : t.Loaded) (d : Document) :
    t.reload d = ⟨t.engine.loaded t.engine.configPath d.val, d⟩ := by
  rw [reload, reloadConfiguration_eq h.ready.free h.path]

theorem Loaded.reload (h : t.Loaded) (d : Document) : (t.reload d).Loaded := by
  have hkeeps := keeps_loadConfiguration t.engine.configPath (.ok d.val) t.engine h.ready
  rw [LockDiscipline.Ends, loadConfiguration_eq h.ready.free] at hkeeps
  rw [reload_eq h]
  exact ⟨hkeeps, h.path⟩

theorem converged_reload_iff (h : t.Loaded) (hconv : t.Converged) :
    (t.reload d).Converged ↔ t.document.Keeps d := by
  have hafter (name : String) : (t.reload d).engine.configOf name =
      (t.document.entry name).or (d.entry name) := by
    rw [reload_eq h, configOf_loaded h.ready, hconv name]
    rfl
  have hdoc : (t.reload d).document = d := by rw [reload_eq h]
  rw [Document.keeps_iff]
  simp only [Converged, hafter, hdoc]
  constructor
  · intro hall name cfg hcfg
    rw [← hall name, hcfg, Option.some_or]
  · intro hkeeps name
    cases hcfg : t.document.entry name with
    | none => rw [Option.none_or]
    | some cfg => rw [hkeeps name cfg hcfg, Option.some_or]

end

theorem converged_iff {path : String} (hpath : path ≠ "") (c : PhmConfig) (d : Document)
    (ds : List Document) :
    ∃ e : PhmEngine μ, loadConfiguration path (.ok d.val) (new c) = .ok (true, e) ∧
      (Runs.Always reload Converged ⟨e, d⟩ ds ↔
        Runs.Each reload (fun t d' => t.document.Keeps d') ⟨e, d⟩ ds) := by
  have hnew : (new c : PhmEngine μ).Ready := ⟨rfl, registered_new c⟩
  have hkeeps := keeps_loadConfiguration path (.ok d.val) (new c : PhmEngine μ) hnew
  rw [LockDiscipline.Ends, loadConfiguration_eq hnew.free] at hkeeps
  refine ⟨_, loadConfiguration_eq hnew.free path d.val, ?_⟩
  refine Runs.always_iff_each (I := Loaded) (fun t d' h hconv => converged_reload_iff h hconv)
    (fun t d' h => h.reload d') ⟨hkeeps, hpath⟩ ?_
  intro name
  rw [configOf_loaded hnew]
  simp [configOf, named, new, Document.entry]

theorem added_entity_converges :
    let d : Document := ⟨{ entities := [{ name := "a" }] }, by decide⟩
    let d' : Document := ⟨{ entities := [{ name := "b" }, { name := "a" }] }, by decide⟩
    ∃ e : PhmEngine ReportingMonitor,
      loadConfiguration "/etc/phm/se_config.json" (.ok d.val) (new {}) = .ok (true, e) ∧
        Runs.Always reload Converged ⟨e, d⟩ [d', d'] := by
  intro d d'
  have hpath : "/etc/phm/se_config.json" ≠ "" := by decide
  obtain ⟨e, hload, hiff⟩ := converged_iff (μ := ReportingMonitor) hpath {} d [d', d']
  have hdoc : (reload ⟨e, d⟩ d').document = d' := by
    rw [show e = _ from (Prod.mk.inj (Except.ok.inj hload)).2.symm]
    rfl
  refine ⟨e, hload, hiff.mpr ⟨List.subset_cons_self _ _, ?_, trivial⟩⟩
  change (reload ⟨e, d⟩ d').document.Keeps d'
  rw [hdoc]
  exact fun _ h => h

theorem reload_keeps_old_settings :
    let d : Document := ⟨{ entities := [{ name := "a" }, { name := "b" }] }, by decide⟩
    let d' : Document := ⟨{ entities := [{ name := "a", autoRestart := true }] }, by decide⟩
    ∃ e f : PhmEngine ReportingMonitor,
      loadConfiguration "/etc/phm/se_config.json" (.ok d.val) (new {}) = .ok (true, e) ∧
        reloadConfiguration (.ok d'.val) e = .ok (true, f) ∧
        (f.configOf "a").map (·.autoRestart) = some false ∧ (f.configOf "b").isSome = true ∧
        ¬ Converged ⟨f, d'⟩ := by
  intro d d'
  refine ⟨_, _, rfl, rfl, rfl, rfl, ?_⟩
  intro h
  have hb := congrArg Option.isSome (h "b")
  exact Bool.noConfusion hb

end Deployment

end PlatformHealth
