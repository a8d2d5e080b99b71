import PlatformHealth.Engine.Callbacks
import PlatformHealth.Engine.PhmEngine

namespace PlatformHealth

open LockDiscipline

namespace PhmEngine

variable {μ ε : Type} [IMonitor μ ε]

section
variable {xs ys zs : List (SupervisedEntity μ)}

def Evolves (xs ys : List (SupervisedEntity μ)) : Prop :=
  ∀ (ref : Nat) (se : SupervisedEntity μ), xs[ref]? = some se →
    ∃ se' : SupervisedEntity μ, ys[ref]? = some se' ∧ se'.config = se.config ∧
      (se.stateCb = true → se'.stateCb = true)

theorem Evolves.refl (xs : List (SupervisedEntity μ)) : Evolves xs xs :=
  fun _ se h => ⟨se, h, rfl, id⟩

theorem Evolves.trans (hxy : Evolves xs ys) (hyz : Evolves ys zs) : Evolves xs zs := by
  intro ref se h
  obtain ⟨se', h', hcfg, hcb⟩ := hxy ref se h
  obtain ⟨se'', h'', hcfg', hcb'⟩ := hyz ref se' h'
  exact ⟨se'', h'', hcfg'.trans hcfg, fun hse => hcb' (hcb hse)⟩

theorem Evolves.set (hxy : Evolves xs ys) {ref : Nat} {se se' : SupervisedEntity μ}
    (h : xs[ref]? = some se) (hcfg : se'.config = se.config)
    (hcb : se.stateCb = true → se'.stateCb = true) : Evolves xs (ys.set ref se') := by
  intro other t ht
  obtain ⟨t', ht', hrest⟩ := hxy other t ht
  rcases eq_or_ne ref other with rfl | hne
  · obtain rfl : se = t := by simpa [h] using ht
    have hlt := (List.getElem?_eq_some_iff.mp ht').1
    exact ⟨se', by simp [hlt], hcfg, hcb⟩
  · exact ⟨t', by rw [List.getElem?_set_ne hne, ht'], hrest⟩

theorem evolves_modify (xs : List (SupervisedEntity μ)) (ref : Nat)
    {f : SupervisedEntity μ → SupervisedEntity μ} (hcfg : ∀ se, (f se).config = se.config)
    (hcb : ∀ se, (f se).stateCb = se.stateCb) : Evolves xs (xs.modify ref f) := by
  intro other se hse
  rcases eq_or_ne ref other with rfl | hne
  · exact ⟨f se, by simp [hse], hcfg se, fun h => (hcb se).trans h⟩
  · exact ⟨se, by simp [hne, hse], rfl, id⟩

theorem evolves_append (xs : List (SupervisedEntity μ)) (se : SupervisedEntity μ) :
    Evolves xs (xs ++ [se]) := by
  intro ref t ht
  have hlt := (List.getElem?_eq_some_iff.mp ht).1
  exact ⟨t, by rw [List.getElem?_append_left hlt, ht], rfl, id⟩

theorem evolves_stopAll (refs : List Nat) (xs : List (SupervisedEntity μ)) :
    Evolves xs (stopAll refs xs) := by
  induction refs generalizing xs with
  | nil => exact .refl xs
  | cons ref rest ih =>
    have hstop : Evolves xs (xs.modify ref SupervisedEntity.stop) :=
      evolves_modify xs ref (fun _ => rfl) (fun _ => rfl)
    exact hstop.trans (ih _)

end

def Registered (e : PhmEngine μ) : Prop :=
  ∀ (name : String) (ref : Nat), e.entities[name]? = some ref →
    ∃ se, e.objects[ref]? = some se ∧ se.config.name = name ∧ se.stateCb = true

theorem Registered.evolves {e f : PhmEngine μ} (h : e.Registered) (hobj : Evolves e.objects f.objects)
    (hent : f.entities = e.entities) : f.Registered := by
  intro name ref href
  rw [hent] at href
  obtain ⟨se, hse, hname, hcb⟩ := h name ref href
  obtain ⟨se', hse', hcfg, hcb'⟩ := hobj ref se hse
  exact ⟨se', hse', by rw [hcfg, hname], hcb' hcb⟩

theorem Registered.insert {e : PhmEngine μ} (h : e.Registered) {name : String} {ref : Nat}
    {se : SupervisedEntity μ} (hse : e.objects[ref]? = some se) (hname : se.config.name = name)
    (hcb : se.stateCb = true) : Registered { e with entities := e.entities.insert name ref } := by
  intro other r hr
  rw [Std.ExtTreeMap.getElem?_insert] at hr
  split at hr
  · next heq =>
    obtain rfl : ref = r := by simpa using hr
    exact ⟨se, hse, by simpa [hname] using heq, hcb⟩
  · exact h other r hr

theorem Registered.erase {e : PhmEngine μ} (h : e.Registered) (name : String) :
    Registered { e with entities := e.entities.erase name } := by
  intro other ref href
  rw [Std.ExtTreeMap.getElem?_erase] at href
  split at href
  · cases href
  · exact h other ref href

theorem registered_new (cfg : PhmConfig) : (new cfg : PhmEngine μ).Registered := by
  intro name ref href
  simp [new] at href

theorem Registered.nodup_refs {e : PhmEngine μ} (h : e.Registered) : e.refs.Nodup := by
  have hkeys := e.entities.distinct_keys_toList
  rw [refs, List.Nodup, List.pairwise_map]
  refine hkeys.imp_of_mem ?_
  rintro ⟨name, ref⟩ ⟨name', ref'⟩ hmem hmem' hne heq
  obtain rfl : ref = ref' := heq
  obtain ⟨se, hse, hname, -⟩ := h name ref (by simpa using hmem)
  obtain ⟨se', hse', hname', -⟩ := h name' ref (by simpa using hmem')
  obtain rfl : se = se' := by simpa [hse] using hse'
  exact hne (by simp [← hname, ← hname'])

theorem mem_refs {e : PhmEngine μ} {ref : Nat} :
    ref ∈ e.refs ↔ ∃ name : String, e.entities[name]? = some ref := by
  simp [refs]

theorem Registered.exists_of_mem_refs {e : PhmEngine μ} (h : e.Registered) {ref : Nat}
    (href : ref ∈ e.refs) : ∃ se, e.objects[ref]? = some se ∧ se.stateCb = true := by
  obtain ⟨name, hname⟩ := mem_refs.mp href
  obtain ⟨se, hse, -, hcb⟩ := h name ref hname
  exact ⟨se, hse, hcb⟩

end PhmEngine

end PlatformHealth
