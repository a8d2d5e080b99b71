import PlatformHealth.Engine.Catalog
import PlatformHealth.Library.Precedence
import PlatformHealth.Library.TreeMap
import Mathlib.Data.List.Nodup
import Mathlib.Data.List.Perm.Subperm

namespace PlatformHealth

open LockDiscipline Precedence

namespace PhmEngine

variable {μ ε : Type} [IMonitor μ ε]

def startEntity (readings : Nat → Nat → ε) (ref : Nat) : EngineM μ Unit := do
  match (← get).objects[ref]? with
  | none => return
  | some se =>
    if se.config.enabled then
      let (se, _) ← se.start (stateCallback ref) (readings ref)
      modify (·.store ref se)

def enabledAt (e : PhmEngine μ) (ref : Nat) : Bool :=
  (e.objects[ref]?.map (·.config.enabled)).getD false

def startedNames (readings : Nat → Nat → ε) : List (String × Nat) → PhmEngine μ → List String
  | [], _ => []
  | entry :: rest, e =>
    let later :=
      match startEntity readings entry.2 e with
      | .ok (_, f) => startedNames readings rest f
      | .error _ => []
    if e.enabledAt entry.2 then entry.1 :: later else later

def startOrder (readings : Nat → Nat → ε) (e : PhmEngine μ) : List String :=
  if e.running then [] else startedNames readings e.entities.toList { e with mutex := true }

section
variable {readings : Nat → Nat → ε} {e f : PhmEngine μ} {ref : Nat} {entry : String × Nat}
  {rest : List (String × Nat)}

theorem startEntities_eq_forM (readings : Nat → Nat → ε) (refs : List Nat) :
    (startEntities readings refs : EngineM μ Unit) = refs.forM (startEntity readings) := by
  induction refs with
  | nil => rfl
  | cons ref rest ih =>
    rw [startEntities, ih, List.forM_eq_forM, List.forM_cons, startEntity, bind_assoc]
    refine congrArg (get >>= ·) (funext fun e => ?_)
    cases e.objects[ref]? with
    | none => rfl
    | some se =>
      dsimp only
      split <;> simp

theorem ends_startEntity (readings : Nat → Nat → ε) (hlock : e.mutex = true)
    (hcb : ∃ se, e.objects[ref]? = some se ∧ se.stateCb = true) :
    Ends (startEntity readings ref) e
      (fun _ f => ¬ Startable e readings ref ∧ f.mutex = true ∧
        ∀ other, ref ≠ other → f.objects[other]? = e.objects[other]?)
      (fun _ => Startable e readings ref) := by
  obtain ⟨se, hse, hsecb⟩ := hcb
  rw [startEntity, ends_bind, ends_get, hse]
  dsimp only
  cases henabled : se.config.enabled with
  | false =>
    refine ⟨?_, hlock, fun _ _ => rfl⟩
    rintro ⟨se', hse', henabled', -⟩
    obtain rfl : se = se' := by simpa [hse] using hse'
    exact Bool.false_ne_true (henabled.symm.trans henabled')
  | true =>
    rw [if_pos rfl, ends_bind]
    by_cases hlaunch : Launches se (readings ref)
    · exact (relock_of_launches hlock hsecb hlaunch).mono (fun _ _ h => h.elim)
        (fun _ _ => ⟨se, hse, henabled, hlaunch⟩)
    · refine (start_of_not_launches hlaunch).mono ?_ (fun _ h => h.elim)
      rintro ⟨se', ok⟩ f ⟨rfl, rfl⟩
      refine ⟨?_, hlock, fun other hne => List.getElem?_set_ne hne⟩
      rintro ⟨se', hse', -, hlaunch'⟩
      obtain rfl : se = se' := by simpa [hse] using hse'
      exact hlaunch hlaunch'

structure InLoop (e : PhmEngine μ) (entries : List (String × Nat)) : Prop where
  locked : e.mutex = true
  nodup : (entries.map Prod.snd).Nodup
  known : ∀ entry ∈ entries, ∃ se, e.objects[entry.2]? = some se ∧ se.stateCb = true

theorem startedNames_cases (readings : Nat → Nat → ε) (h : InLoop e (entry :: rest)) :
    (Startable e readings entry.2 ∧ startedNames readings (entry :: rest) e = [entry.1]) ∨
      (¬ Startable e readings entry.2 ∧ ∃ f, InLoop f rest ∧
        (∀ other ∈ rest, f.objects[other.2]? = e.objects[other.2]?) ∧
        startedNames readings (entry :: rest) e =
          if e.enabledAt entry.2 then entry.1 :: startedNames readings rest f
          else startedNames readings rest f) := by
  obtain ⟨hnot, hnodup⟩ := List.nodup_cons.mp h.nodup
  have hends := ends_startEntity readings h.locked (h.known entry List.mem_cons_self)
  unfold Ends at hends
  cases hround : startEntity readings entry.2 e with
  | error fault =>
    rw [hround] at hends
    obtain ⟨se, hse, henabled, -⟩ := id hends
    refine .inl ⟨hends, ?_⟩
    simp [startedNames, hround, enabledAt, hse, henabled]
  | ok out =>
    rw [hround] at hends
    obtain ⟨hstart, hlocked, hothers⟩ := hends
    have hkept : ∀ other ∈ rest, out.2.objects[other.2]? = e.objects[other.2]? := by
      intro other hother
      refine hothers other.2 fun heq => hnot ?_
      rw [heq]
      exact List.mem_map_of_mem hother
    refine .inr ⟨hstart, out.2, ⟨hlocked, hnodup, ?_⟩, hkept, by rw [startedNames, hround]⟩
    intro other hother
    rw [hkept other hother]
    exact h.known other (List.mem_cons_of_mem _ hother)

theorem startedNames_sublist {entries : List (String × Nat)} (h : InLoop e entries) :
    (startedNames readings entries e).Sublist
      ((entries.filter fun entry => e.enabledAt entry.2).map Prod.fst) := by
  induction entries generalizing e with
  | nil => exact .slnil
  | cons entry rest ih =>
    rcases startedNames_cases readings h with
      ⟨⟨se, hse, henabled, -⟩, hcalls⟩ | ⟨-, f, hf, hkept, hcalls⟩
    · have hat : e.enabledAt entry.2 = true := by simp [enabledAt, hse, henabled]
      rw [hcalls, List.filter_cons, if_pos hat, List.map_cons, List.cons_sublist_cons]
      exact List.nil_sublist _
    · have hfilter : (rest.filter fun entry => f.enabledAt entry.2) =
          rest.filter fun entry => e.enabledAt entry.2 :=
        List.filter_congr fun other hother => by rw [enabledAt, enabledAt, hkept other hother]
      have hrest := ih hf
      rw [hfilter] at hrest
      rw [hcalls, List.filter_cons]
      split
      · exact hrest.cons_cons _
      · exact hrest

theorem startable_congr (h : f.objects[ref]? = e.objects[ref]?) :
    Startable f readings ref ↔ Startable e readings ref := by
  simp only [Startable, h]

theorem mem_startedNames_iff {pre post : List (String × Nat)}
    (h : InLoop e (pre ++ entry :: post)) (hnames : ((pre ++ entry :: post).map Prod.fst).Nodup) :
    entry.1 ∈ startedNames readings (pre ++ entry :: post) e ↔
      e.enabledAt entry.2 = true ∧ ∀ earlier ∈ pre, ¬ Startable e readings earlier.2 := by
  induction pre generalizing e with
  | nil =>
    obtain ⟨hnot, -⟩ := List.nodup_cons.mp hnames
    rcases startedNames_cases readings h with
      ⟨⟨se, hse, henabled, -⟩, hcalls⟩ | ⟨-, f, hf, -, hcalls⟩
    · have hat : e.enabledAt entry.2 = true := by simp [enabledAt, hse, henabled]
      simp [hcalls, hat]
    · have hlater : entry.1 ∉ startedNames readings post f := fun hmem =>
        hnot (((startedNames_sublist hf).trans (List.filter_sublist.map _)).mem hmem)
      cases hat : e.enabledAt entry.2 <;> simp [hcalls, hat, hlater]
  | cons first pre ih =>
    rw [List.cons_append] at h hnames ⊢
    obtain ⟨hnot, hnames'⟩ := List.nodup_cons.mp hnames
    have hne : entry.1 ≠ first.1 := fun heq => hnot (heq ▸ List.mem_map_of_mem (by simp))
    rcases startedNames_cases readings h with
      ⟨hstart, hcalls⟩ | ⟨hstart, f, hf, hkept, hcalls⟩
    · rw [hcalls, List.mem_singleton]
      exact iff_of_false hne fun hall => hall.2 first List.mem_cons_self hstart
    · have hentry : f.enabledAt entry.2 = e.enabledAt entry.2 := by
        rw [enabledAt, enabledAt, hkept entry (by simp)]
      have hearlier : (∀ earlier ∈ pre, ¬ Startable f readings earlier.2) ↔
          ∀ earlier ∈ pre, ¬ Startable e readings earlier.2 :=
        forall₂_congr fun other hother => not_congr (startable_congr (hkept other (by simp [hother])))
      have hrest := ih hf hnames'
      rw [hentry, hearlier] at hrest
      rw [hcalls, List.forall_mem_cons, and_iff_right hstart, ← hrest]
      split
      · rw [List.mem_cons, or_iff_right hne]
      · rfl

end

def Enabled (e : PhmEngine μ) (name : String) : Prop :=
  ∃ cfg, e.configOf name = some cfg ∧ cfg.enabled = true

def DependsOn (e : PhmEngine μ) (name dep : String) : Prop :=
  ∃ cfg, e.configOf name = some cfg ∧ dep ∈ cfg.dependencies

structure DependenciesFirst (e : PhmEngine μ) (calls : List String) : Prop where
  once : ∀ name, e.Enabled name → calls.count name = 1
  after : Precedes (Relation.TransGen e.DependsOn) calls

structure NamedInOrder (e : PhmEngine μ) (readings : Nat → Nat → ε) : Prop where
  idle : ∀ name, e.Enabled name → e.running = false
  returns : ∀ name ref later, e.entities[name]? = some ref → e.Enabled later → name < later →
    ¬ Startable e readings ref
  dependencies : ∀ name dep, e.Enabled name → e.DependsOn name dep → e.Enabled dep ∧ dep < name

section
variable {readings : Nat → Nat → ε} {e : PhmEngine μ} {name : String}

theorem enabled_iff (h : e.Registered) :
    e.Enabled name ↔ ∃ ref, e.entities[name]? = some ref ∧ e.enabledAt ref = true := by
  cases href : e.entities[name]? with
  | none => simp [Enabled, configOf, named, href]
  | some ref =>
    obtain ⟨se, hse, hnamed⟩ := h.named href
    simp [Enabled, configOf, hnamed, enabledAt, hse]

theorem sorted_entities (e : PhmEngine μ) : e.entities.toList.Pairwise fun p q => p.1 < q.1 :=
  Std.ExtTreeMap.ordered_keys_toList.imp TreeMap.lt_of_compare

theorem nodup_names (e : PhmEngine μ) : (e.entities.toList.map Prod.fst).Nodup :=
  List.pairwise_map.mpr (e.sorted_entities.imp String.ne_of_lt)

theorem mem_entities {entry : String × Nat} :
    entry ∈ e.entities.toList ↔ e.entities[entry.1]? = some entry.2 :=
  Std.ExtTreeMap.mem_toList_iff_getElem?_eq_some

theorem Registered.inLoop (h : e.Registered) :
    InLoop { e with mutex := true } e.entities.toList := by
  refine ⟨rfl, h.nodup_refs, fun entry hentry => ?_⟩
  obtain ⟨se, hse, -, hcb⟩ := h entry.1 entry.2 (mem_entities.mp hentry)
  exact ⟨se, hse, hcb⟩

theorem startOrder_sublist (h : e.Registered) : (startOrder readings e).Sublist
    ((e.entities.toList.filter fun entry => e.enabledAt entry.2).map Prod.fst) := by
  unfold startOrder
  split
  · exact List.nil_sublist _
  · exact startedNames_sublist h.inLoop

theorem sorted_startOrder (h : e.Registered) : (startOrder readings e).Pairwise (· < ·) := by
  have hnames : (e.entities.toList.map Prod.fst).Pairwise (· < ·) :=
    List.pairwise_map.mpr e.sorted_entities
  exact hnames.sublist ((startOrder_sublist h).trans (List.filter_sublist.map _))

theorem mem_before_iff {ref : Nat} {pre post : List (String × Nat)} {entry : String × Nat}
    (hlist : e.entities.toList = pre ++ (name, ref) :: post) :
    entry ∈ pre ↔ e.entities[entry.1]? = some entry.2 ∧ entry.1 < name := by
  have hsorted := e.sorted_entities
  rw [hlist] at hsorted
  rw [← mem_entities, hlist]
  constructor
  · intro hentry
    exact ⟨List.mem_append_left _ hentry,
      (List.pairwise_append.mp hsorted).2.2 entry hentry _ List.mem_cons_self⟩
  · rintro ⟨hmem, hlt⟩
    exact mem_left_of_sorted (fun _ _ => String.lt_asymm) hsorted hmem hlt

theorem mem_startOrder_iff (h : e.Registered) :
    name ∈ startOrder readings e ↔ e.Enabled name ∧ e.running = false ∧
      ∀ earlier ref, e.entities[earlier]? = some ref → earlier < name →
        ¬ Startable e readings ref := by
  rw [enabled_iff h]
  cases href : e.entities[name]? with
  | none =>
    refine iff_of_false (fun hmem => ?_) (by simp)
    obtain ⟨entry, hentry, rfl⟩ := List.mem_map.mp ((startOrder_sublist h).mem hmem)
    cases href.symm.trans (mem_entities.mp (List.mem_of_mem_filter hentry))
  | some ref =>
    have hmem : (name, ref) ∈ e.entities.toList := mem_entities.mpr href
    obtain ⟨pre, post, hlist⟩ := List.append_of_mem hmem
    have hloop := h.inLoop
    have hnames := e.nodup_names
    rw [hlist] at hloop hnames
    have hcalls : name ∈ startedNames readings (pre ++ (name, ref) :: post) { e with mutex := true } ↔
        e.enabledAt ref = true ∧ ∀ entry ∈ pre, ¬ Startable e readings entry.2 :=
      mem_startedNames_iff hloop hnames
    have hbefore : (∀ entry ∈ pre, ¬ Startable e readings entry.2) ↔
        ∀ earlier r, e.entities[earlier]? = some r → earlier < name → ¬ Startable e readings r := by
      simp only [mem_before_iff hlist, and_imp, Prod.forall]
    cases hrun : e.running with
    | true => simp [startOrder, hrun]
    | false =>
      rw [startOrder, if_neg (by simp [hrun]), hlist, hcalls, hbefore]
      simp

theorem count_startOrder (h : e.Registered) (hmem : name ∈ startOrder readings e) :
    (startOrder readings e).count name = 1 :=
  List.nodup_iff_count_eq_one.mp ((sorted_startOrder h).imp String.ne_of_lt) name hmem

theorem startOrder_of_start {f : PhmEngine μ} {ok : Bool} (h : e.Ready) (hidle : e.running = false)
    (hstart : start readings e = .ok (ok, f)) :
    startOrder readings e =
      (e.entities.toList.filter fun entry => e.enabledAt entry.2).map Prod.fst := by
  have hsafe : LockSafe e (.start readings) := by
    by_contra hunsafe
    have hrelocks := start_relocks h hunsafe
    rw [Ends, hstart] at hrelocks
    exact hrelocks
  have hreturns : ∀ (name : String) (ref : Nat), e.entities[name]? = some ref →
      ¬ Startable e readings ref := hsafe.resolve_left (by simp [hidle])
  have hsub : (startOrder readings e).Sublist
      ((e.entities.toList.filter fun entry => e.enabledAt entry.2).map Prod.fst) :=
    startOrder_sublist h.registered
  have hnodup : ((e.entities.toList.filter fun entry => e.enabledAt entry.2).map Prod.fst).Nodup :=
    e.nodup_names.sublist (List.filter_sublist.map Prod.fst)
  refine hsub.eq_of_length_le (List.Nodup.subperm hnodup fun name hname => ?_).length_le
  obtain ⟨entry, hentry, rfl⟩ := List.mem_map.mp hname
  obtain ⟨hmem, hat⟩ := List.mem_filter.mp hentry
  refine (mem_startOrder_iff h.registered).mpr
    ⟨(enabled_iff h.registered).mpr ⟨entry.2, mem_entities.mp hmem, hat⟩, hidle, ?_⟩
  intro earlier ref href _
  exact hreturns earlier ref href

end

theorem dependenciesFirst_iff {e : PhmEngine μ} (h : Reachable e) (readings : Nat → Nat → ε) :
    DependenciesFirst e (startOrder readings e) ↔ NamedInOrder e readings := by
  have hreg := h.ready.registered
  have hsorted : Precedes e.DependsOn (startOrder readings e) ↔ ∀ name ∈ startOrder readings e,
      ∀ dep, e.DependsOn name dep → dep ∈ startOrder readings e ∧ dep < name :=
    precedes_iff_of_sorted (fun _ _ => String.lt_asymm) (sorted_startOrder hreg)
  constructor
  · rintro ⟨honce, hafter⟩
    have hcalled (name : String) (hname : e.Enabled name) : name ∈ startOrder readings e := by
      rw [← List.count_pos_iff, honce name hname]
      exact Nat.one_pos
    have hdirect := hsorted.mp (precedes_transGen_iff.mp hafter)
    refine ⟨?_, ?_, ?_⟩
    · intro name hname
      exact ((mem_startOrder_iff hreg).mp (hcalled name hname)).2.1
    · intro name ref later href hlater hlt
      exact ((mem_startOrder_iff hreg).mp (hcalled later hlater)).2.2 name ref href hlt
    · intro name dep hname hdep
      obtain ⟨hmem, hlt⟩ := hdirect name (hcalled name hname) dep hdep
      exact ⟨((mem_startOrder_iff hreg).mp hmem).1, hlt⟩
  · rintro ⟨hidle, hreturns, hdeps⟩
    have hcalled (name : String) (hname : e.Enabled name) : name ∈ startOrder readings e :=
      (mem_startOrder_iff hreg).mpr ⟨hname, hidle name hname, fun earlier ref href hlt =>
        hreturns earlier ref name href hname hlt⟩
    refine ⟨fun name hname => count_startOrder hreg (hcalled name hname), ?_⟩
    refine precedes_transGen_iff.mpr (hsorted.mpr fun name hname dep hdep => ?_)
    have henabled := ((mem_startOrder_iff hreg).mp hname).1
    obtain ⟨hdepEnabled, hlt⟩ := hdeps name dep henabled hdep
    exact ⟨hcalled dep hdepEnabled, hlt⟩

def startedPair (dependenciesOfA dependenciesOfB : List String) : List (EngineStep ReportingMonitor Report) :=
  [.call (.addSupervisedEntity { name := "a", dependencies := dependenciesOfA }),
    .call (.addSupervisedEntity { name := "b", dependencies := dependenciesOfB }),
    .useEntity 0 (.start fun _ => {}), .useEntity 1 (.start fun _ => {})]

theorem dependency_named_first_starts_first :
    ∃ e : PhmEngine ReportingMonitor, Reachable e ∧ e.DependsOn "b" "a" ∧
      DependenciesFirst e (startOrder (fun _ _ => ({} : Report)) e) := by
  have hrun : ∃ e : PhmEngine ReportingMonitor, execAll (startedPair [] ["a"]) (new {}) = .ok ((), e) ∧
      e.entities = (StringMap.empty.insert "a" 0).insert "b" 1 ∧ e.running = false ∧
      (∃ se, e.objects[0]? = some se ∧ se.currentState = .running) ∧
      e.configOf "a" = some { name := "a" } ∧
      e.configOf "b" = some { name := "b", dependencies := ["a"] } :=
    ⟨_, rfl, rfl, rfl, ⟨_, rfl, rfl⟩, rfl, rfl⟩
  obtain ⟨e, hexec, hentities, hidle, ⟨se, hse, hstate⟩, ha, hb⟩ := hrun
  have hreach : Reachable e := (Reachable.new {}).execAll hexec
  have hknown (name : String) (ref : Nat) (href : e.entities[name]? = some ref) :
      name = "a" ∧ ref = 0 ∨ name = "b" := by
    rw [hentities, Std.ExtTreeMap.getElem?_insert, Std.ExtTreeMap.getElem?_insert] at href
    split at href
    · next hname => exact .inr (Std.LawfulEqCmp.eq_of_compare hname).symm
    · split at href
      · next hname => exact .inl ⟨(Std.LawfulEqCmp.eq_of_compare hname).symm, (Option.some.inj href).symm⟩
      · simp [StringMap.empty] at href
  have henabled (name : String) (hname : e.Enabled name) : name = "a" ∨ name = "b" := by
    obtain ⟨ref, href, -⟩ := (enabled_iff hreach.ready.registered).mp hname
    exact (hknown name ref href).imp And.left id
  refine ⟨e, hreach, ⟨_, hb, by simp⟩, (dependenciesFirst_iff hreach _).mpr ⟨fun _ _ => hidle, ?_, ?_⟩⟩
  · rintro name ref later href hlater hlt ⟨se', hse', -, -, hinit⟩
    rcases hknown name ref href with ⟨rfl, rfl⟩ | rfl
    · obtain rfl : se = se' := Option.some.inj (hse.symm.trans hse')
      cases hstate.symm.trans hinit
    · rcases henabled later hlater with rfl | rfl <;> exact absurd hlt (by decide)
  · rintro name dep hname ⟨cfg, hcfg, hdep⟩
    rcases henabled name hname with rfl | rfl
    · obtain rfl := Option.some.inj (ha.symm.trans hcfg)
      cases hdep
    · obtain rfl := Option.some.inj (hb.symm.trans hcfg)
      obtain rfl := List.mem_singleton.mp hdep
      exact ⟨⟨_, ha, rfl⟩, by decide⟩

theorem dependency_named_later_starts_later :
    ∃ e f : PhmEngine ReportingMonitor, Reachable e ∧
      e.configOf "a" = some { name := "a", dependencies := ["b"] } ∧
      e.configOf "b" = some { name := "b" } ∧
      start (fun _ _ => ({} : Report)) e = .ok (true, f) ∧
      startOrder (fun _ _ => ({} : Report)) e = ["a", "b"] ∧
      ¬ DependenciesFirst e (startOrder (fun _ _ => ({} : Report)) e) := by
  have hrun : ∃ e f : PhmEngine ReportingMonitor,
      execAll (startedPair ["b"] []) (new {}) = .ok ((), e) ∧
      e.configOf "a" = some { name := "a", dependencies := ["b"] } ∧
      e.configOf "b" = some { name := "b" } ∧
      start (fun _ _ => ({} : Report)) e = .ok (true, f) ∧
      startOrder (fun _ _ => ({} : Report)) e = ["a", "b"] := ⟨_, _, rfl, rfl, rfl, rfl, rfl⟩
  obtain ⟨e, f, hexec, ha, hb, hstart, horder⟩ := hrun
  refine ⟨e, f, (Reachable.new {}).execAll hexec, ha, hb, hstart, horder, fun h => ?_⟩
  have hb : "b" ∈ [] := h.after [] "a" ["b"] horder "b" (.single ⟨_, ha, by simp⟩)
  exact absurd hb List.not_mem_nil

end PhmEngine

end PlatformHealth
