import PlatformHealth.Library.ByteString
import PlatformHealth.Library.FileTree

namespace PlatformHealth.DataReporter

open ByteString FileTree Path

def rfind (c : UInt8) : List UInt8 → Option Nat
  | [] => none
  | x :: xs =>
    match rfind c xs with
    | some pos => some (pos + 1)
    | none => if x = c then some 0 else none

section
variable {c : UInt8} {xs : List UInt8}

theorem rfind_eq_none (h : rfind c xs = none) : c ∉ xs := by
  induction xs with
  | nil => simp
  | cons x xs ih =>
    unfold rfind at h
    split at h
    · cases h
    · next hrest =>
      split_ifs at h with hx
      simpa [Ne.symm hx] using ih hrest

theorem rfind_eq_some {pos : Nat} (h : rfind c xs = some pos) :
    ∃ before after, xs = before ++ c :: after ∧ before.length = pos ∧ c ∉ after := by
  induction xs generalizing pos with
  | nil => cases h
  | cons x xs ih =>
    unfold rfind at h
    split at h
    · next pos' hrest =>
      cases h
      obtain ⟨before, after, rfl, hlength, hafter⟩ := ih hrest
      exact ⟨x :: before, after, rfl, by simp [hlength], hafter⟩
    · next hrest =>
      split_ifs at h with hx
      cases h
      exact ⟨[], xs, by rw [hx]; rfl, rfl, rfind_eq_none hrest⟩

theorem lt_of_rfind {pos : Nat} (h : rfind c xs = some pos) : pos < xs.length := by
  obtain ⟨before, after, rfl, hlength, -⟩ := rfind_eq_some h
  simp [← hlength]

end

def mkdirAgain (path : List UInt8) (r : Bool × Process) : Bool × Process :=
  if !r.1 then (false, r.2)
  else
    match r.2.mkdir (cString path) with
    | .ok s => (true, s)
    | .error _ => (false, r.2)

def ensureDir (s : Process) (path : List UInt8) : Bool × Process :=
  match s.stat (cString path) with
  | .ok kind => (kind = .dir, s)
  | .error _ =>
    match s.mkdir (cString path) with
    | .ok s => (true, s)
    | .error e =>
      if e = .enoent then
        match hpos : rfind 0x2F path with
        | none => (false, s)
        | some pos =>
          have := lt_of_rfind hpos
          if 0 < pos then mkdirAgain path (ensureDir s (path.take pos)) else (false, s)
      else (false, s)
termination_by path.length
decreasing_by
  simp only [List.length_take]
  omega

def cut (path : List UInt8) : Option (List UInt8 × List UInt8) :=
  (rfind 0x2F path).map fun pos => (path.take pos, path.drop (pos + 1))

inductive Ends (s : Process) (path : List UInt8) : Bool × Process → Prop
  | found : s.stat (cString path) = .ok .dir → Ends s path (true, s)
  | refused : ¬ Creatable s (cString path) → Ends s path (false, s)
  | made {u : Process} {place : Place} : s.mkdir (cString path) = .ok u → MakesDir s u (cString path) place →
      Ends s path (true, u)
  | again (parent name : List UInt8) : cut path = some (parent, name) → parent ≠ [] →
      ParentMissing s (cString path) → Ends s path (mkdirAgain path (ensureDir s parent))

section
variable {s u : Process} {path parent name : List UInt8}

theorem not_creatable_nil (s : Process) : ¬ Creatable s [] := by
  rintro ⟨u, -, hdir⟩
  cases hdir

theorem parent_found {path : List UInt8} (h : ∀ p ∈ (components path).dropLast, p = []) :
    ¬ ParentMissing s path := by
  rintro ⟨before, name, ht, hparent⟩
  obtain ⟨-, slashes, hcomponents, -⟩ := components_of_lastName ht
  rw [hcomponents, List.dropLast_append_of_ne_nil (by simp)] at h
  have hbefore : ∀ p ∈ before, p = [] := fun p hp => h p (List.mem_append_left _ hp)
  rw [follow_skips (start_dir s path) hbefore] at hparent
  cases hparent

theorem exists_cut (h : ParentMissing s (cString path)) :
    ∃ pos, rfind 0x2F path = some pos ∧ 0 < pos := by
  cases hpos : rfind 0x2F path with
  | none =>
    refine absurd h (parent_found ?_)
    rw [components_of_no_slash (notMem_cString (rfind_eq_none hpos))]
    simp
  | some pos =>
    refine ⟨pos, rfl, Nat.pos_of_ne_zero ?_⟩
    rintro rfl
    obtain ⟨before, name, rfl, hlength, hname⟩ := rfind_eq_some hpos
    obtain rfl := List.eq_nil_of_length_eq_zero hlength
    refine absurd h (parent_found ?_)
    have hcomponents : components (cString (0x2F :: name)) = [[], cString name] := by
      have hcons : cString (0x2F :: name) = [] ++ 0x2F :: cString name := rfl
      rw [hcons, components_append_slash, components_of_no_slash (notMem_cString hname)]
      rfl
    simp [List.nil_append, hcomponents]

theorem cString_cut (hnul : 0 ∉ parent) : cString (parent ++ 0x2F :: name) = parent ++ 0x2F :: cString name := by
  rw [cString_append_of_notMem hnul]
  rfl

theorem ensureDir_nameless (hnil : cString path = []) : ensureDir s path = (false, s) := by
  induction path using (measure List.length).wf.induction with
  | _ path ih =>
    have hstat : s.stat (cString path) = .error .enoent := by
      rw [hnil]
      rfl
    have hmake : s.mkdir (cString path) = .error .enoent := by
      rw [hnil]
      rfl
    rw [ensureDir]
    simp only [hstat, hmake, if_true]
    split
    · rfl
    · next pos hpos =>
      obtain ⟨parent, name, rfl, rfl, hname⟩ := rfind_eq_some hpos
      have hparent : cString parent = [] := by
        by_cases hnul : 0 ∈ parent
        · rwa [cString_append_of_mem hnul] at hnil
        · rw [cString_cut hnul] at hnil
          simp at hnil
      have hshort : parent.length < (parent ++ 0x2F :: name).length := by simp
      rw [List.take_left, ih parent hshort hparent]
      split_ifs <;> rfl

theorem ends_ensureDir (s : Process) (path : List UInt8) : Ends s path (ensureDir s path) := by
  by_cases hnil : cString path = []
  · rw [ensureDir_nameless hnil]
    exact .refused (hnil ▸ not_creatable_nil s)
  rw [ensureDir]
  cases hstat : s.stat (cString path) with
  | ok kind =>
    cases kind with
    | dir => exact .found hstat
    | file => exact .refused (not_creatable_of_file hstat)
  | error e =>
    have houtcome := outcome_mkdir s (cString path)
    cases hmake : s.mkdir (cString path) with
    | ok u =>
      rw [hmake] at houtcome
      cases houtcome with
      | made hmakes => exact .made hmake hmakes
    | error e =>
      rw [hmake] at houtcome
      cases houtcome with
      | nameless h => exact absurd h hnil
      | orphan hmissing =>
        obtain ⟨pos, hpos, hpositive⟩ := exists_cut hmissing
        dsimp only
        rw [if_pos rfl]
        split
        · next hnone =>
          rw [hpos] at hnone
          cases hnone
        · next pos' hpos' =>
          rw [hpos] at hpos'
          cases hpos'
          have hshort := lt_of_rfind hpos
          have hne : path.take pos ≠ [] := by
            refine List.ne_nil_of_length_pos ?_
            rw [List.length_take]
            omega
          rw [if_pos hpositive]
          exact .again _ _ (by rw [cut, hpos]; rfl) hne hmissing
      | taken hdir =>
        rw [hstat] at hdir
        cases hdir
      | blocked hblocked hne =>
        dsimp only
        rw [if_neg hne]
        exact .refused hblocked

theorem cut_eq (h : cut path = some (parent, name)) : path = parent ++ 0x2F :: name ∧ 0x2F ∉ name := by
  unfold cut at h
  cases hpos : rfind 0x2F path with
  | none =>
    rw [hpos] at h
    cases h
  | some pos =>
    obtain ⟨before, after, rfl, rfl, hafter⟩ := rfind_eq_some hpos
    rw [hpos] at h
    have h := Option.some.inj h
    simp only [List.take_left, Prod.mk.injEq] at h
    obtain ⟨rfl, rfl⟩ := h
    simpa using hafter

end

theorem ensureDir_induction {s : Process} {P : List UInt8 → Bool × Process → Prop}
    (found : ∀ path, s.stat (cString path) = .ok .dir → P path (true, s))
    (refused : ∀ path, ¬ Creatable s (cString path) → P path (false, s))
    (made : ∀ path u place, s.mkdir (cString path) = .ok u → MakesDir s u (cString path) place → P path (true, u))
    (again : ∀ path parent name r, cut path = some (parent, name) → parent ≠ [] →
      ParentMissing s (cString path) → P parent r → P path (mkdirAgain path r))
    (path : List UInt8) : P path (ensureDir s path) := by
  induction path using (measure List.length).wf.induction with
  | _ path ih =>
    have hends := ends_ensureDir s path
    generalize ensureDir s path = r at hends
    cases hends with
    | found h => exact found path h
    | refused h => exact refused path h
    | made hmake h => exact made path _ _ hmake h
    | again parent name hcut hne hmissing =>
      have hshort : parent.length < path.length := by simp [(cut_eq hcut).1]
      exact again path parent name _ hcut hne hmissing (ih parent hshort)

inductive Prefix : List UInt8 → List UInt8 → Prop
  | self (path : List UInt8) : Prefix path path
  | parent {path parent name c : List UInt8} : cut path = some (parent, name) → parent ≠ [] →
      Prefix parent c → Prefix path c

def EndsInName (path : List UInt8) : Prop :=
  ∃ parent name, cut path = some (parent, name) ∧ 0 ∉ parent ∧ Ordinary (cString name)

-- where the parent directory has to be made first, the path ends in a name
def Plain (s : Process) (path : List UInt8) : Prop :=
  ∀ c, Prefix path c → ParentMissing s (cString c) → EndsInName c

section
variable {s u : Process} {path parent name c : List UInt8}

theorem cString_of_cut (hcut : cut path = some (parent, name)) (hnul : 0 ∉ parent) :
    cString path = parent ++ 0x2F :: cString name := by
  rw [(cut_eq hcut).1, cString_cut hnul]

theorem cString_of_cut_nul (hcut : cut path = some (parent, name)) (hnul : 0 ∈ parent) :
    cString path = cString parent := by
  rw [(cut_eq hcut).1, cString_append_of_mem hnul]

theorem start_append (s : Process) (hne : parent ≠ []) (rest : List UInt8) :
    s.start (parent ++ rest) = s.start parent := by
  cases parent with
  | nil => exact absurd rfl hne
  | cons c cs => rfl

theorem lastName_append_slash (path : List UInt8) : lastName (path ++ [0x2F]) = lastName path := by
  have hcomponents : components (path ++ [0x2F]) = components path ++ [[]] := components_append_slash path []
  simp [lastName, hcomponents]

theorem parentMissing_of_cut (hcut : cut path = some (parent, name)) (hne : parent ≠ [])
    (h : ParentMissing s (cString parent)) : ParentMissing s (cString path) := by
  by_cases hnul : 0 ∈ parent
  · rwa [cString_of_cut_nul hcut hnul]
  · rw [cString_of_cut hcut hnul]
    rw [cString_of_notMem hnul] at h
    obtain ⟨before, last, ht, hparent⟩ := h
    by_cases hname : cString name = []
    · refine ⟨before, last, ?_, ?_⟩
      · rw [hname, lastName_append_slash, ht]
      · rwa [start_append s hne]
    · refine ⟨components parent, cString name, lastName_append hname (notMem_cString (cut_eq hcut).2), ?_⟩
      obtain ⟨-, slashes, hcomponents, -⟩ := components_of_lastName ht
      rw [start_append s hne, hcomponents, follow_append, hparent]
      rfl

theorem parentMissing_of_given (hc : Prefix path c) (h : ParentMissing s (cString c)) :
    ParentMissing s (cString path) := by
  induction hc with
  | self => exact h
  | parent hcut hne _ ih => exact parentMissing_of_cut hcut hne (ih h)

theorem plain_of_parent_found (h : ¬ ParentMissing s (cString path)) : Plain s path :=
  fun _ hc hmissing => absurd (parentMissing_of_given hc hmissing) h

theorem plain_again_iff (hcut : cut path = some (parent, name)) (hne : parent ≠ [])
    (hmissing : ParentMissing s (cString path)) : Plain s path ↔ EndsInName path ∧ Plain s parent := by
  constructor
  · intro h
    exact ⟨h path (.self path) hmissing, fun c hc => h c (.parent hcut hne hc)⟩
  · rintro ⟨hname, hparent⟩ c hc
    cases hc with
    | self => exact fun _ => hname
    | parent hcut' _ hc =>
      rw [hcut] at hcut'
      cases hcut'
      exact hparent c hc

theorem reached_parent {part : Part} {place : Place}
    (h : follow s.tree (s.start (parent ++ 0x2F :: c)) (components parent ++ [part]) = .ok place)
    (hne : parent ≠ []) : s.stat parent = .ok .dir := by
  rw [start_append s hne] at h
  obtain ⟨q, hparent, hlast⟩ := follow_append_ok_iff.mp h
  obtain ⟨next, hpart, -⟩ := follow_cons_ok_iff.mp hlast
  exact stat_ok_iff.mpr ⟨hne, q, hparent, dir_of_enter hpart⟩

theorem creatable_parent (hcut : cut path = some (parent, name)) (hne : parent ≠ [])
    (h : Creatable s (cString path)) : Creatable s (cString parent) := by
  by_cases hnul : 0 ∈ parent
  · rwa [← cString_of_cut_nul hcut hnul]
  · rw [cString_of_cut hcut hnul] at h
    rw [cString_of_notMem hnul]
    obtain ⟨u, hu, hdir⟩ := h
    obtain ⟨-, place, hfollow, -⟩ := stat_ok_iff.mp hdir
    rw [components_append_slash, components_of_no_slash (notMem_cString (cut_eq hcut).2)] at hfollow
    exact ⟨u, hu, reached_parent hfollow hne⟩

theorem stat_of_not_endsInName (hcut : cut path = some (parent, name)) (hne : parent ≠ [])
    (hparent : s.stat (cString parent) = .ok .dir) (hname : ¬ EndsInName path) :
    s.stat (cString path) = .ok .dir := by
  by_cases hnul : 0 ∈ parent
  · rwa [cString_of_cut_nul hcut hnul]
  · have hspecial : ¬ Ordinary (cString name) := fun hordinary => hname ⟨parent, name, hcut, hnul, hordinary⟩
    rw [cString_of_cut hcut hnul]
    rw [cString_of_notMem hnul] at hparent
    obtain ⟨-, place, hfollow, hkind⟩ := stat_ok_iff.mp hparent
    obtain ⟨q, hq, hdir⟩ := enter_of_special hkind hspecial
    refine stat_ok_iff.mpr ⟨by simp, q, ?_, hdir⟩
    rw [components_append_slash, components_of_no_slash (notMem_cString (cut_eq hcut).2), start_append s hne]
    exact follow_append_ok_iff.mpr ⟨place, hfollow, follow_cons_ok_iff.mpr ⟨q, hq, rfl⟩⟩

end

section
variable {s u : Process} {path parent name : List UInt8} {r : Bool × Process}

structure Done (s : Process) (path : List UInt8) (r : Bool × Process) : Prop where
  kept : Extends s r.2
  named : r.1 = true → r.2.stat (cString path) = .ok .dir
  empty : r.1 = true → s.stat (cString path) ≠ .ok .dir → ∃ place,
    follow r.2.tree (r.2.start (cString path)) (components (cString path)) = .ok place ∧
      r.2.tree.kind place = some .dir ∧ ∀ name, r.2.tree.kind (name :: place) = none
  decided : Creatable s (cString path) → (r.1 = true ↔ Plain s path)

theorem done_made {place : Place} (h : Extends s u) (hnil : cString path ≠ []) {v : Process}
    (hmakes : MakesDir u v (cString path) place) (hplain : Creatable s (cString path) → Plain s path) :
    Done s path (true, v) where
  kept := h.trans hmakes.extends
  named _ := hmakes.stat hnil
  empty _ _ := ⟨place, hmakes.reached, by rw [hmakes.kind, Function.update_self], hmakes.empty⟩
  decided hcreatable := iff_of_true rfl (hplain hcreatable)

theorem done_failed (h : Extends s u) (hplain : Creatable s (cString path) → ¬ Plain s path) :
    Done s path (false, u) where
  kept := h
  named := by rintro ⟨⟩
  empty := by rintro ⟨⟩
  decided hcreatable := iff_of_false (by simp) (hplain hcreatable)

theorem exists_mkdir (hdone : Done s parent r) (hok : r.1 = true) (hne : parent ≠ [])
    (hmissing : ParentMissing s (cString path)) (hname : EndsInName path) (hcut : cut path = some (parent, name)) :
    ∃ v place, r.2.mkdir (cString path) = .ok v ∧ MakesDir r.2 v (cString path) place := by
  obtain ⟨parent', name', hcut', hnul, hordinary⟩ := hname
  rw [hcut] at hcut'
  cases hcut'
  have hslash : 0x2F ∉ cString name := notMem_cString (cut_eq hcut).2
  have hpath := cString_of_cut hcut hnul
  have hself := cString_of_notMem hnul
  have ht : lastName (parent ++ 0x2F :: cString name) = some (components parent, cString name) :=
    lastName_append hordinary.1 hslash
  have hnew : s.stat (cString parent) ≠ .ok .dir := by
    intro hdir
    obtain ⟨before, last, ht', hparent⟩ := hmissing
    rw [hpath, ht] at ht'
    cases ht'
    obtain ⟨-, place, hfollow, -⟩ := stat_ok_iff.mp hdir
    rw [hself] at hfollow
    rw [hpath, start_append s hne, hfollow] at hparent
    cases hparent
  obtain ⟨place, hfollow, hdir, hempty⟩ := hdone.empty hok hnew
  rw [hself] at hfollow
  rw [hpath]
  rw [← start_append r.2 hne (0x2F :: cString name)] at hfollow
  obtain ⟨v, hmake, hmakes⟩ := mkdir_of_free ht hfollow hdir hordinary (hempty _)
  exact ⟨v, _, hmake, hmakes⟩

theorem done_again (hcut : cut path = some (parent, name)) (hne : parent ≠ [])
    (hmissing : ParentMissing s (cString path)) (hdone : Done s parent r) : Done s path (mkdirAgain path r) := by
  have hplain := plain_again_iff hcut hne hmissing
  obtain ⟨ok, u⟩ := r
  cases ok with
  | false =>
    refine done_failed hdone.kept fun hcreatable h => ?_
    have hparent := (hdone.decided (creatable_parent hcut hne hcreatable)).mpr (hplain.mp h).2
    cases hparent
  | true =>
    by_cases hname : EndsInName path
    · obtain ⟨v, place, hmake, hmakes⟩ := exists_mkdir hdone rfl hne hmissing hname hcut
      have hresult : mkdirAgain path (true, u) = (true, v) := by
        simp [mkdirAgain, hmake]
      rw [hresult]
      refine done_made hdone.kept ?_ hmakes fun hcreatable => ?_
      · obtain ⟨before, last, ht, -⟩ := hmissing
        exact ne_nil_of_lastName ht
      · exact hplain.mpr ⟨hname, (hdone.decided (creatable_parent hcut hne hcreatable)).mp rfl⟩
    · have hthere := stat_of_not_endsInName hcut hne (hdone.named rfl) hname
      have hresult : mkdirAgain path (true, u) = (false, u) := by
        cases hmake : u.mkdir (cString path) with
        | ok v => exact absurd hmake (mkdir_of_dir hthere)
        | error e => simp [mkdirAgain, hmake]
      rw [hresult]
      exact done_failed hdone.kept fun _ h => hname (hplain.mp h).1

theorem done_ensureDir (s : Process) (path : List UInt8) : Done s path (ensureDir s path) := by
  refine ensureDir_induction (P := Done s) ?_ ?_ ?_ ?_ path
  · intro path hdir
    refine ⟨.refl s, fun _ => hdir, fun _ hnew => absurd hdir hnew, fun _ => iff_of_true rfl ?_⟩
    exact plain_of_parent_found fun hmissing => stat_of_parentMissing hmissing hdir
  · intro path hrefused
    exact done_failed (.refl s) fun hcreatable => absurd hcreatable hrefused
  · intro path u place hmake hmakes
    have hnil : cString path ≠ [] := by
      intro hnil
      rw [hnil] at hmake
      cases hmake
    refine done_made (.refl s) hnil hmakes fun _ => plain_of_parent_found fun hmissing => ?_
    rw [mkdir_of_parentMissing hmissing] at hmake
    cases hmake
  · intro path parent name r hcut hne hmissing hdone
    exact done_again hcut hne hmissing hdone

-- true just when a directory is there, false only where none can be, and nothing else touched
structure Correct (s : Process) (path : List UInt8) (r : Bool × Process) : Prop where
  named : r.1 = true ↔ r.2.stat (cString path) = .ok .dir
  refused : r.1 = false → ¬ Creatable s (cString path)
  kept : Extends s r.2

theorem ensureDir_correct_iff (s : Process) (path : List UInt8) :
    Correct s path (ensureDir s path) ↔ (Creatable s (cString path) → Plain s path) := by
  have hdone := done_ensureDir s path
  constructor
  · intro hcorrect hcreatable
    refine (hdone.decided hcreatable).mp ?_
    cases hok : (ensureDir s path).1 with
    | true => rfl
    | false => exact absurd hcreatable (hcorrect.refused hok)
  · intro hplain
    have hdecided (hcreatable : Creatable s (cString path)) : (ensureDir s path).1 = true :=
      (hdone.decided hcreatable).mpr (hplain hcreatable)
    refine ⟨⟨hdone.named, fun hdir => hdecided ⟨_, hdone.kept, hdir⟩⟩, fun hfalse hcreatable => ?_, hdone.kept⟩
    rw [hdecided hcreatable] at hfalse
    cases hfalse

end

theorem trailing_slash_refused :
    let path := utf8 "/srv/phm/"
    let r := ensureDir bare path
    r.1 = false ∧ r.2.stat path = .ok .dir ∧ ¬ Correct bare path r := by
  intro path r
  have hfalse : r.1 = false := by decide +kernel
  have hdir : r.2.stat path = .ok .dir := by decide +kernel
  refine ⟨hfalse, hdir, fun h => ?_⟩
  have htrue : r.1 = true := h.named.mpr hdir
  rw [hfalse] at htrue
  cases htrue

end PlatformHealth.DataReporter
