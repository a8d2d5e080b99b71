import PlatformHealth.Library.Path
import Mathlib.Data.List.TakeWhile
import Mathlib.Data.Set.Finite.Basic
import Mathlib.Logic.Function.Basic

-- stat and mkdir of POSIX over a tree of directories and files
namespace FileTree

open Path

inductive Kind where
  | dir
  | file
deriving DecidableEq, Repr

inductive Errno where
  | enoent
  | enotdir
  | eexist
deriving DecidableEq, Repr

-- the names that lead to an entry, the last one first
abbrev Place := List Part

structure Tree where
  kind : Place → Option Kind
  root : kind [] = some .dir
  closed : ∀ name place, kind (name :: place) ≠ none → kind place = some .dir
  finite : Set.Finite {place | kind place ≠ none}

def Tree.addDir (t : Tree) (name : Part) (place : Place) (hplace : t.kind place = some .dir) : Tree where
  kind := Function.update t.kind (name :: place) (some .dir)
  root := by rw [Function.update_of_ne (by simp), t.root]
  closed := by
    intro name' place' h
    by_cases hnew : place' = name :: place
    · rw [hnew, Function.update_self]
    · rw [Function.update_of_ne hnew]
      by_cases hname : name' :: place' = name :: place
      · rw [(List.cons.inj hname).2, hplace]
      · rw [Function.update_of_ne hname] at h
        exact t.closed name' place' h
  finite := by
    refine (t.finite.insert (name :: place)).subset fun place' h => ?_
    by_cases hnew : place' = name :: place
    · exact .inl hnew
    · exact .inr (by simpa [Function.update_of_ne hnew] using h)

structure Process where
  tree : Tree
  cwd : Place
  inside : tree.kind cwd = some .dir

def bare : Process where
  tree :=
    { kind := fun place => if place = [] then some .dir else none
      root := rfl
      closed := by simp
      finite := (Set.finite_singleton []).subset fun place h => by simpa using h }
  cwd := []
  inside := rfl

def enter (t : Tree) (place : Place) (part : Part) : Except Errno Place :=
  if t.kind place ≠ some .dir then .error .enotdir
  else if part = [] ∨ part = [0x2E] then .ok place
  else if part = dotdot then .ok place.tail
  else if t.kind (part :: place) = none then .error .enoent
  else .ok (part :: place)

def follow (t : Tree) (place : Place) (parts : List Part) : Except Errno Place :=
  parts.foldlM (enter t) place

-- the name that mkdir creates and the parts before it; none when there are only slashes
def lastName (path : List UInt8) : Option (List Part × Part) :=
  match (components path).reverse.dropWhile (· = []) with
  | [] => none
  | name :: before => some (before.reverse, name)

namespace Process

def start (s : Process) (path : List UInt8) : Place := if isAbsolute path then [] else s.cwd

def makeDir (s : Process) (name : Part) (place : Place) (hplace : s.tree.kind place = some .dir)
    (hfree : s.tree.kind (name :: place) = none) : Process where
  tree := s.tree.addDir name place hplace
  cwd := s.cwd
  inside := by
    have hne : s.cwd ≠ name :: place := by
      intro heq
      have hinside := s.inside
      rw [heq, hfree] at hinside
      cases hinside
    exact (Function.update_of_ne hne _ _).trans s.inside

def stat (s : Process) (path : List UInt8) : Except Errno Kind :=
  if path = [] then .error .enoent
  else
    match follow s.tree (s.start path) (components path) with
    | .error e => .error e
    | .ok place =>
      match s.tree.kind place with
      | none => .error .enoent
      | some kind => .ok kind

def mkdir (s : Process) (path : List UInt8) : Except Errno Process :=
  if path = [] then .error .enoent
  else
    match lastName path with
    | none => .error .eexist
    | some (before, name) =>
      match follow s.tree (s.start path) before with
      | .error e => .error e
      | .ok place =>
        if hplace : s.tree.kind place = some .dir then
          if name = [0x2E] ∨ name = dotdot then .error .eexist
          else if hfree : s.tree.kind (name :: place) = none then
            .ok (s.makeDir name place hplace hfree)
          else .error .eexist
        else .error .enotdir

end Process

structure Extends (s u : Process) : Prop where
  cwd : u.cwd = s.cwd
  kept : ∀ place kind, s.tree.kind place = some kind → u.tree.kind place = some kind

def Creatable (s : Process) (path : List UInt8) : Prop := ∃ u, Extends s u ∧ u.stat path = .ok .dir

def ParentMissing (s : Process) (path : List UInt8) : Prop :=
  ∃ before name, lastName path = some (before, name) ∧
    follow s.tree (s.start path) before = .error .enoent

def Ordinary (name : Part) : Prop := name ≠ [] ∧ name ≠ [0x2E] ∧ name ≠ dotdot

section
variable {t : Tree} {place q : Place} {parts : List Part} {part : Part} {e : Errno}

@[simp] theorem follow_nil : follow t place [] = .ok place := rfl

@[simp] theorem follow_cons :
    follow t place (part :: parts) = enter t place part >>= fun q => follow t q parts := List.foldlM_cons

theorem follow_append (t : Tree) (place : Place) (ps qs : List Part) :
    follow t place (ps ++ qs) = follow t place ps >>= fun q => follow t q qs := List.foldlM_append

theorem follow_cons_ok_iff : follow t place (part :: parts) = .ok q ↔
    ∃ next, enter t place part = .ok next ∧ follow t next parts = .ok q := by
  rw [follow_cons]
  cases enter t place part <;> simp [bind, Except.bind]

theorem follow_append_ok_iff {ps qs : List Part} : follow t place (ps ++ qs) = .ok q ↔
    ∃ next, follow t place ps = .ok next ∧ follow t next qs = .ok q := by
  rw [follow_append]
  cases follow t place ps <;> simp [bind, Except.bind]

theorem enter_of_dir (h : t.kind place = some .dir) :
    enter t place part =
      if part = [] ∨ part = [0x2E] then .ok place
      else if part = dotdot then .ok place.tail
      else if t.kind (part :: place) = none then .error .enoent
      else .ok (part :: place) := by
  rw [enter, if_neg (not_not.mpr h)]

theorem enter_of_not_dir (h : t.kind place ≠ some .dir) : enter t place part = .error .enotdir := by
  rw [enter, if_pos h]

theorem dir_of_enter (h : enter t place part = .ok q) : t.kind place = some .dir := by
  by_contra hdir
  rw [enter_of_not_dir hdir] at h
  cases h

theorem enter_of_ordinary (h : t.kind place = some .dir) (hname : Ordinary part) :
    enter t place part = if t.kind (part :: place) = none then .error .enoent else .ok (part :: place) := by
  rw [enter_of_dir h, if_neg (not_or.mpr ⟨hname.1, hname.2.1⟩), if_neg hname.2.2]

theorem dir_tail (h : t.kind place ≠ none) : t.kind place.tail = some .dir := by
  cases place with
  | nil => exact t.root
  | cons name place => exact t.closed name place h

theorem enter_of_special (h : t.kind place = some .dir) (hname : ¬ Ordinary part) :
    ∃ q, enter t place part = .ok q ∧ t.kind q = some .dir := by
  rw [enter_of_dir h]
  by_cases hskip : part = [] ∨ part = [0x2E]
  · exact ⟨place, if_pos hskip, h⟩
  · have hup : part = dotdot := by
      by_contra hne
      obtain ⟨hnil, hdot⟩ := not_or.mp hskip
      exact hname ⟨hnil, hdot, hne⟩
    rw [if_neg hskip, if_pos hup]
    exact ⟨place.tail, rfl, dir_tail (by simp [h])⟩

theorem exists_enter (h : enter t place part = .ok q) : t.kind q ≠ none := by
  have hdir := dir_of_enter h
  rw [enter_of_dir hdir] at h
  split_ifs at h with hskip hup hnone
  · cases h
    simp [hdir]
  · cases h
    simp [dir_tail (by simp [hdir] : t.kind place ≠ none)]
  · cases h
    exact hnone

theorem exists_follow (hplace : t.kind place ≠ none) (h : follow t place parts = .ok q) :
    t.kind q ≠ none := by
  induction parts generalizing place with
  | nil =>
    cases h
    exact hplace
  | cons part parts ih =>
    obtain ⟨next, hpart, hrest⟩ := follow_cons_ok_iff.mp h
    exact ih (exists_enter hpart) hrest

theorem follow_skips (hdir : t.kind place = some .dir) (h : ∀ p ∈ parts, p = []) :
    follow t place parts = .ok place := by
  induction parts with
  | nil => rfl
  | cons part parts ih =>
    obtain ⟨hpart, hparts⟩ := List.forall_mem_cons.mp h
    rw [follow_cons, enter_of_dir hdir, if_pos (.inl hpart)]
    exact ih hparts

theorem follow_of_file (hfile : t.kind place = some .file) (h : parts ≠ []) :
    follow t place parts = .error .enotdir := by
  cases parts with
  | nil => exact absurd rfl h
  | cons part parts =>
    rw [follow_cons, enter_of_not_dir (by simp [hfile])]
    rfl

end

section
variable {s u : Process} {place q : Place} {parts : List Part} {part : Part}

theorem Extends.refl (s : Process) : Extends s s := ⟨rfl, fun _ _ h => h⟩

theorem Extends.trans {v : Process} (h : Extends s u) (h' : Extends u v) : Extends s v :=
  ⟨h'.cwd.trans h.cwd, fun place kind hkind => h'.kept place kind (h.kept place kind hkind)⟩

theorem Extends.exists_kind (h : Extends s u) (hplace : s.tree.kind place ≠ none) :
    u.tree.kind place = s.tree.kind place := by
  obtain ⟨kind, hkind⟩ := Option.ne_none_iff_exists'.mp hplace
  rw [hkind, h.kept place kind hkind]

theorem Extends.start (h : Extends s u) (path : List UInt8) : u.start path = s.start path := by
  rw [Process.start, Process.start, h.cwd]

theorem Extends.enter (h : Extends s u) (hq : enter s.tree place part = .ok q) :
    enter u.tree place part = .ok q := by
  have hdir := dir_of_enter hq
  rw [enter_of_dir hdir] at hq
  rw [enter_of_dir (h.kept place .dir hdir)]
  split_ifs at hq with hskip hup hnone
  · rwa [if_pos hskip]
  · rwa [if_neg hskip, if_pos hup]
  · rwa [if_neg hskip, if_neg hup, h.exists_kind hnone, if_neg hnone]

theorem Extends.follow (h : Extends s u) (hq : follow s.tree place parts = .ok q) :
    follow u.tree place parts = .ok q := by
  induction parts generalizing place with
  | nil => exact hq
  | cons part parts ih =>
    obtain ⟨next, hpart, hrest⟩ := follow_cons_ok_iff.mp hq
    exact follow_cons_ok_iff.mpr ⟨next, h.enter hpart, ih hrest⟩

theorem Extends.follow_enotdir (h : Extends s u) (hplace : s.tree.kind place ≠ none)
    (hq : FileTree.follow s.tree place parts = .error .enotdir) :
    FileTree.follow u.tree place parts = .error .enotdir := by
  induction parts generalizing place with
  | nil => cases hq
  | cons part parts ih =>
    rw [follow_cons] at hq ⊢
    cases hpart : FileTree.enter s.tree place part with
    | error e =>
      have hkind : u.tree.kind place ≠ some .dir := by
        rw [h.exists_kind hplace]
        intro hdir
        rw [enter_of_dir hdir] at hpart hq
        split_ifs at hpart hq
        · cases hq
      rw [enter_of_not_dir hkind]
      rfl
    | ok next =>
      rw [hpart] at hq
      rw [h.enter hpart]
      exact ih (exists_enter hpart) hq

theorem start_dir (s : Process) (path : List UInt8) : s.tree.kind (s.start path) = some .dir := by
  unfold Process.start
  split_ifs
  · exact s.tree.root
  · exact s.inside

end

section
variable {s u : Process} {path : List UInt8} {before : List Part} {name : Part} {kind : Kind}

theorem components_of_no_lastName (h : lastName path = none) : ∀ p ∈ components path, p = [] := by
  unfold lastName at h
  split at h
  · next hnil =>
    intro p hp
    have hall := List.dropWhile_eq_nil_iff.mp hnil
    simpa using hall p (List.mem_reverse.mpr hp)
  · cases h

theorem components_of_lastName (h : lastName path = some (before, name)) :
    name ≠ [] ∧ ∃ slashes, components path = before ++ name :: slashes ∧ ∀ p ∈ slashes, p = [] := by
  unfold lastName at h
  split at h
  · cases h
  · next last rest hdrop =>
    cases h
    refine ⟨?_, ((components path).reverse.takeWhile (· = [])).reverse, ?_, ?_⟩
    · have hhead := List.head_dropWhile_not (fun p : Part => decide (p = []))
        (l := (components path).reverse) (by rw [hdrop]; simp)
      simpa [hdrop] using hhead
    · have hsplit := List.takeWhile_append_dropWhile (p := fun p : Part => decide (p = []))
        (l := (components path).reverse)
      rw [hdrop] at hsplit
      have hreverse := congrArg List.reverse hsplit
      simpa using hreverse.symm
    · intro p hp
      have hp := List.mem_takeWhile_imp (List.mem_reverse.mp hp)
      simpa using hp

theorem ne_nil_of_lastName (h : lastName path = some (before, name)) : path ≠ [] := by
  rintro rfl
  cases h

theorem lastName_append {q : List UInt8} (hname : name ≠ []) (hslash : 0x2F ∉ name) :
    lastName (q ++ 0x2F :: name) = some (components q, name) := by
  rw [lastName, components_append_slash, components_of_no_slash hslash, List.reverse_append]
  simp [hname]

theorem stat_ok_iff : s.stat path = .ok kind ↔ path ≠ [] ∧
    ∃ place, follow s.tree (s.start path) (components path) = .ok place ∧ s.tree.kind place = some kind := by
  unfold Process.stat
  split_ifs with hpath
  · simp [hpath]
  · rw [and_iff_right hpath]
    cases hfollow : follow s.tree (s.start path) (components path) with
    | error e => simp
    | ok place =>
      have hexists := exists_follow (by simp [start_dir]) hfollow
      obtain ⟨kind', hkind⟩ := Option.ne_none_iff_exists'.mp hexists
      simp [hkind]

theorem Extends.stat (h : Extends s u) (hs : s.stat path = .ok kind) : u.stat path = .ok kind := by
  obtain ⟨hpath, place, hfollow, hkind⟩ := stat_ok_iff.mp hs
  refine stat_ok_iff.mpr ⟨hpath, place, ?_, h.kept place kind hkind⟩
  rw [h.start]
  exact h.follow hfollow

theorem not_creatable_of_file (h : s.stat path = .ok .file) : ¬ Creatable s path := by
  rintro ⟨u, hu, hdir⟩
  rw [hu.stat h] at hdir
  cases hdir

end

section
variable {s u : Process} {path : List UInt8} {before : List Part} {name : Part} {place : Place} {e : Errno}

structure AddsDir (s u : Process) (place : Place) : Prop where
  cwd : u.cwd = s.cwd
  kind : u.tree.kind = Function.update s.tree.kind place (some .dir)
  free : s.tree.kind place = none

structure MakesDir (s u : Process) (path : List UInt8) (place : Place) : Prop extends AddsDir s u place where
  reached : follow u.tree (u.start path) (components path) = .ok place

theorem addsDir_makeDir (hdir : s.tree.kind place = some .dir) (hfree : s.tree.kind (name :: place) = none) :
    AddsDir s (s.makeDir name place hdir hfree) (name :: place) := ⟨rfl, rfl, hfree⟩

theorem AddsDir.extends (h : AddsDir s u place) : Extends s u := by
  refine ⟨h.cwd, fun p kind hkind => ?_⟩
  have hne : p ≠ place := by
    rintro rfl
    rw [h.free] at hkind
    cases hkind
  rw [h.kind, Function.update_of_ne hne, hkind]

theorem MakesDir.stat (h : MakesDir s u path place) (hpath : path ≠ []) : u.stat path = .ok .dir :=
  stat_ok_iff.mpr ⟨hpath, place, h.reached, by rw [h.kind, Function.update_self]⟩

theorem AddsDir.empty (h : AddsDir s u place) (name : Part) : u.tree.kind (name :: place) = none := by
  rw [h.kind, Function.update_of_ne (by simp)]
  by_contra hkind
  have hdir := s.tree.closed name place hkind
  rw [h.free] at hdir
  cases hdir

theorem mkdir_of_parent_error (ht : lastName path = some (before, name))
    (hparent : follow s.tree (s.start path) before = .error e) : s.mkdir path = .error e := by
  rw [Process.mkdir, if_neg (ne_nil_of_lastName ht)]
  simp [ht, hparent]

theorem mkdir_of_parent_file (ht : lastName path = some (before, name))
    (hparent : follow s.tree (s.start path) before = .ok place) (hkind : s.tree.kind place ≠ some .dir) :
    s.mkdir path = .error .enotdir := by
  rw [Process.mkdir, if_neg (ne_nil_of_lastName ht)]
  simp [ht, hparent, hkind]

theorem mkdir_of_taken (ht : lastName path = some (before, name))
    (hparent : follow s.tree (s.start path) before = .ok place) (hdir : s.tree.kind place = some .dir)
    (htaken : ¬ Ordinary name ∨ s.tree.kind (name :: place) ≠ none) : s.mkdir path = .error .eexist := by
  obtain ⟨hname, -⟩ := components_of_lastName ht
  rw [Process.mkdir, if_neg (ne_nil_of_lastName ht)]
  by_cases hspecial : name = [0x2E] ∨ name = dotdot
  · simp [ht, hparent, hdir, hspecial]
  · have hkind : s.tree.kind (name :: place) ≠ none :=
      htaken.resolve_left (not_not.mpr ⟨hname, not_or.mp hspecial⟩)
    simp [ht, hparent, hdir, hspecial, hkind]

theorem mkdir_of_free (ht : lastName path = some (before, name))
    (hparent : follow s.tree (s.start path) before = .ok place) (hdir : s.tree.kind place = some .dir)
    (hordinary : Ordinary name) (hfree : s.tree.kind (name :: place) = none) :
    ∃ u, s.mkdir path = .ok u ∧ MakesDir s u path (name :: place) := by
  have hspecial : ¬ (name = [0x2E] ∨ name = dotdot) := not_or.mpr hordinary.2
  have hmake : s.mkdir path = .ok (s.makeDir name place hdir hfree) := by
    rw [Process.mkdir, if_neg (ne_nil_of_lastName ht)]
    simp [ht, hparent, hdir, hspecial, hfree]
  have hadds := addsDir_makeDir hdir hfree
  have hnew : (s.makeDir name place hdir hfree).tree.kind (name :: place) = some .dir :=
    Function.update_self _ _ _
  obtain ⟨-, slashes, hcomponents, hslashes⟩ := components_of_lastName ht
  have henter : enter (s.makeDir name place hdir hfree).tree place name = .ok (name :: place) := by
    rw [enter_of_ordinary (hadds.extends.kept _ _ hdir) hordinary, if_neg (by simp [hnew])]
  refine ⟨_, hmake, hadds, ?_⟩
  rw [hadds.extends.start, hcomponents]
  exact follow_append_ok_iff.mpr ⟨place, hadds.extends.follow hparent,
    follow_cons_ok_iff.mpr ⟨name :: place, henter, follow_skips hnew hslashes⟩⟩

theorem error_enter (h : enter s.tree place name = .error e) : e = .enoent ∨ e = .enotdir := by
  by_cases hdir : s.tree.kind place = some .dir
  · rw [enter_of_dir hdir] at h
    split_ifs at h
    cases h
    exact .inl rfl
  · rw [enter_of_not_dir hdir] at h
    cases h
    exact .inr rfl

theorem error_follow {parts : List Part} (h : follow s.tree place parts = .error e) :
    e = .enoent ∨ e = .enotdir := by
  induction parts generalizing place with
  | nil => cases h
  | cons part parts ih =>
    rw [follow_cons] at h
    cases hpart : enter s.tree place part with
    | error e' =>
      rw [hpart] at h
      cases h
      exact error_enter hpart
    | ok next =>
      rw [hpart] at h
      exact ih h

theorem not_creatable_of_file_in_path {ps rest : List Part} (hcomponents : components path = ps ++ rest)
    (hreached : follow s.tree (s.start path) ps = .ok place) (hfile : s.tree.kind place = some .file) :
    ¬ Creatable s path := by
  rintro ⟨u, hu, hdir⟩
  obtain ⟨-, last, hlast, hkind⟩ := stat_ok_iff.mp hdir
  have hfile := hu.kept _ _ hfile
  rw [hcomponents, hu.start] at hlast
  obtain ⟨next, hnext, hrest⟩ := follow_append_ok_iff.mp hlast
  rw [hu.follow hreached] at hnext
  cases hnext
  cases rest with
  | nil =>
    cases hrest
    rw [hfile] at hkind
    cases hkind
  | cons part rest =>
    rw [follow_of_file hfile (by simp)] at hrest
    cases hrest

theorem not_creatable_of_enotdir {ps rest : List Part} (hcomponents : components path = ps ++ rest)
    (hblocked : follow s.tree (s.start path) ps = .error .enotdir) : ¬ Creatable s path := by
  rintro ⟨u, hu, hdir⟩
  obtain ⟨-, last, hlast, -⟩ := stat_ok_iff.mp hdir
  rw [hcomponents, hu.start] at hlast
  obtain ⟨next, hnext, -⟩ := follow_append_ok_iff.mp hlast
  rw [hu.follow_enotdir (by simp [start_dir]) hblocked] at hnext
  cases hnext

theorem stat_of_reached {ps rest : List Part} (hpath : path ≠ []) (hcomponents : components path = ps ++ rest)
    (hreached : follow s.tree (s.start path) ps = .ok place) (hdir : s.tree.kind place = some .dir)
    (hrest : ∀ p ∈ rest, p = []) : s.stat path = .ok .dir := by
  refine stat_ok_iff.mpr ⟨hpath, place, ?_, hdir⟩
  rw [hcomponents]
  exact follow_append_ok_iff.mpr ⟨place, hreached, follow_skips hdir hrest⟩

inductive Outcome (s : Process) (path : List UInt8) : Except Errno Process → Prop
  | nameless : path = [] → Outcome s path (.error .enoent)
  | orphan : ParentMissing s path → Outcome s path (.error .enoent)
  | taken : s.stat path = .ok .dir → Outcome s path (.error .eexist)
  | blocked {e : Errno} : ¬ Creatable s path → e ≠ .enoent → Outcome s path (.error e)
  | made {u : Process} {place : Place} : MakesDir s u path place → Outcome s path (.ok u)

theorem outcome_mkdir (s : Process) (path : List UInt8) : Outcome s path (s.mkdir path) := by
  by_cases hpath : path = []
  · rw [Process.mkdir, if_pos hpath]
    exact .nameless hpath
  cases ht : lastName path with
  | none =>
    rw [Process.mkdir, if_neg hpath, ht]
    exact .taken (stat_of_reached hpath (List.nil_append _).symm rfl (start_dir s path)
      (components_of_no_lastName ht))
  | some both =>
    obtain ⟨before, name⟩ := both
    obtain ⟨hname, slashes, hcomponents, hslashes⟩ := components_of_lastName ht
    cases hparent : follow s.tree (s.start path) before with
    | error e =>
      rw [mkdir_of_parent_error ht hparent]
      rcases error_follow hparent with rfl | rfl
      · exact .orphan ⟨before, name, ht, hparent⟩
      · exact .blocked (not_creatable_of_enotdir hcomponents hparent) (by decide)
    | ok place =>
      have hsplit : components path = (before ++ [name]) ++ slashes := by simp [hcomponents]
      have hnext {q : Place} (hq : enter s.tree place name = .ok q) :
          follow s.tree (s.start path) (before ++ [name]) = .ok q :=
        follow_append_ok_iff.mpr ⟨place, hparent, follow_cons_ok_iff.mpr ⟨q, hq, rfl⟩⟩
      cases hkind : s.tree.kind place with
      | none => exact absurd hkind (exists_follow (by simp [start_dir]) hparent)
      | some kind =>
        cases kind with
        | file =>
          rw [mkdir_of_parent_file ht hparent (by simp [hkind])]
          exact .blocked (not_creatable_of_file_in_path hcomponents hparent hkind) (by decide)
        | dir =>
          by_cases hordinary : Ordinary name
          · have henter := enter_of_ordinary hkind hordinary
            cases hentry : s.tree.kind (name :: place) with
            | none =>
              obtain ⟨u, hmake, hmakes⟩ := mkdir_of_free ht hparent hkind hordinary hentry
              rw [hmake]
              exact .made hmakes
            | some entry =>
              rw [mkdir_of_taken ht hparent hkind (.inr (by simp [hentry]))]
              rw [hentry] at henter
              cases entry with
              | file => exact .blocked (not_creatable_of_file_in_path hsplit (hnext henter) hentry) (by decide)
              | dir => exact .taken (stat_of_reached hpath hsplit (hnext henter) hentry hslashes)
          · obtain ⟨q, hq, hdir⟩ := enter_of_special hkind hordinary
            rw [mkdir_of_taken ht hparent hkind (.inl hordinary)]
            exact .taken (stat_of_reached hpath hsplit (hnext hq) hdir hslashes)

theorem mkdir_of_parentMissing (h : ParentMissing s path) : s.mkdir path = .error .enoent := by
  obtain ⟨before, name, ht, hparent⟩ := h
  exact mkdir_of_parent_error ht hparent

theorem stat_of_parentMissing (h : ParentMissing s path) : s.stat path ≠ .ok kind := by
  obtain ⟨before, name, ht, hparent⟩ := h
  obtain ⟨-, slashes, hcomponents, -⟩ := components_of_lastName ht
  intro hstat
  obtain ⟨-, place, hfollow, -⟩ := stat_ok_iff.mp hstat
  rw [hcomponents] at hfollow
  obtain ⟨next, hnext, -⟩ := follow_append_ok_iff.mp hfollow
  rw [hparent] at hnext
  cases hnext

theorem mkdir_of_dir (h : s.stat path = .ok .dir) : s.mkdir path ≠ .ok u := by
  intro hmake
  have houtcome := outcome_mkdir s path
  rw [hmake] at houtcome
  cases houtcome with
  | made hmakes =>
    obtain ⟨-, place, hfollow, hkind⟩ := stat_ok_iff.mp h
    have hreached := hmakes.extends.follow hfollow
    rw [← hmakes.extends.start path, hmakes.reached] at hreached
    cases hreached
    rw [hmakes.free] at hkind
    cases hkind

end

end FileTree
