import PlatformHealth.Config.Schema
import PlatformHealth.Library.Path
import PlatformHealth.Reporter.DataReporter

namespace PlatformHealth

open ByteString Decimal
open FileStream Path

namespace DataReporter

section
variable {F : Type} [DecidableEq F] (fileOf : Bytes → F) (dump : Dump) (dataDir : Bytes)
  (uploader : Option (List Record)) (files : FileStore F)

def ReportsTo (name path : Bytes) : Prop :=
  ∃ calls a, a.record.seName = name ∧
    (Site.report fileOf dump (Runs.run (Site.called fileOf dump) (Site.new dataDir uploader files) calls)
      a).1.impl.fileStream.name = some path

theorem reportsTo_iff (name path : Bytes) :
    ReportsTo fileOf dump dataDir uploader files name path ↔ ∃ tm, path = getHourlyFilename dataDir name tm := by
  constructor
  · rintro ⟨calls, a, rfl, hpath⟩
    have htied : Tied dataDir (Runs.run (Site.called fileOf dump) (Site.new dataDir uploader files) calls).impl :=
      Runs.run_invariant (P := fun s : Site F => Tied dataDir s.impl) (fun _ c hs => Site.tied_called hs c)
        (Site.tied_new dataDir uploader files) calls
    rw [Site.name_report htied] at hpath
    exact ⟨a.tm, openAfter_eq hpath⟩
  · rintro ⟨tm, rfl⟩
    refine ⟨[], { record := { seName := name }, tm }, rfl, ?_⟩
    rw [Runs.run_nil, Site.name_report (Site.tied_new dataDir uploader files), openAfter_of_opens rfl]
    rfl

end

def pathOf (dataDir seName : Bytes) (tm : Tm) : Bytes := cString (getHourlyFilename dataDir seName tm)

def dataLocation (dataDir : Bytes) : Location := resolve (cString dataDir)

def InSubdirectory (dataDir : Bytes) (sub : Part) (path : Bytes) : Prop :=
  sub ≠ dotdot ∧ ∃ file, file ≠ dotdot ∧ resolve path =
    { absolute := (dataLocation dataDir).absolute
      parts := file :: sub :: (dataLocation dataDir).parts }

section
variable {F : Type} [DecidableEq F] (fileOf : Bytes → F) (dump : Dump) (dataDir : Bytes)
  (uploader : Option (List Record)) (files : FileStore F) (a b : Bytes)

structure Confined : Prop where
  own : ∀ name ∈ [a, b], ∃ sub, ∀ path, ReportsTo fileOf dump dataDir uploader files name path →
    InSubdirectory dataDir sub (cString path)
  apart : a ≠ b → ∀ path path', ReportsTo fileOf dump dataDir uploader files a path →
    ReportsTo fileOf dump dataDir uploader files b path' → resolve (cString path) ≠ resolve (cString path')

theorem confined_iff_paths : Confined fileOf dump dataDir uploader files a b ↔
    (∀ name ∈ [a, b], ∃ sub, ∀ tm, InSubdirectory dataDir sub (pathOf dataDir name tm)) ∧
      (a ≠ b → ∀ tm tm', resolve (pathOf dataDir a tm) ≠ resolve (pathOf dataDir b tm')) := by
  constructor
  · rintro ⟨hown, hapart⟩
    refine ⟨fun name hname => ?_, fun hne tm tm' => ?_⟩
    · obtain ⟨sub, hsub⟩ := hown name hname
      exact ⟨sub, fun tm => hsub _ ((reportsTo_iff ..).mpr ⟨tm, rfl⟩)⟩
    · exact hapart hne _ _ ((reportsTo_iff ..).mpr ⟨tm, rfl⟩) ((reportsTo_iff ..).mpr ⟨tm', rfl⟩)
  · rintro ⟨hown, hapart⟩
    refine ⟨fun name hname => ?_, fun hne path path' hpath hpath' => ?_⟩
    · obtain ⟨sub, hsub⟩ := hown name hname
      refine ⟨sub, fun path hpath => ?_⟩
      obtain ⟨tm, rfl⟩ := (reportsTo_iff ..).mp hpath
      exact hsub tm
    · obtain ⟨tm, rfl⟩ := (reportsTo_iff ..).mp hpath
      obtain ⟨tm', rfl⟩ := (reportsTo_iff ..).mp hpath'
      exact hapart hne tm tm'

end

section
variable {tm : Tm}

def isFileByte (b : UInt8) : Bool := isDigit b || b ∈ utf8 "-.jsonl"

theorem fileByte_print (n : Nat) : ∀ b ∈ print n, isFileByte b = true := by
  intro b hb
  simp [isFileByte, isDigit_of_mem_print hb]

theorem fileByte_printInt (z : Int) : ∀ b ∈ printInt z, isFileByte b = true := by
  unfold printInt
  split
  · exact List.forall_mem_cons.mpr ⟨by decide +kernel, fileByte_print _⟩
  · exact fileByte_print _

theorem fileByte_setw2 (n : Nat) : ∀ b ∈ setw2 n, isFileByte b = true := by
  unfold setw2
  split
  · exact List.forall_mem_cons.mpr ⟨by decide +kernel, fileByte_print n⟩
  · exact fileByte_print n

theorem fileByte_hourFile (tm : Tm) : ∀ b ∈ hourFile tm, isFileByte b = true := by
  have hdash : isFileByte 0x2D = true := by decide +kernel
  have hext : ∀ b ∈ utf8 ".jsonl", isFileByte b = true := List.all_eq_true.mp (by decide +kernel)
  intro b hb
  simp only [hourFile, List.mem_append, List.mem_cons] at hb
  rcases hb with hb | rfl | hb | rfl | hb | rfl | hb | hb
  · exact fileByte_printInt _ b hb
  · exact hdash
  · exact fileByte_setw2 _ b hb
  · exact hdash
  · exact fileByte_setw2 _ b hb
  · exact hdash
  · exact fileByte_setw2 _ b hb
  · exact hext b hb

theorem notMem_hourFile {b : UInt8} (h : isFileByte b = false) : b ∉ hourFile tm := by
  intro hmem
  rw [fileByte_hourFile tm b hmem] at h
  cases h

theorem ordinary_hourFile (tm : Tm) : hourFile tm ≠ [] ∧ hourFile tm ≠ [0x2E] ∧ hourFile tm ≠ dotdot := by
  have hmem : 0x2D ∈ hourFile tm := by simp [hourFile]
  refine ⟨?_, ?_, ?_⟩
  · intro h
    simp [h] at hmem
  · intro h
    simp [h] at hmem
  · intro h
    simp [h, dotdot] at hmem

end

-- where an entity's files go: a sub-directory, and one fixed file when the name has a NUL
structure Spot where
  sub : Part
  file : Option Part

def Spot.fileAt (s : Spot) (tm : Tm) : Part := s.file.getD (hourFile tm)

-- the name, read from the data directory on, leads one level below it; with a NUL what
-- stands before it leads two levels below
def Owns (dataDir name : Bytes) (s : Spot) : Prop :=
  match s.file with
  | none => 0 ∉ name ∧
      ∃ k, Lands (dataLocation dataDir) (components name) [s.sub] k
  | some file => 0 ∈ name ∧
      ∃ k, Lands (dataLocation dataDir) (components (cString name)) [file, s.sub] k

section
variable {dataDir name : Bytes}

theorem pathOf_of_notMem (hdir : 0 ∉ dataDir) (tm : Tm) :
    pathOf dataDir name tm = dataDir ++ 0x2F :: cString (name ++ 0x2F :: hourFile tm) := by
  rw [pathOf, getHourlyFilename, cString_append_of_notMem hdir]
  simp [cString]

theorem resolve_below (hne : dataDir ≠ []) (hdir : 0 ∉ dataDir) (rest : Bytes) :
    resolve (dataDir ++ 0x2F :: rest) =
      { absolute := (dataLocation dataDir).absolute
        parts := walk (dataLocation dataDir).absolute (dataLocation dataDir).parts
          (components rest) } := by
  have habs : isAbsolute (dataDir ++ 0x2F :: rest) = isAbsolute dataDir := by
    cases dataDir with
    | nil => exact absurd rfl hne
    | cons c cs => rfl
  rw [dataLocation, cString_of_notMem hdir]
  simp [resolve, habs, components_append_slash]

theorem resolve_pathOf (hne : dataDir ≠ []) (hdir : 0 ∉ dataDir)
    (hname : 0 ∉ name) (tm : Tm) :
    resolve (pathOf dataDir name tm) =
      { absolute := (dataLocation dataDir).absolute
        parts := hourFile tm :: walk (dataLocation dataDir).absolute
          (dataLocation dataDir).parts (components name) } := by
  have hhour : 0 ∉ hourFile tm := notMem_hourFile (by decide)
  have hslash : 0x2F ∉ hourFile tm := notMem_hourFile (by decide)
  obtain ⟨hnil, hdot, hdd⟩ := ordinary_hourFile tm
  have hrest : cString (name ++ 0x2F :: hourFile tm) =
      name ++ 0x2F :: hourFile tm :=
    cString_of_notMem (by simp [hname, hhour])
  rw [pathOf_of_notMem hdir, hrest, resolve_below hne hdir, components_append_slash, walk_append,
    components_of_no_slash hslash, walk_singleton, push_ordinary (by simp [hnil, hdot]) hdd]

theorem resolve_pathOf_cut (hne : dataDir ≠ []) (hdir : 0 ∉ dataDir)
    (hname : 0 ∈ name) (tm : Tm) :
    resolve (pathOf dataDir name tm) =
      { absolute := (dataLocation dataDir).absolute
        parts := walk (dataLocation dataDir).absolute (dataLocation dataDir).parts
          (components (cString name)) } := by
  rw [pathOf_of_notMem hdir, cString_append_of_mem hname, resolve_below hne hdir]

theorem not_inSubdirectory_of_bad (h : dataDir = [] ∨ 0 ∈ dataDir) (sub : Part)
    (tm : Tm) : ¬ InSubdirectory dataDir sub (pathOf dataDir name tm) := by
  rintro ⟨-, file, -, heq⟩
  by_cases hnul : 0 ∈ dataDir
  · rw [pathOf, getHourlyFilename, cString_append_of_mem hnul] at heq
    have hlength := congrArg (fun l : Location => l.parts.length) heq
    simp only [dataLocation, List.length_cons] at hlength
    omega
  · obtain rfl := h.resolve_right hnul
    rw [pathOf_of_notMem hnul] at heq
    have habs := congrArg Location.absolute heq
    cases habs

theorem inSubdirectory_of_owns (hne : dataDir ≠ []) (hdir : 0 ∉ dataDir) {s : Spot}
    (h : Owns dataDir name s) (tm : Tm) : s.sub ≠ dotdot ∧ s.fileAt tm ≠ dotdot ∧
      resolve (pathOf dataDir name tm) =
        { absolute := (dataLocation dataDir).absolute
          parts := s.fileAt tm :: s.sub :: (dataLocation dataDir).parts } := by
  obtain ⟨ord, j, hresolved⟩ := exists_resolved (cString dataDir)
  obtain ⟨sub, file⟩ := s
  cases file with
  | none =>
    obtain ⟨hname, k, hlands⟩ := h
    have hsub : dotdot ∉ [sub] := fun hmem => hlands.ordinary (List.mem_append_left _ hmem)
    have hwalk := (walk_eq_iff_lands hresolved hsub).mpr ⟨k, hlands⟩
    refine ⟨fun heq => hsub (List.mem_singleton.mpr heq.symm), (ordinary_hourFile tm).2.2, ?_⟩
    rw [resolve_pathOf hne hdir hname]
    simp only [dataLocation, hwalk]
    rfl
  | some file =>
    obtain ⟨hname, k, hlands⟩ := h
    have hboth : dotdot ∉ [file, sub] := fun hmem => hlands.ordinary (List.mem_append_left _ hmem)
    have hwalk := (walk_eq_iff_lands hresolved hboth).mpr ⟨k, hlands⟩
    simp only [List.mem_cons, List.not_mem_nil, or_false, not_or] at hboth
    refine ⟨Ne.symm hboth.2, Ne.symm hboth.1, ?_⟩
    rw [resolve_pathOf_cut hne hdir hname]
    simp only [dataLocation, hwalk]
    rfl

theorem owns_of_inSubdirectory {sub : Part}
    (h : ∀ tm, InSubdirectory dataDir sub (pathOf dataDir name tm)) :
    dataDir ≠ [] ∧ 0 ∉ dataDir ∧ ∃ s, Owns dataDir name s := by
  have hgood : ¬ (dataDir = [] ∨ 0 ∈ dataDir) := fun hbad =>
    not_inSubdirectory_of_bad hbad sub ⟨0, 0, 0, 0⟩ (h ⟨0, 0, 0, 0⟩)
  obtain ⟨hne, hdir⟩ := not_or.mp hgood
  refine ⟨hne, hdir, ?_⟩
  obtain ⟨ord, j, hresolved⟩ := exists_resolved (cString dataDir)
  obtain ⟨hsub, file, hfile, heq⟩ := h ⟨0, 0, 0, 0⟩
  by_cases hname : 0 ∈ name
  · rw [resolve_pathOf_cut hne hdir hname] at heq
    have hboth : dotdot ∉ [file, sub] := by simp [Ne.symm hfile, Ne.symm hsub]
    exact ⟨⟨sub, some file⟩, hname, (walk_eq_iff_lands hresolved hboth).mp
      (congrArg Location.parts heq)⟩
  · rw [resolve_pathOf hne hdir hname] at heq
    have hone : dotdot ∉ [sub] := by simp [Ne.symm hsub]
    have hparts := congrArg Location.parts heq
    exact ⟨⟨sub, none⟩, hname, (walk_eq_iff_lands hresolved hone).mp (List.cons.inj hparts).2⟩

end

section
variable {F : Type} [DecidableEq F] (fileOf : Bytes → F) (dump : Dump) (uploader : Option (List Record))
  (files : FileStore F)

theorem confined_of_owns {dataDir a b : Bytes} (hne : dataDir ≠ []) (hdir : 0 ∉ dataDir)
    {s t : Spot} (hs : Owns dataDir a s) (ht : Owns dataDir b t)
    (hapart : a ≠ b → ∀ tm tm', s.sub = t.sub → s.fileAt tm ≠ t.fileAt tm') :
    Confined fileOf dump dataDir uploader files a b := by
  refine (confined_iff_paths ..).mpr ⟨?_, fun hab tm tm' heq => ?_⟩
  · have hin {name : Bytes} {u : Spot} (hu : Owns dataDir name u) :
        ∃ sub, ∀ tm, InSubdirectory dataDir sub (pathOf dataDir name tm) := by
      refine ⟨u.sub, fun tm => ?_⟩
      obtain ⟨hsub, hfile, hpath⟩ := inSubdirectory_of_owns hne hdir hu tm
      exact ⟨hsub, u.fileAt tm, hfile, hpath⟩
    intro name hname
    rcases List.mem_cons.mp hname with rfl | hname
    · exact hin hs
    · obtain rfl : name = b := by simpa using hname
      exact hin ht
  · rw [(inSubdirectory_of_owns hne hdir hs tm).2.2,
      (inSubdirectory_of_owns hne hdir ht tm').2.2] at heq
    obtain ⟨hfile, hrest⟩ := List.cons.inj (congrArg Location.parts heq)
    exact hapart hab tm tm' (List.cons.inj hrest).1 hfile

theorem confined_iff (dataDir a b : Bytes) : Confined fileOf dump dataDir uploader files a b ↔
    dataDir ≠ [] ∧ 0 ∉ dataDir ∧ ∃ s t, Owns dataDir a s ∧ Owns dataDir b t ∧
      (a ≠ b → ∀ tm tm', s.sub = t.sub → s.fileAt tm ≠ t.fileAt tm') := by
  constructor
  · intro h
    obtain ⟨hown, hapart⟩ := (confined_iff_paths ..).mp h
    obtain ⟨suba, ha⟩ := hown a (by simp)
    obtain ⟨subb, hb⟩ := hown b (by simp)
    obtain ⟨hne, hdir, s, hs⟩ := owns_of_inSubdirectory ha
    obtain ⟨-, -, t, ht⟩ := owns_of_inSubdirectory hb
    refine ⟨hne, hdir, s, t, hs, ht, fun hab tm tm' hsub hfile => hapart hab tm tm' ?_⟩
    rw [(inSubdirectory_of_owns hne hdir hs tm).2.2, (inSubdirectory_of_owns hne hdir ht tm').2.2,
      hsub, hfile]
  · rintro ⟨hne, hdir, s, t, hs, ht, hapart⟩
    exact confined_of_owns fileOf dump uploader files hne hdir hs ht hapart

theorem parent_name_not_confined :
    ¬ Confined id (fun _ => ⟨[], Nat.zero_le _⟩) (utf8 "/var/phm") none (fun _ => []) (utf8 "..") (utf8 "lidar") := by
  intro h
  obtain ⟨sub, hsub⟩ := ((confined_iff_paths ..).mp h).1 (utf8 "..") (by simp)
  obtain ⟨-, file, -, heq⟩ := hsub ⟨126, 0, 1, 12⟩
  have hlength := congrArg (fun l : Location => l.parts.length) heq
  have hreported : (resolve (pathOf (utf8 "/var/phm") (utf8 "..") ⟨126, 0, 1, 12⟩)).parts.length = 2 := by
    decide +kernel
  have hdir : (dataLocation (utf8 "/var/phm")).parts.length = 2 := by decide +kernel
  simp only [List.length_cons, hreported, hdir] at hlength
  omega

theorem notMem_of_pattern {name : String} (h : entityNamePattern name) {b : UInt8} (hb : b < 0x80)
    (hstart : isIdentifierStart (Char.ofNat b.toNat) = false) (hdigit : (Char.ofNat b.toNat).isDigit = false) :
    b ∉ utf8 name := by
  intro hmem
  obtain ⟨c, hc, hcb⟩ := exists_of_mem_utf8 hb hmem
  rw [← hcb, Char.ofNat_toNat] at hstart hdigit
  unfold entityNamePattern at h
  split at h
  · exact h.elim
  · next d ds hlist =>
    rw [hlist] at hc
    rcases List.mem_cons.mp hc with rfl | hc
    · rw [h.1] at hstart
      cases hstart
    · have hrest := h.2 c hc
      rw [hstart, hdigit] at hrest
      cases hrest

theorem owns_of_pattern {name : String} (dataDir : Bytes) (h : entityNamePattern name) :
    Owns dataDir (utf8 name) ⟨utf8 name, none⟩ := by
  have hslash : 0x2F ∉ utf8 name := notMem_of_pattern h (by decide) (by decide) (by decide)
  have hdot : 0x2E ∉ utf8 name := notMem_of_pattern h (by decide) (by decide) (by decide)
  have hne : utf8 name ≠ [] := by
    intro hnil
    rw [utf8_injective (hnil.trans (show [] = utf8 "" from rfl))] at h
    exact h
  have hskip : ¬ (utf8 name = [] ∨ utf8 name = [0x2E]) := by
    rintro (hnil | hone)
    · exact hne hnil
    · simp [hone] at hdot
  have hdd : utf8 name ≠ dotdot := by
    intro heq
    simp [heq, dotdot] at hdot
  refine ⟨notMem_of_pattern h (by decide) (by decide) (by decide), 0, ?_, ?_, .inr (Nat.zero_le _)⟩
  · rw [components_of_no_slash hslash, walk_singleton, push_ordinary hskip hdd]
    simp
  · simpa using Ne.symm hdd

theorem confined_of_pattern {dataDir : Bytes} {a b : String} (hne : dataDir ≠ []) (hdir : 0 ∉ dataDir)
    (ha : entityNamePattern a) (hb : entityNamePattern b) :
    Confined fileOf dump dataDir uploader files (utf8 a) (utf8 b) := by
  refine confined_of_owns fileOf dump uploader files hne hdir (owns_of_pattern dataDir ha)
    (owns_of_pattern dataDir hb) fun hab tm tm' hsub _ => ?_
  exact hab hsub

end

end DataReporter

end PlatformHealth
