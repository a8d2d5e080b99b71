import PlatformHealth.Platform.ProcFiles

namespace PlatformHealth

open ByteString Decimal

def countEntries (dir : Option (List Dirent)) : UInt32 :=
  match dir with
  | none => 0
  | some entries =>
    let count := entries.foldl (fun count entry =>
      if entry.dType = .lnk ∨ entry.dType = .unknown then count + 1 else count) (0 : UInt32)
    if count > 2 then count - 2 else 0

def LinuxPlatform.getOpenFileCount (files : ProcFs) (pid : Int) : UInt32 :=
  countEntries (files.opendir (procPath pid "fd"))

def ProcessResourceReporter.readSelfOpenFdCount (files : ProcFs) : UInt32 :=
  countEntries (files.opendir (utf8 "/proc/self/fd"))

-- a directory of descriptors, its entries in whatever order readdir has them
structure FdListing where
  dot : Dirent
  dotdot : Dirent
  descriptors : List Dirent
  entries : List Dirent
  dotName : dot.dName = utf8 "."
  dotdotName : dotdot.dName = utf8 ".."
  dotTypes : ∀ d ∈ [dot, dotdot], d.dType = .dir ∨ d.dType = .unknown
  descriptorNames : ∀ d ∈ descriptors, ∃ fd : Nat, d.dName = print fd
  descriptorTypes : ∀ d ∈ descriptors, d.dType = .lnk ∨ d.dType = .unknown
  listed : entries.Perm (dot :: dotdot :: descriptors)

def counted (entry : Dirent) : Bool := entry.dType = .lnk ∨ entry.dType = .unknown

theorem toNat_foldl_count (entries : List Dirent) (count : UInt32) :
    (entries.foldl (fun count entry =>
      if entry.dType = .lnk ∨ entry.dType = .unknown then count + 1 else count) count).toNat =
      (count.toNat + entries.countP counted) % 2 ^ 32 := by
  induction entries generalizing count with
  | nil => exact (Nat.mod_eq_of_lt count.toNat_lt).symm
  | cons entry entries ih =>
    rw [List.foldl_cons, ih]
    by_cases h : entry.dType = .lnk ∨ entry.dType = .unknown
    · rw [if_pos h, List.countP_cons_of_pos (by simpa [counted] using h), UInt32.toNat_add]
      simp only [UInt32.toNat_one]
      omega
    · rw [if_neg h, List.countP_cons_of_neg (by simpa [counted] using h)]

theorem toNat_countEntries (entries : List Dirent) :
    (countEntries (some entries)).toNat = entries.countP counted % 2 ^ 32 - 2 := by
  have hcount := toNat_foldl_count entries 0
  rw [UInt32.toNat_zero, Nat.zero_add] at hcount
  simp only [countEntries]
  generalize entries.foldl _ (0 : UInt32) = count at *
  rw [← hcount]
  split_ifs with h
  · have hle : (2 : UInt32) ≤ count := UInt32.le_of_lt h
    exact UInt32.toNat_sub_of_le _ _ hle
  · have hle : count.toNat ≤ 2 := UInt32.not_lt.mp h
    rw [UInt32.toNat_zero]
    omega

namespace FdListing

-- the two entries that are subtracted have been counted, and the count has not wrapped around
def Counts (l : FdListing) : Prop :=
  l.dot.dType = .unknown ∧ l.dotdot.dType = .unknown ∧ l.descriptors.length + 2 < 2 ^ 32

theorem countP_entries (l : FdListing) :
    l.entries.countP counted = l.descriptors.length +
      ((if l.dot.dType = .unknown then 1 else 0) + if l.dotdot.dType = .unknown then 1 else 0) := by
  have hdescriptors : l.descriptors.countP counted = l.descriptors.length := by
    rw [List.countP_eq_length]
    intro d hd
    simpa [counted] using l.descriptorTypes d hd
  have hdot (d : Dirent) (hd : d ∈ [l.dot, l.dotdot]) :
      (if counted d = true then 1 else 0) = if d.dType = .unknown then 1 else 0 := by
    rcases l.dotTypes d hd with h | h <;> simp [counted, h]
  rw [l.listed.countP_eq, List.countP_cons, List.countP_cons, hdescriptors, hdot l.dot (by simp),
    hdot l.dotdot (by simp)]
  omega

theorem toNat_entries_iff (l : FdListing) :
    (countEntries (some l.entries)).toNat = l.descriptors.length ↔ l.descriptors = [] ∨ l.Counts := by
  rw [toNat_countEntries, l.countP_entries, ← List.length_eq_zero_iff, Counts]
  split_ifs with hdot hdotdot hdotdot <;> simp only [hdot, hdotdot, true_and, false_and, or_false] <;> omega

structure ReadBy (l : FdListing) (files : ProcFs) (pid : Int) : Prop where
  platform : files.opendir (procPath pid "fd") = some l.entries
  reporter : files.opendir (utf8 "/proc/self/fd") = some l.entries

structure Exact (l : FdListing) (files : ProcFs) (pid : Int) : Prop where
  platform : (LinuxPlatform.getOpenFileCount files pid).toNat = l.descriptors.length
  reporter : (ProcessResourceReporter.readSelfOpenFdCount files).toNat = l.descriptors.length

theorem fdCounts_exact_iff {l : FdListing} {files : ProcFs} {pid : Int} (h : l.ReadBy files pid) :
    l.Exact files pid ↔ l.descriptors = [] ∨ l.Counts := by
  have hcount := l.toNat_entries_iff
  have hplatform : LinuxPlatform.getOpenFileCount files pid = countEntries (some l.entries) :=
    congrArg countEntries h.platform
  have hreporter : ProcessResourceReporter.readSelfOpenFdCount files = countEntries (some l.entries) :=
    congrArg countEntries h.reporter
  constructor
  · intro hexact
    exact hcount.mp (hplatform ▸ hexact.platform)
  · intro hcounts
    exact ⟨hplatform ▸ hcount.mpr hcounts, hreporter ▸ hcount.mpr hcounts⟩

def descriptor (fd : Nat) (type : DirentType) : Dirent := ⟨print fd, type, zero_notMem_print fd⟩

def standardStreams (type : DirentType) (h : type = .dir ∨ type = .unknown) : FdListing where
  dot := ⟨utf8 ".", type, by decide⟩
  dotdot := ⟨utf8 "..", type, by decide⟩
  descriptors := [descriptor 0 .lnk, descriptor 1 .lnk, descriptor 2 .lnk]
  entries := [⟨utf8 ".", type, by decide⟩, ⟨utf8 "..", type, by decide⟩, descriptor 0 .lnk,
    descriptor 1 .lnk, descriptor 2 .lnk]
  dotName := rfl
  dotdotName := rfl
  dotTypes := by simpa using h
  descriptorNames := by simp [descriptor]
  descriptorTypes := by simp [descriptor]
  listed := .refl _

def files (l : FdListing) (pid : Int) : ProcFs where
  opendir path :=
    if path = procPath pid "fd" ∨ path = utf8 "/proc/self/fd" then some l.entries else none
  fopen _ := none

theorem readBy_files (l : FdListing) (pid : Int) : l.ReadBy (l.files pid) pid := ⟨by simp [files], by simp [files]⟩

theorem untyped_streams_exact :
    let l := standardStreams .unknown (.inr rfl)
    l.Exact (l.files 812) 812 := by
  intro l
  exact (fdCounts_exact_iff (l.readBy_files 812)).mpr (.inr ⟨rfl, rfl, by decide⟩)

theorem typed_streams_counted_as_one :
    let l := standardStreams .dir (.inl rfl)
    l.ReadBy (l.files 812) 812 ∧ LinuxPlatform.getOpenFileCount (l.files 812) 812 = 1 ∧
      ProcessResourceReporter.readSelfOpenFdCount (l.files 812) = 1 ∧ ¬ l.Exact (l.files 812) 812 := by
  intro l
  have hone : LinuxPlatform.getOpenFileCount (l.files 812) 812 = 1 := by decide
  refine ⟨l.readBy_files 812, hone, by decide, fun h => ?_⟩
  have hthree := h.platform
  rw [hone] at hthree
  exact absurd hthree (by decide)

end FdListing

end PlatformHealth
