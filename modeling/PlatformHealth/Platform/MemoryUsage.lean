import PlatformHealth.Platform.SystemStat

namespace PlatformHealth

open ByteString Decimal Scanf

-- "VmRSS: %lu kB", where unsigned long is 64 bits wide
def vmRssDirectives : List Directive :=
  (utf8 "VmRSS:").map .ordinary ++ [.space, .unsignedLongLong, .space] ++ (utf8 "kB").map .ordinary

-- the loop over fgets, which reads a byte at least at each turn
def readRss : Nat → Bytes → UInt64
  | 0, _ => 0
  | fuel + 1, content =>
    match fgets 256 content with
    | none => 0
    | some line =>
      let outcome := scan vmRssDirectives (cString line)
      if outcome.rc = 1 then outcome.assigned.getD 0 0 * 1024
      else readRss fuel (content.drop line.length)

def readVmRSS (files : ProcFs) (pid : Int) : UInt64 :=
  match files.fopen (procPath pid "status") with
  | none => 0
  | some content => readRss content.length content

def LinuxPlatform.getMemoryUsageBytes (files : ProcFs) (pid : Int) : UInt64 := readVmRSS files pid

section
variable {line rest content word s : Bytes} {ds : List Directive} {fuel : Nat} {v : UInt64}

theorem prefix_of_scan (h : (scan (word.map .ordinary ++ ds) s).assigned ≠ []) : word <+: s := by
  induction word generalizing s with
  | nil => exact List.nil_prefix
  | cons b word ih =>
    cases s with
    | nil => exact absurd rfl h
    | cons x s =>
      rcases eq_or_ne x b with rfl | hne
      · rw [List.map_cons, List.cons_append, scan_ordinary] at h
        exact List.cons_prefix_cons.mpr ⟨rfl, ih h⟩
      · have herror : (Directive.ordinary b).read (x :: s) = .error .matching := if_neg hne
        rw [List.map_cons, List.cons_append, scan_of_error herror] at h
        exact absurd rfl h

theorem prefix_of_rc (h : (scan vmRssDirectives (cString s)).rc = 1) : utf8 "VmRSS:" <+: s := by
  have hassigned : (scan vmRssDirectives (cString s)).assigned ≠ [] := by
    intro hnil
    rw [Outcome.rc, hnil] at h
    split at h <;> cases h
  rw [vmRssDirectives, List.append_assoc] at hassigned
  exact (prefix_of_scan hassigned).trans (List.takeWhile_prefix _)

def Keyless (line : Bytes) : Prop := ∀ k, ¬ utf8 "VmRSS:" <+: line.drop (255 * k)

theorem Keyless.drop (h : Keyless line) : Keyless (line.drop 255) := by
  intro k hk
  refine h (k + 1) ?_
  rwa [List.drop_drop, Nat.add_comm, ← Nat.mul_succ] at hk

theorem keyless_of_short (hlength : line.length ≤ 255) (h : ¬ utf8 "VmRSS:" <+: line) : Keyless line := by
  intro k
  cases k with
  | zero => exact h
  | succ k =>
    rw [List.drop_eq_nil_of_le (by omega)]
    decide

def RssIs (content : Bytes) (v : UInt64) : Prop := ∀ fuel, content.length ≤ fuel → readRss fuel content = v

theorem fgets_short (hnl : 10 ∉ line) (hlength : line.length ≤ 254) :
    fgets 256 (line ++ 10 :: rest) = some (line ++ [10]) := by
  rw [fgets_front (by omega) hnl (by simp), fgets, if_neg (by simp)]
  obtain ⟨k, hk⟩ : ∃ k, 256 - line.length - 1 = k + 1 := ⟨254 - line.length, by omega⟩
  rw [hk]
  simp

theorem fgets_long (hnl : 10 ∉ line) (hlength : 254 < line.length) :
    fgets 256 (line ++ 10 :: rest) = some (line.take 255) := by
  have hfront : (line.take 255).length = 255 := by
    rw [List.length_take]
    omega
  have hsplit : line ++ 10 :: rest = line.take 255 ++ (line.drop 255 ++ 10 :: rest) := by
    rw [← List.append_assoc, List.take_append_drop]
  rw [hsplit, fgets_front (by omega) (fun hmem => hnl (List.mem_of_mem_take hmem)) (by simp), hfront]
  simp [fgets]

theorem prefix_of_newline (h : utf8 "VmRSS:" <+: line ++ [10]) : utf8 "VmRSS:" <+: line := by
  rcases List.prefix_concat_iff.mp h with heq | hprefix
  · have hmem : (10 : UInt8) ∈ utf8 "VmRSS:" := heq ▸ List.mem_append_right line List.mem_cons_self
    exact absurd hmem (by decide)
  · exact hprefix

theorem RssIs.skip (h : RssIs rest v) (hnl : 10 ∉ line) (hkeyless : Keyless line) :
    RssIs (line ++ 10 :: rest) v := by
  induction hn : line.length using Nat.strong_induction_on generalizing line with
  | _ n ih =>
    intro fuel hfuel
    simp only [List.length_append, List.length_cons] at hfuel
    obtain ⟨fuel, rfl⟩ : ∃ k, fuel = k + 1 := ⟨fuel - 1, by omega⟩
    rcases Nat.lt_or_ge 254 line.length with hlong | hshort
    · have hother : ¬ (scan vmRssDirectives (cString (line.take 255))).rc = 1 := fun hrc =>
        hkeyless 0 ((prefix_of_rc hrc).trans (List.take_prefix 255 line))
      have htaken : (line.take 255).length = 255 := by
        rw [List.length_take]
        omega
      have hleft : (line ++ 10 :: rest).drop 255 = line.drop 255 ++ 10 :: rest :=
        List.drop_append_of_le_length (by omega)
      rw [readRss, fgets_long hnl hlong]
      dsimp only
      rw [if_neg hother, htaken, hleft]
      refine ih (line.drop 255).length ?_ (fun hmem => hnl (List.mem_of_mem_drop hmem)) hkeyless.drop rfl fuel ?_
      · rw [List.length_drop]
        omega
      · simp only [List.length_append, List.length_drop, List.length_cons]
        omega
    · have hother : ¬ (scan vmRssDirectives (cString (line ++ [10]))).rc = 1 := fun hrc =>
        hkeyless 0 (prefix_of_newline (prefix_of_rc hrc))
      have hleft : (line ++ 10 :: rest).drop (line ++ [10]).length = rest := by
        simp
      rw [readRss, fgets_short hnl hshort]
      dsimp only
      rw [if_neg hother, hleft]
      exact h fuel (by omega)

theorem RssIs.skip_all {lines : List Bytes} (h : RssIs rest v)
    (hlines : ∀ line ∈ lines, 10 ∉ line ∧ Keyless line) : RssIs (lines.flatMap (· ++ [10]) ++ rest) v := by
  induction lines with
  | nil => exact h
  | cons line lines ih =>
    obtain ⟨⟨hnl, hkeyless⟩, hothers⟩ := List.forall_mem_cons.mp hlines
    rw [List.flatMap_cons, List.append_assoc, List.append_assoc]
    exact (ih hothers).skip hnl hkeyless

theorem rssIs_nil : RssIs [] 0 := by
  intro fuel _
  cases fuel <;> rfl

-- the kernel pads the number with blanks
def rssLine (pad : Nat) (kb : UInt64) : Bytes :=
  utf8 "VmRSS:\t" ++ List.replicate pad 32 ++ print kb.toNat ++ utf8 " kB"

theorem not_mem_rssLine {b : UInt8} (hdigit : isDigit b = false) (hkey : b ∉ utf8 "VmRSS:\t") (hblank : b ≠ 32)
    (hunit : b ∉ utf8 " kB") (pad : Nat) (kb : UInt64) : b ∉ rssLine pad kb := by
  have hprint : b ∉ print kb.toNat := fun hmem => by
    rw [isDigit_of_mem_print hmem] at hdigit
    cases hdigit
  simp only [rssLine, List.mem_append, not_or]
  exact ⟨⟨⟨hkey, fun hmem => hblank (List.eq_of_mem_replicate hmem)⟩, hprint⟩, hunit⟩

theorem length_rssLine_le (pad : Nat) (kb : UInt64) : (rssLine pad kb).length ≤ pad + 30 := by
  have hkey : (utf8 "VmRSS:\t").length = 7 := rfl
  have hunit : (utf8 " kB").length = 3 := rfl
  have hdigits : (print kb.toNat).length ≤ 20 := by
    have hlt := kb.toNat_lt
    rw [print, List.length_map, Nat.length_toDigits_le_iff (by decide) (by decide)]
    omega
  simp only [rssLine, List.length_append, List.length_replicate]
  omega

theorem dropWhile_pad (pad n : Nat) (rest : Bytes) :
    (List.replicate pad 32 ++ (print n ++ rest)).dropWhile isSpace = print n ++ rest := by
  rw [List.dropWhile_append_of_pos fun b hb => by rw [List.eq_of_mem_replicate hb]; decide]
  obtain ⟨b, digits, hprint⟩ := List.exists_cons_of_ne_nil (print_ne_nil n)
  have hdigit : isDigit b = true := isDigit_of_mem_print (m := n) (by rw [hprint]; exact List.mem_cons_self)
  rw [hprint, List.cons_append, List.dropWhile_cons_of_neg]
  rw [not_space_of_digit hdigit]
  exact Bool.false_ne_true

theorem scan_rssLine (pad : Nat) (kb : UInt64) :
    scan vmRssDirectives (rssLine pad kb ++ [10]) = ⟨[kb], none⟩ := by
  have hkey : utf8 "VmRSS:" = [86, 109, 82, 83, 83, 58] := rfl
  have hfront : utf8 "VmRSS:\t" = [86, 109, 82, 83, 83, 58, 9] := rfl
  have hdrop : (9 :: (List.replicate pad 32 ++ (print kb.toNat ++ (utf8 " kB" ++ [10])))).dropWhile isSpace =
      print kb.toNat ++ (utf8 " kB" ++ [10]) := by
    rw [List.dropWhile_cons_of_pos (by decide)]
    exact dropWhile_pad pad kb.toNat _
  rw [vmRssDirectives, hkey, rssLine, hfront]
  simp only [List.map_cons, List.map_nil, List.cons_append, List.nil_append, List.append_assoc, scan_ordinary]
  have hunit : NoDigit (utf8 " kB" ++ [10]) := noDigit_cons.mpr (by decide)
  rw [scan_space, hdrop, scan_unsignedLongLong kb hunit]
  rfl

theorem rssIs_line {pad : Nat} (hpad : pad ≤ 200) (kb : UInt64) (rest : Bytes) :
    RssIs (rssLine pad kb ++ 10 :: rest) (kb * 1024) := by
  intro fuel hfuel
  simp only [List.length_append, List.length_cons] at hfuel
  obtain ⟨fuel, rfl⟩ : ∃ k, fuel = k + 1 := ⟨fuel - 1, by omega⟩
  have hnl : 10 ∉ rssLine pad kb := not_mem_rssLine (by decide) (by decide) (by decide) (by decide) pad kb
  have hnul : 0 ∉ rssLine pad kb := not_mem_rssLine (by decide) (by decide) (by decide) (by decide) pad kb
  have hlength := length_rssLine_le pad kb
  have hline : cString (rssLine pad kb ++ [10]) = rssLine pad kb ++ [10] :=
    cString_of_notMem (by simp [hnul])
  rw [readRss, fgets_short hnl (by omega)]
  dsimp only
  rw [hline, scan_rssLine]
  rfl

end

-- /proc/<pid>/status: the lines before VmRSS, and what follows it; a kernel thread has no VmRSS
structure StatusFile where
  before : List Bytes
  vmRss : Option (Nat × UInt64)
  after : Bytes
  lines : ∀ line ∈ before, 10 ∉ line ∧ Keyless line
  padded : ∀ rss ∈ vmRss, rss.1 ≤ 200

namespace StatusFile

def text (f : StatusFile) : Bytes :=
  f.before.flatMap (· ++ [10]) ++ f.vmRss.elim [] fun rss => rssLine rss.1 rss.2 ++ 10 :: f.after

theorem rssIs_text (f : StatusFile) : RssIs f.text (f.vmRss.elim 0 fun rss => rss.2 * 1024) := by
  unfold text
  cases hrss : f.vmRss with
  | none => exact rssIs_nil.skip_all f.lines
  | some rss => exact (rssIs_line (f.padded rss hrss) rss.2 f.after).skip_all f.lines

theorem getMemoryUsageBytes_text (f : StatusFile) {files : ProcFs} {pid : Int}
    (h : files.fopen (procPath pid "status") = some f.text) :
    (LinuxPlatform.getMemoryUsageBytes files pid).toNat =
      (f.vmRss.elim 0 fun rss => rss.2.toNat * 1024) % 2 ^ 64 := by
  have hread : LinuxPlatform.getMemoryUsageBytes files pid = f.vmRss.elim 0 fun rss => rss.2 * 1024 := by
    rw [LinuxPlatform.getMemoryUsageBytes, readVmRSS, h]
    exact f.rssIs_text _ le_rfl
  rw [hread]
  cases f.vmRss with
  | none => rfl
  | some rss => exact UInt64.toNat_mul rss.2 1024

def camera : StatusFile where
  before := [utf8 "Name:\tVmRSS: 9", utf8 "VmHWM:\t   18236 kB"]
  vmRss := some (3, 18200)
  after := utf8 "RssAnon:\t    7460 kB\n"
  lines := by
    simp only [List.mem_cons, List.not_mem_nil, or_false, forall_eq_or_imp, forall_eq]
    exact ⟨⟨by decide, keyless_of_short (by decide) (by decide)⟩,
      ⟨by decide, keyless_of_short (by decide) (by decide)⟩⟩
  padded := by simp

def files (f : StatusFile) : ProcFs where
  opendir _ := none
  fopen path := if path = procPath 640 "status" then some f.text else none

theorem camera_memory_read :
    (LinuxPlatform.getMemoryUsageBytes camera.files 640).toNat = 18200 * 1024 :=
  camera.getMemoryUsageBytes_text (by simp [files])

end StatusFile

end PlatformHealth
