import PlatformHealth.Channel.HealthChannel
import PlatformHealth.Library.ByteString
import PlatformHealth.Library.Decimal

namespace PlatformHealth

open ByteString Decimal

inductive DirentType
  | unknown
  | fifo
  | chr
  | dir
  | blk
  | reg
  | lnk
  | sock
  | wht
deriving DecidableEq

structure Dirent where
  dName : Bytes
  dType : DirentType
  noNul : 0 ∉ dName
deriving DecidableEq

-- none where the call fails
structure ProcFs where
  opendir : Bytes → Option (List Dirent)
  fopen : Bytes → Option Bytes

def snprintf (size : Nat) (text : Bytes) : Bytes := text.take (size - 1)

-- "/proc/%d/" and the name of a file there, into char path[64]
def procPath (pid : Int) (leaf : String) : Bytes :=
  snprintf 64 (utf8 "/proc/" ++ printInt pid ++ utf8 "/" ++ utf8 leaf)

def IsPid (z : Int) : Prop := -2 ^ 31 ≤ z ∧ z < 2 ^ 31

instance (z : Int) : Decidable (IsPid z) := inferInstanceAs (Decidable (_ ∧ _))

-- long to pid_t
def toPid (z : Int) : Int := z.bmod (2 ^ 32)

section
variable {p q : Int} {leaf : String}

theorem isPid_toPid (z : Int) : IsPid (toPid z) := by
  have hlow := Int.le_bmod (x := z) (m := 2 ^ 32) (by decide)
  have hhigh := Int.bmod_lt (x := z) (m := 2 ^ 32) (by decide)
  unfold IsPid toPid
  omega

theorem toPid_of_isPid (h : IsPid p) : toPid p = p := by
  unfold IsPid at h
  exact Int.bmod_eq_of_le (by omega) (by omega)

theorem length_printInt_le (h : IsPid p) : (printInt p).length ≤ 11 := by
  have hdigits : (print p.natAbs).length ≤ 10 := by
    rw [print, List.length_map, Nat.length_toDigits_le_iff (by decide) (by decide)]
    unfold IsPid at h
    omega
  unfold printInt
  split_ifs
  · simp only [List.length_cons]
    omega
  · omega

theorem procPath_eq (h : IsPid p) (hleaf : (utf8 leaf).length ≤ 45) :
    procPath p leaf = utf8 "/proc/" ++ printInt p ++ utf8 "/" ++ utf8 leaf := by
  have hprint := length_printInt_le h
  have hproc : (utf8 "/proc/").length = 6 := rfl
  have hslash : (utf8 "/").length = 1 := rfl
  refine List.take_of_length_le ?_
  simp only [List.length_append]
  omega

theorem procPath_inj (hp : IsPid p) (hq : IsPid q) (hleaf : (utf8 leaf).length ≤ 45) :
    procPath p leaf = procPath q leaf ↔ p = q := by
  refine ⟨fun h => ?_, fun h => by rw [h]⟩
  rw [procPath_eq hp hleaf, procPath_eq hq hleaf] at h
  exact printInt_injective (by simpa using h)

end

end PlatformHealth
