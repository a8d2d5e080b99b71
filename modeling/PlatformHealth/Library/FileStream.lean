import Mathlib.Data.List.Basic
import Mathlib.Logic.Function.Basic

-- std::ofstream in append mode, over files that only grow
namespace FileStream

variable {N F : Type}

abbrev FileStore (F : Type) := F → List UInt8

def append [DecidableEq F] (files : FileStore F) (f : F) (bytes : List UInt8) : FileStore F :=
  Function.update files f (files f ++ bytes)

def contents [DecidableEq F] (log : List (F × List UInt8)) (f : F) : List UInt8 :=
  (log.filter (·.1 = f)).flatMap Prod.snd

def taken (room : Option Nat) (bytes : List UInt8) : List UInt8 :=
  match room with
  | none => bytes
  | some n => bytes.take n

def Takes (room : Option Nat) (bytes : List UInt8) : Prop := ∀ n ∈ room, bytes.length ≤ n

instance (room : Option Nat) (bytes : List UInt8) : Decidable (Takes room bytes) :=
  match room with
  | none => .isTrue (by rintro n ⟨⟩)
  | some n => decidable_of_iff (bytes.length ≤ n) (by simp [Takes])

-- name is what open() was last given, while is_open(); fail stays set until an open() succeeds
structure OFStream (N : Type) where
  name : Option N := none
  fail : Bool := false
deriving DecidableEq

namespace OFStream

def isOpen (s : OFStream N) : Bool := s.name.isSome

-- bytes that a failed flush has left in the buffer, and close() tries again, are left out
def close (s : OFStream N) : OFStream N := { s with name := none }

def openAppend (s : OFStream N) (name : N) (opens : Bool) : OFStream N :=
  if opens then { name := some name } else { s with fail := true }

-- with the flush that follows it
def write (s : OFStream N) (room : Option Nat) (bytes : List UInt8) : OFStream N :=
  { s with fail := s.fail || decide ¬ Takes room bytes }

def output (s : OFStream N) (room : Option Nat) (bytes : List UInt8) : List UInt8 :=
  if s.isOpen && !s.fail then taken room bytes else []

end OFStream

section
variable {room : Option Nat} {bytes : List UInt8} {s : OFStream N}

theorem taken_of_takes (h : Takes room bytes) : taken room bytes = bytes := by
  cases room with
  | none => rfl
  | some n => exact List.take_of_length_le (h n rfl)

theorem length_taken_lt (h : ¬ Takes room bytes) : (taken room bytes).length < bytes.length := by
  cases room with
  | none => exact absurd (by rintro n ⟨⟩) h
  | some n =>
    have hn : n < bytes.length := by simpa [Takes] using h
    rw [taken, List.length_take]
    omega

theorem output_of_takes {name : N} (hname : s.name = some name) (hfail : s.fail = false)
    (h : Takes room bytes) : s.output room bytes = bytes := by
  simp [OFStream.output, OFStream.isOpen, hname, hfail, taken_of_takes h]

theorem output_of_fail (h : s.fail = true) : s.output room bytes = [] := by
  simp [OFStream.output, h]

theorem length_output_lt (h : ¬ Takes room bytes) : (s.output room bytes).length < bytes.length := by
  unfold OFStream.output
  split
  · exact length_taken_lt h
  · exact Nat.lt_of_le_of_lt (Nat.zero_le _) (length_taken_lt h)

theorem write_of_takes (h : Takes room bytes) : s.write room bytes = s := by
  simp [OFStream.write, h]

variable [DecidableEq F]

theorem append_apply (files : FileStore F) (f g : F) (bytes : List UInt8) :
    append files f bytes g = files g ++ if g = f then bytes else [] := by
  unfold append
  by_cases h : g = f
  · subst h
    simp
  · simp [h]

theorem contents_cons (entry : F × List UInt8) (log : List (F × List UInt8)) (f : F) :
    contents (entry :: log) f = (if f = entry.1 then entry.2 else []) ++ contents log f := by
  unfold contents
  by_cases h : f = entry.1
  · simp [h]
  · simp [h, Ne.symm h]

end

end FileStream
