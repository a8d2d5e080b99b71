import Mathlib.Data.List.Basic
import Mathlib.Data.List.Induction

namespace Path

abbrev Part := List UInt8

def dotdot : Part := [0x2E, 0x2E]

def components : List UInt8 → List Part
  | [] => [[]]
  | c :: cs =>
    if c = 0x2F then [] :: components cs
    else
      match components cs with
      | [] => [[c]]
      | p :: ps => (c :: p) :: ps

-- parts are kept last first, so ".." takes one off the front
def up (absolute : Bool) : List Part → List Part
  | [] => if absolute then [] else [dotdot]
  | top :: rest => if top = dotdot then dotdot :: top :: rest else rest

def push (absolute : Bool) (parts : List Part) (p : Part) : List Part :=
  if p = [] ∨ p = [0x2E] then parts
  else if p = dotdot then up absolute parts
  else p :: parts

def walk (absolute : Bool) (parts : List Part) (ps : List Part) : List Part :=
  ps.foldl (push absolute) parts

structure Location where
  absolute : Bool
  parts : List Part
deriving DecidableEq

def isAbsolute (path : List UInt8) : Bool := path.head? = some 0x2F

def resolve (path : List UInt8) : Location where
  absolute := isAbsolute path
  parts := walk (isAbsolute path) [] (components path)

section
variable (absolute : Bool) (parts ps qs : List Part) (p : Part)

@[simp] theorem walk_nil : walk absolute parts [] = parts := rfl

@[simp] theorem walk_append :
    walk absolute parts (ps ++ qs) = walk absolute (walk absolute parts ps) qs :=
  List.foldl_append

@[simp] theorem walk_singleton : walk absolute parts [p] = push absolute parts p := rfl

theorem components_ne_nil (cs : List UInt8) : components cs ≠ [] := by
  cases cs with
  | nil => simp [components]
  | cons c cs =>
    simp only [components]
    split
    · simp
    · split <;> simp

theorem components_append_slash (xs ys : List UInt8) :
    components (xs ++ 0x2F :: ys) = components xs ++ components ys := by
  induction xs with
  | nil => simp [components]
  | cons x xs ih =>
    by_cases hx : x = 0x2F
    · simp [components, hx, ih]
    · cases hcomp : components xs with
      | nil => exact absurd hcomp (components_ne_nil xs)
      | cons q qs => simp [components, hx, ih, hcomp]

theorem components_of_no_slash {cs : List UInt8} (h : 0x2F ∉ cs) : components cs = [cs] := by
  induction cs with
  | nil => rfl
  | cons c cs ih =>
    have hc : c ≠ 0x2F := fun heq => h (by simp [heq])
    have hcs : 0x2F ∉ cs := fun hmem => h (by simp [hmem])
    simp [components, hc, ih hcs]

end

structure Normal (parts : List Part) (names : List Part) (k : Nat) : Prop where
  eq : parts = names ++ List.replicate k dotdot
  ordinary : dotdot ∉ names

section
variable {absolute : Bool} {parts names : List Part} {k : Nat}

theorem push_ordinary {p : Part} (h : ¬ (p = [] ∨ p = [0x2E])) (hd : p ≠ dotdot) :
    push absolute parts p = p :: parts := by
  rw [push, if_neg h, if_neg hd]

theorem push_skip {p : Part} (h : p = [] ∨ p = [0x2E]) : push absolute parts p = parts := by
  rw [push, if_pos h]

theorem push_dotdot : push absolute parts dotdot = up absolute parts := rfl

theorem up_ordinary {top : Part} (h : top ≠ dotdot) : up absolute (top :: parts) = parts := by
  rw [up, if_neg h]

theorem exists_normal (ps : List Part) : ∃ names k, Normal (walk false [] ps) names k ∧
    ∀ absolute parts, walk absolute parts ps =
      names ++ walk absolute parts (List.replicate k dotdot) := by
  induction ps using List.reverseRecOn with
  | nil => exact ⟨[], 0, ⟨rfl, by simp⟩, fun _ _ => rfl⟩
  | append_singleton ps p ih =>
    obtain ⟨names, k, ⟨heq, hordinary⟩, hwalk⟩ := ih
    by_cases hskip : p = [] ∨ p = [0x2E]
    · refine ⟨names, k, ⟨?_, hordinary⟩, fun absolute parts => ?_⟩
      · rw [walk_append, walk_singleton, push_skip hskip, heq]
      · rw [walk_append, walk_singleton, push_skip hskip, hwalk]
    · by_cases hd : p = dotdot
      · subst hd
        cases names with
        | nil =>
          refine ⟨[], k + 1, ⟨?_, by simp⟩, fun absolute parts => ?_⟩
          · rw [walk_append, walk_singleton, heq]
            cases k with
            | zero => rfl
            | succ k => simp [push_dotdot, up, List.replicate_succ]
          · rw [walk_append, hwalk, List.replicate_succ', walk_append]
            rfl
        | cons top names =>
          have htop : top ≠ dotdot := fun h => hordinary (by simp [h])
          refine ⟨names, k, ⟨?_, fun h => hordinary (by simp [h])⟩, fun absolute parts => ?_⟩
          · rw [walk_append, walk_singleton, heq, List.cons_append, push_dotdot,
              up_ordinary htop]
          · rw [walk_append, walk_singleton, hwalk, List.cons_append, push_dotdot,
              up_ordinary htop]
      · refine ⟨p :: names, k, ⟨?_, ?_⟩, fun absolute parts => ?_⟩
        · rw [walk_append, walk_singleton, heq, push_ordinary hskip hd, List.cons_append]
        · simpa using ⟨Ne.symm hd, hordinary⟩
        · rw [walk_append, walk_singleton, hwalk, push_ordinary hskip hd, List.cons_append]

theorem Normal.count (h : Normal parts names k) : parts.count dotdot = k := by
  rw [h.eq, List.count_append, List.count_eq_zero.mpr h.ordinary, List.count_replicate_self,
    Nat.zero_add]

theorem Normal.unique {names' : List Part} {k' : Nat} (h : Normal parts names k)
    (h' : Normal parts names' k') : names = names' ∧ k = k' := by
  have hk : k = k' := h.count.symm.trans h'.count
  subst hk
  exact ⟨List.append_cancel_right (h.eq.symm.trans h'.eq), rfl⟩

theorem walk_over (h : dotdot ∉ names) (rest : List Part) :
    walk absolute (names ++ rest) (List.replicate names.length dotdot) = rest := by
  induction names with
  | nil => rfl
  | cons top names ih =>
    have htop : top ≠ dotdot := fun heq => h (by simp [heq])
    have hup : push absolute (top :: (names ++ rest)) dotdot = names ++ rest :=
      push_dotdot.trans (up_ordinary htop)
    rw [List.length_cons, List.replicate_succ, List.cons_append, walk, List.foldl_cons, hup]
    exact ih (fun hmem => h (by simp [hmem]))

theorem walk_root (k : Nat) : walk true [] (List.replicate k dotdot) = [] := by
  induction k with
  | zero => rfl
  | succ k ih => rw [List.replicate_succ', walk_append, ih]; rfl

theorem walk_relative (j k : Nat) :
    walk false (List.replicate j dotdot) (List.replicate k dotdot) = List.replicate (j + k) dotdot := by
  induction k with
  | zero => rfl
  | succ k ih =>
    rw [List.replicate_succ', walk_append, ih, walk_singleton, push_dotdot, ← Nat.add_assoc]
    cases j + k with
    | zero => rfl
    | succ n => simp [up, List.replicate_succ]

structure Resolved (loc : Location) (names : List Part) (j : Nat) : Prop where
  normal : Normal loc.parts names j
  rooted : loc.absolute = true → j = 0

theorem exists_resolved (path : List UInt8) : ∃ names j, Resolved (resolve path) names j := by
  obtain ⟨names, k, hnormal, hwalk⟩ := exists_normal (components path)
  cases habs : isAbsolute path with
  | false => exact ⟨names, k, by simpa [resolve, habs] using hnormal, by simp [resolve, habs]⟩
  | true =>
    refine ⟨names, 0, ⟨?_, hnormal.ordinary⟩, fun _ => rfl⟩
    simp [resolve, habs, hwalk, walk_root]

-- k leading "..", then the last k parts of the directory again, then what lies below it
structure Lands (dir : Location) (ps below : List Part) (k : Nat) : Prop where
  parts : walk false [] ps = below ++ dir.parts.take k ++ List.replicate k dotdot
  ordinary : dotdot ∉ below ++ dir.parts.take k
  inside : dir.absolute = true ∨ k ≤ dir.parts.length

section
variable {dir : Location} {ord ps below : List Part} {j : Nat}

theorem walk_within (h : Resolved dir ord j) (hk : k ≤ ord.length) :
    walk dir.absolute dir.parts (List.replicate k dotdot) = dir.parts.drop k := by
  have hsplit : dir.parts = ord.take k ++ (ord.drop k ++ List.replicate j dotdot) := by
    rw [← List.append_assoc, List.take_append_drop, h.normal.eq]
  have hlength : (ord.take k).length = k := List.length_take_of_le hk
  have hordinary : dotdot ∉ ord.take k := fun hmem => h.normal.ordinary (List.mem_of_mem_take hmem)
  have hover : walk dir.absolute _ _ = _ :=
    walk_over hordinary (ord.drop k ++ List.replicate j dotdot)
  rw [hlength, ← hsplit] at hover
  rw [hover, hsplit, List.drop_left' hlength]

theorem walk_beyond (h : Resolved dir ord j) (hk : ord.length < k) :
    walk dir.absolute dir.parts (List.replicate k dotdot) =
      if dir.absolute then [] else List.replicate (j + (k - ord.length)) dotdot := by
  have hsplit : List.replicate k dotdot =
      List.replicate ord.length dotdot ++ List.replicate (k - ord.length) dotdot := by
    rw [List.replicate_append_replicate]
    congr 1
    omega
  rw [hsplit, walk_append, h.normal.eq, walk_over h.normal.ordinary]
  cases habs : dir.absolute with
  | false => rw [walk_relative]; rfl
  | true => rw [h.rooted habs]; exact walk_root _

theorem walk_eq_iff_lands (h : Resolved dir ord j) (hbelow : dotdot ∉ below) :
    walk dir.absolute dir.parts ps = below ++ dir.parts ↔ ∃ k, Lands dir ps below k := by
  obtain ⟨names, k, hnormal, hwalk⟩ := exists_normal ps
  have hparts := h.normal.eq
  rw [hwalk]
  constructor
  · intro heq
    by_cases hk : k ≤ ord.length
    · rw [walk_within h hk] at heq
      have hnames : names = below ++ dir.parts.take k := by
        have hwhole : names ++ dir.parts.drop k = (below ++ dir.parts.take k) ++ dir.parts.drop k := by
          rw [heq, List.append_assoc, List.take_append_drop]
        exact List.append_cancel_right hwhole
      refine ⟨k, by rw [← hnames, hnormal.eq], hnames ▸ hnormal.ordinary, .inr ?_⟩
      rw [hparts, List.length_append]
      omega
    · rw [walk_beyond h (by omega)] at heq
      cases habs : dir.absolute with
      | true =>
        have hall : dir.parts.take k = dir.parts := by
          rw [List.take_of_length_le]
          rw [hparts, h.rooted habs, List.replicate_zero, List.append_nil]
          omega
        have hnames : names = below ++ dir.parts.take k := by
          rw [hall]
          simpa [habs] using heq
        exact ⟨k, by rw [← hnames, hnormal.eq], hnames ▸ hnormal.ordinary, .inl habs⟩
      | false =>
        have hcount := congrArg (List.count dotdot) heq
        simp only [habs, Bool.false_eq_true, if_false, List.count_append,
          List.count_eq_zero.mpr hnormal.ordinary, List.count_eq_zero.mpr hbelow,
          List.count_replicate_self, h.normal.count] at hcount
        omega
  · rintro ⟨k', hlands⟩
    obtain ⟨hnames, rfl⟩ := hnormal.unique ⟨hlands.parts, hlands.ordinary⟩
    by_cases hk : k ≤ ord.length
    · rw [walk_within h hk, hnames, List.append_assoc, List.take_append_drop]
    · rw [walk_beyond h (by omega)]
      cases habs : dir.absolute with
      | true =>
        rw [hnames, List.take_of_length_le]
        · simp
        · rw [hparts, h.rooted habs, List.replicate_zero, List.append_nil]
          omega
      | false =>
        have hin : k ≤ dir.parts.length := by simpa [habs] using hlands.inside
        have hmem : dotdot ∈ dir.parts.take k := by
          rw [hparts] at hin ⊢
          rw [List.length_append, List.length_replicate] at hin
          rw [List.take_append, List.take_replicate]
          refine List.mem_append_right _ (List.mem_replicate.mpr ⟨?_, rfl⟩)
          omega
        exact absurd (List.mem_append_right below hmem) hlands.ordinary

end

end

end Path
