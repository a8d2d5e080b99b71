import Mathlib.Data.List.SplitBy

namespace EdgeDetector

variable {S I E : Type}

-- sense answers none where an input is not evaluated, some true where the target is well
structure Detector (S I E : Type) where
  sense : S → I → Option Bool
  next : S → I → S
  armed : S → Bool
  alarm : S → I → E
  unsensed : ∀ s i, sense s i = none → armed (next s i) = armed s
  fired : ∀ s i, sense s i = some false → armed (next s i) = false

namespace Detector

variable (D : Detector S I E)

def emit (s : S) (i : I) : Option E :=
  if D.sense s i = some false ∧ D.armed s then some (D.alarm s i) else none

def answers : S → List I → List Bool
  | _, [] => []
  | s, i :: is => (D.sense s i).toList ++ answers (D.next s i) is

def outputs : S → List I → List E
  | _, [] => []
  | s, i :: is => (D.emit s i).toList ++ outputs (D.next s i) is

variable {D}

theorem outputs_of_unarmed {s : S} {is : List I} (hs : D.armed s = false)
    (h : ∀ b ∈ D.answers s is, b = false) : D.outputs s is = [] := by
  induction is generalizing s with
  | nil => rfl
  | cons i is ih =>
    have hemit : D.emit s i = none := by simp [emit, hs]
    have hnext : D.armed (D.next s i) = false := by
      cases hsense : D.sense s i with
      | none => rw [D.unsensed s i hsense, hs]
      | some b =>
        have hb : b = false := h b (by simp [answers, hsense])
        exact D.fired s i (by rw [hsense, hb])
    have hrest := ih hnext fun b hb => h b (List.mem_append_right _ hb)
    rw [outputs, hemit, hrest]
    rfl

theorem outputs_of_armed {P : S → Prop} (hP : ∀ s i, P s → P (D.next s i)) {n : Nat} {s : S}
    {is : List I} (hs : D.armed s = true) (hPs : P s)
    (h : D.answers s is = List.replicate (n + 1) false) :
    ∃ t i, P t ∧ D.outputs s is = [D.alarm t i] := by
  induction is generalizing s with
  | nil => simp [answers] at h
  | cons i is ih =>
    cases hsense : D.sense s i with
    | none =>
      have hemit : D.emit s i = none := by simp [emit, hsense]
      have hnext : D.armed (D.next s i) = true := by rw [D.unsensed s i hsense, hs]
      obtain ⟨t, j, ht, hout⟩ := ih hnext (hP s i hPs) (by simpa [answers, hsense] using h)
      exact ⟨t, j, ht, by rw [outputs, hemit, hout]; rfl⟩
    | some b =>
      obtain ⟨rfl, hrest⟩ : b = false ∧ D.answers (D.next s i) is = List.replicate n false := by
        simpa [answers, hsense, List.replicate_succ] using h
      have hemit : D.emit s i = some (D.alarm s i) := by simp [emit, hsense, hs]
      have hquiet : D.outputs (D.next s i) is = [] := by
        refine outputs_of_unarmed (D.fired s i hsense) ?_
        rw [hrest]
        exact fun b => List.eq_of_mem_replicate
      exact ⟨s, i, hPs, by rw [outputs, hemit, hquiet]; rfl⟩

end Detector

def episodes (answers : List Bool) : Nat :=
  (answers.splitBy (· == ·)).countP fun run => run.head? = some false

section
variable {a b : Bool} {answers : List Bool}

theorem splitBy_cons_self (h : answers.head? = some a) :
    ∃ run runs, answers.splitBy (· == ·) = run :: runs ∧ run.head? = some a ∧
      (a :: answers).splitBy (· == ·) = (a :: run) :: runs := by
  cases answers with
  | nil => cases h
  | cons c answers =>
    obtain rfl : c = a := by simpa using h
    obtain ⟨hflat, hnil, hchain, hbreaks⟩ := List.splitBy_eq_iff.mp (rfl : (c :: answers).splitBy (· == ·) = _)
    cases hruns : (c :: answers).splitBy (· == ·) with
    | nil => simp at hruns
    | cons run runs =>
      rw [hruns] at hflat hnil hchain hbreaks
      cases run with
      | nil => simp at hnil
      | cons d run =>
        obtain ⟨rfl, -⟩ := List.cons.inj hflat
        refine ⟨c :: run, runs, rfl, rfl, List.splitBy_eq_iff.mpr ⟨?_, ?_, ?_, ?_⟩⟩
        · rw [hflat]
          rfl
        · simpa using hnil
        · intro r hr
          rcases List.mem_cons.mp hr with rfl | hr
          · exact List.isChain_cons_cons.mpr ⟨by simp, hchain _ (by simp)⟩
          · exact hchain r (by simp [hr])
        · rw [List.isChain_cons] at hbreaks ⊢
          refine ⟨fun next hnext => ?_, hbreaks.2⟩
          obtain ⟨ha, hb, hne⟩ := hbreaks.1 next hnext
          exact ⟨by simp, hb, by simpa using hne⟩

theorem episodes_cons (a : Bool) (answers : List Bool) :
    episodes (a :: answers) =
      (if a = false ∧ answers.head? ≠ some false then 1 else 0) + episodes answers := by
  unfold episodes
  by_cases hsame : answers.head? = some a
  · obtain ⟨run, runs, hsplit, hhead, hcons⟩ := splitBy_cons_self hsame
    rw [hsplit, hcons, List.countP_cons, List.countP_cons, hhead, hsame]
    cases a <;> simp
  · have hbreak : (a :: answers).splitBy (· == ·) = [a] :: answers.splitBy (· == ·) := by
      refine List.splitBy_append (l := [a]) (m := answers) ?_
      intro x hx y hy
      obtain rfl : a = x := by simpa using hx
      cases hxy : a == y with
      | false => rfl
      | true => exact absurd (by rw [hy, eq_of_beq hxy]) hsame
    rw [hbreak, List.countP_cons]
    cases a with
    | false => simp [hsame, Nat.add_comm]
    | true => simp

end

structure Rearming (S I E : Type) extends Detector S I E where
  rearmed : ∀ s i, sense s i = some true → armed (next s i) = true

namespace Rearming

variable (D : Rearming S I E)

def evaluated : S → List I → List (Bool × Option E)
  | _, [] => []
  | s, i :: is =>
    ((D.sense s i).map fun b => (b, D.emit s i)).toList ++ evaluated (D.next s i) is

section
variable {D} {s : S} {i : I} {is : List I}

theorem armed_next {b : Bool} (h : D.sense s i = some b) : D.armed (D.next s i) = b := by
  cases b with
  | true => exact D.rearmed s i h
  | false => exact D.fired s i h

theorem armed_run (s : S) (is : List I) :
    D.armed (is.foldl D.next s) = (D.answers s is).getLastD (D.armed s) := by
  induction is generalizing s with
  | nil => rfl
  | cons i is ih =>
    rw [List.foldl_cons, ih, Detector.answers]
    cases hsense : D.sense s i with
    | none => rw [D.unsensed s i hsense]; rfl
    | some b => rw [armed_next hsense, Option.toList_some, List.singleton_append, List.getLastD_cons]

theorem map_fst_evaluated (s : S) (is : List I) : (D.evaluated s is).map Prod.fst = D.answers s is := by
  induction is generalizing s with
  | nil => rfl
  | cons i is ih =>
    rw [evaluated, Detector.answers, List.map_append, ih]
    cases D.sense s i <;> rfl

theorem filterMap_snd_evaluated (s : S) (is : List I) :
    (D.evaluated s is).filterMap Prod.snd = D.outputs s is := by
  induction is generalizing s with
  | nil => rfl
  | cons i is ih =>
    rw [evaluated, Detector.outputs, List.filterMap_append, ih]
    cases hsense : D.sense s i with
    | none => simp [Detector.emit, hsense]
    | some b => cases D.emit s i <;> simp

theorem length_outputs_add (s : S) (is : List I) : (D.outputs s is).length +
      (if D.armed s = false ∧ (D.answers s is).head? = some false then 1 else 0) =
    episodes (D.answers s is) := by
  induction is generalizing s with
  | nil => simp [Detector.outputs, Detector.answers, episodes]
  | cons i is ih =>
    have hrest := ih (D.next s i)
    cases hsense : D.sense s i with
    | none =>
      rw [D.unsensed s i hsense] at hrest
      simpa [Detector.outputs, Detector.answers, Detector.emit, hsense] using hrest
    | some b =>
      rw [armed_next hsense] at hrest
      simp only [Detector.outputs, Detector.answers, Detector.emit, hsense, Option.toList_some,
        List.singleton_append, List.head?_cons, episodes_cons, ← hrest]
      cases b with
      | true => simp
      | false =>
        by_cases hhead : (D.answers (D.next s i) is).head? = some false
        · cases D.armed s <;> simp [hhead, Nat.add_comm]
        · cases D.armed s <;> simp [hhead, Nat.add_comm]

theorem length_outputs (hs : D.armed s = true) (is : List I) :
    (D.outputs s is).length = episodes (D.answers s is) := by
  simpa [hs] using length_outputs_add (D := D) s is

theorem isSome_emitted_iff {pre post : List (Bool × Option E)} {b : Bool} {o : Option E}
    (h : D.evaluated s is = pre ++ (b, o) :: post) :
    o.isSome = true ↔ b = false ∧ (pre.map Prod.fst).getLastD (D.armed s) = true := by
  induction is generalizing s pre with
  | nil => simp [evaluated] at h
  | cons i is ih =>
    cases hsense : D.sense s i with
    | none =>
      have hiff := ih (by simpa [evaluated, hsense] using h)
      rwa [D.unsensed s i hsense] at hiff
    | some c =>
      rw [evaluated, hsense] at h
      cases pre with
      | nil =>
        obtain ⟨hhead, -⟩ := List.cons.inj h
        obtain ⟨rfl, rfl⟩ := Prod.mk.inj hhead
        simp [Detector.emit, hsense]
      | cons p pre =>
        obtain ⟨rfl, hrest⟩ := List.cons.inj h
        have hiff := ih hrest
        rw [armed_next hsense] at hiff
        rw [List.map_cons, List.getLastD_cons]
        exact hiff

end

end Rearming

end EdgeDetector
