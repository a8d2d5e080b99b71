import Mathlib.Data.List.Basic

namespace Runs

variable {S A B : Type}

def run (step : S → A → S) (s : S) (as : List A) : S := as.foldl step s

section
variable (step : S → A → S)

@[simp] theorem run_nil (s : S) : run step s [] = s := rfl

@[simp] theorem run_cons (s : S) (a : A) (as : List A) :
    run step s (a :: as) = run step (step s a) as := rfl

@[simp] theorem run_append (s : S) (as bs : List A) :
    run step s (as ++ bs) = run step (run step s as) bs := List.foldl_append

variable {step}

theorem run_invariant {P : S → Prop} (hstep : ∀ s a, P s → P (step s a)) {s : S} (h : P s)
    (as : List A) : P (run step s as) := by
  induction as generalizing s with
  | nil => exact h
  | cons a as ih => exact ih (hstep s a h)

theorem run_invariant_of_mem {P : S → Prop} {as : List A}
    (hstep : ∀ s, ∀ a ∈ as, P s → P (step s a)) {s : S} (h : P s) : P (run step s as) := by
  induction as generalizing s with
  | nil => exact h
  | cons a as ih =>
    have ha : P (step s a) := hstep s a (by simp) h
    exact ih (fun t b hb => hstep t b (by simp [hb])) ha

theorem run_eq_of_each {V : Type} (view : S → V) (as : List A)
    (hstep : ∀ s, ∀ a ∈ as, view (step s a) = view s) (s : S) : view (run step s as) = view s := by
  refine run_invariant_of_mem (P := fun t => view t = view s) ?_ rfl
  intro t a ha ht
  exact (hstep t a ha).trans ht

end

def Always (step : S → A → S) (P : S → Prop) : S → List A → Prop
  | s, [] => P s
  | s, a :: as => P s ∧ Always step P (step s a) as

def Each (step : S → A → S) (Q : S → A → Prop) : S → List A → Prop
  | _, [] => True
  | s, a :: as => Q s a ∧ Each step Q (step s a) as

instance Each.decidable (step : S → A → S) (Q : S → A → Prop) [∀ s a, Decidable (Q s a)] :
    ∀ s as, Decidable (Each step Q s as)
  | _, [] => .isTrue trivial
  | s, a :: as =>
    have := Each.decidable step Q (step s a) as
    inferInstanceAs (Decidable (Q s a ∧ Each step Q (step s a) as))

section
variable {step : S → A → S} {P I : S → Prop} {Q : S → A → Prop}

theorem Always.head {s : S} {as : List A} (h : Always step P s as) : P s := by
  cases as with
  | nil => exact h
  | cons a as => exact h.1

theorem always_iff_prefix (s : S) (as : List A) :
    Always step P s as ↔ ∀ bs, bs <+: as → P (run step s bs) := by
  induction as generalizing s with
  | nil => simp [Always]
  | cons a as ih =>
    simp only [Always, ih]
    constructor
    · rintro ⟨h, hrest⟩ bs hbs
      rcases List.prefix_cons_iff.mp hbs with rfl | ⟨cs, rfl, hcs⟩
      · exact h
      · exact hrest cs hcs
    · intro h
      exact ⟨h [] List.nil_prefix, fun bs hbs => h (a :: bs) (List.cons_prefix_cons.mpr ⟨rfl, hbs⟩)⟩

theorem always_iff_each_under {R : S → A → Prop}
    (hstep : ∀ s a, I s → R s a → P s → (P (step s a) ↔ Q s a))
    (hinv : ∀ s a, I s → R s a → I (step s a)) {s : S} {as : List A} (hI : I s) (hP : P s)
    (hR : Each step R s as) : Always step P s as ↔ Each step Q s as := by
  induction as generalizing s with
  | nil => exact iff_of_true hP trivial
  | cons a as ih =>
    obtain ⟨hRa, hRas⟩ := hR
    have hiff := hstep s a hI hRa hP
    have hnext := hinv s a hI hRa
    constructor
    · rintro ⟨-, hrest⟩
      exact ⟨hiff.mp hrest.head, (ih hnext hrest.head hRas).mp hrest⟩
    · rintro ⟨hQ, hrest⟩
      exact ⟨hP, (ih hnext (hiff.mpr hQ) hRas).mpr hrest⟩

theorem each_of_invariant {R : S → A → Prop} (hstep : ∀ s a, I s → R s a → Q s a ∧ I (step s a))
    {s : S} {as : List A} (hI : I s) (hR : Each step R s as) : Each step Q s as := by
  induction as generalizing s with
  | nil => trivial
  | cons a as ih =>
    obtain ⟨hRa, hRas⟩ := hR
    obtain ⟨hQ, hnext⟩ := hstep s a hI hRa
    exact ⟨hQ, ih hnext hRas⟩

theorem always_of_invariant {R : S → A → Prop} (hstep : ∀ s a, I s → R s a → I (step s a))
    (hP : ∀ s, I s → P s) {s : S} {as : List A} (hI : I s) (hR : Each step R s as) :
    Always step P s as := by
  induction as generalizing s with
  | nil => exact hP s hI
  | cons a as ih => exact ⟨hP s hI, ih (hstep s a hI hR.1) hR.2⟩

theorem always_iff_each_of_invariant (hkeeps : ∀ s a, I s → Q s a → I (step s a))
    (hbreaks : ∀ s a, I s → ¬ Q s a → ¬ P (step s a)) (hP : ∀ s, I s → P s) {s : S} {as : List A}
    (hI : I s) : Always step P s as ↔ Each step Q s as := by
  induction as generalizing s with
  | nil => exact iff_of_true (hP s hI) trivial
  | cons a as ih =>
    constructor
    · rintro ⟨-, hrest⟩
      have hQ : Q s a := by
        by_contra hQ
        exact hbreaks s a hI hQ hrest.head
      exact ⟨hQ, (ih (hkeeps s a hI hQ)).mp hrest⟩
    · rintro ⟨hQ, hrest⟩
      exact ⟨hP s hI, (ih (hkeeps s a hI hQ)).mpr hrest⟩

theorem Each.and {R : S → A → Prop} {s : S} {as : List A} (hQ : Each step Q s as)
    (hR : Each step R s as) : Each step (fun s a => Q s a ∧ R s a) s as := by
  induction as generalizing s with
  | nil => trivial
  | cons a as ih => exact ⟨⟨hQ.1, hR.1⟩, ih hQ.2 hR.2⟩

theorem each_iff_split (s : S) (as : List A) :
    Each step Q s as ↔ ∀ pre a post, as = pre ++ a :: post → Q (run step s pre) a := by
  induction as generalizing s with
  | nil => simp [Each]
  | cons b as ih =>
    simp only [Each, ih]
    constructor
    · rintro ⟨hb, hrest⟩ pre a post heq
      rcases List.cons_eq_append_iff.mp heq with ⟨rfl, hcons⟩ | ⟨pre', rfl, htail⟩
      · obtain ⟨rfl, -⟩ := List.cons.inj hcons
        exact hb
      · exact hrest pre' a post htail
    · intro h
      exact ⟨h [] b as rfl, fun pre a post heq => h (b :: pre) a post (by rw [heq]; rfl)⟩

theorem each_iff_of_view {T : Type} {g : T → B → T} {P : T → B → Prop} {R : A → Prop}
    (view : S → T) (f : A → B) (hinv : ∀ s a, I s → R a → I (step s a))
    (hview : ∀ s a, I s → R a → view (step s a) = g (view s) (f a))
    (hQ : ∀ s a, I s → R a → (Q s a ↔ P (view s) (f a))) {s : S} {as : List A} (hI : I s)
    (hR : ∀ a ∈ as, R a) : Each step Q s as ↔ Each g P (view s) (as.map f) := by
  induction as generalizing s with
  | nil => exact Iff.rfl
  | cons a as ih =>
    obtain ⟨ha, has⟩ := List.forall_mem_cons.mp hR
    rw [List.map_cons, Each, Each, ← hview s a hI ha, hQ s a hI ha, ih (hinv s a hI ha) has]

theorem foldlM_ne_fault_iff {T E : Type} {f : S → A → Except E S} {track : T → A → T}
    {allows : T → A → Prop} {fault : E} (view : S → T)
    (hok : ∀ s a, allows (view s) a → ∃ t, f s a = .ok t ∧ view t = track (view s) a)
    (hfault : ∀ s a, ¬ allows (view s) a → f s a = .error fault) (s : S) (as : List A) :
    as.foldlM f s ≠ .error fault ↔ Each track allows (view s) as := by
  induction as generalizing s with
  | nil => exact iff_of_true (by rintro ⟨⟩) trivial
  | cons a as ih =>
    rw [List.foldlM_cons, Each]
    by_cases h : allows (view s) a
    · obtain ⟨t, ht, hview⟩ := hok s a h
      rw [ht, ← hview, and_iff_right h]
      exact ih t
    · rw [hfault s a h]
      exact iff_of_false (fun hne => hne rfl) fun heach => h heach.1

theorem each_true (s : S) (as : List A) : Each step (fun _ _ => True) s as := by
  induction as generalizing s with
  | nil => trivial
  | cons a as ih => exact ⟨trivial, ih (step s a)⟩

theorem always_iff_each (hstep : ∀ s a, I s → P s → (P (step s a) ↔ Q s a))
    (hinv : ∀ s a, I s → I (step s a)) {s : S} {as : List A} (hI : I s) (hP : P s) :
    Always step P s as ↔ Each step Q s as :=
  always_iff_each_under (fun s a hI _ hP => hstep s a hI hP) (fun s a hI _ => hinv s a hI) hI hP
    (each_true s as)

end

end Runs
