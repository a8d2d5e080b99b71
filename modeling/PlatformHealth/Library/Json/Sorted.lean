import PlatformHealth.Library.Json.Embedding

namespace Json

open Yields (bind_eq_ok_iff)

mutual

def Sorted : Json → Prop
  | .array elements => SortedElements elements
  | .object members => (members.Pairwise fun m n => m.1 < n.1) ∧ SortedMembers members
  | _ => True

def SortedElements : List Json → Prop
  | [] => True
  | v :: rest => Sorted v ∧ SortedElements rest

def SortedMembers : List (String × Json) → Prop
  | [] => True
  | m :: rest => SortedMember m ∧ SortedMembers rest

def SortedMember : String × Json → Prop
  | (_, v) => Sorted v

end

section
variable {elements : List Json} {members : List (String × Json)} {key : String} {v : Json}

theorem sortedElements_iff : SortedElements elements ↔ ∀ v ∈ elements, v.Sorted := by
  induction elements with
  | nil => simp [SortedElements]
  | cons v rest ih => rw [SortedElements, ih, List.forall_mem_cons]

theorem sortedMembers_iff : SortedMembers members ↔ ∀ m ∈ members, m.2.Sorted := by
  induction members with
  | nil => simp [SortedMembers]
  | cons m rest ih => rw [SortedMembers, ih, List.forall_mem_cons, SortedMember]

theorem mem_setMember {m : String × Json} (h : m ∈ setMember members key v) : m = (key, v) ∨ m ∈ members := by
  induction members with
  | nil => exact .inl (List.mem_singleton.mp h)
  | cons entry rest ih =>
    obtain ⟨k, w⟩ := entry
    rw [setMember] at h
    split_ifs at h with heq
    · rcases List.mem_cons.mp h with rfl | hm
      · exact .inl (by rw [heq])
      · exact .inr (List.mem_cons_of_mem _ hm)
    · exact (List.mem_cons.mp h)
    · rcases List.mem_cons.mp h with rfl | hm
      · exact .inr List.mem_cons_self
      · exact (ih hm).imp_right (List.mem_cons_of_mem _)

theorem sorted_setMember (key : String) (v : Json) (h : members.Pairwise fun m n => m.1 < n.1) :
    (setMember members key v).Pairwise fun m n => m.1 < n.1 := by
  induction members with
  | nil => exact List.pairwise_singleton _ _
  | cons entry rest ih =>
    obtain ⟨k, w⟩ := entry
    obtain ⟨hfirst, hrest⟩ := List.pairwise_cons.mp h
    rw [setMember]
    split_ifs with heq hlt
    · exact List.pairwise_cons.mpr ⟨hfirst, hrest⟩
    · refine List.pairwise_cons.mpr ⟨fun m hm => ?_, h⟩
      rcases List.mem_cons.mp hm with rfl | hm
      · exact hlt
      · exact String.lt_trans hlt (hfirst m hm)
    · have hkey : k < key := Std.lt_of_le_of_ne (String.not_lt.mp hlt) (Ne.symm heq)
      refine List.pairwise_cons.mpr ⟨fun m hm => ?_, ih hrest⟩
      rcases mem_setMember hm with rfl | hm
      · exact hkey
      · exact hfirst m hm

theorem nodup_of_sorted (h : members.Pairwise fun m n => m.1 < n.1) : (members.map Prod.fst).Nodup := by
  rw [List.Nodup, List.pairwise_map]
  refine h.imp ?_
  intro m n hlt heq
  rw [heq] at hlt
  exact String.lt_irrefl _ hlt

end

def Frame.Sorted : Frame → Prop
  | .array elements => (Json.array elements).Sorted
  | .object members _ => (Json.object members).Sorted

def State.Sorted : State → Prop
  | .reading stack _ => ∀ f ∈ stack, f.Sorted
  | .done v => v.Sorted

def Token.Sorted (t : Token) : Prop := ∀ v, t = .value v → v.Sorted

def Lexer.Sorted (l : Lexer) : Prop := ∀ expected v, l = .literal expected v → v.Sorted

structure Reader.Sorted (r : Reader) : Prop where
  state : r.state.Sorted
  lexer : r.lexer.Sorted

section
variable {v : Json} {stack : List Frame} {s s' : State} {t : Token} {l : Lexer} {b : UInt8}
  {toDouble : ℚ → Option ℚ}

theorem sorted_deliver (hv : v.Sorted) (hstack : ∀ f ∈ stack, f.Sorted) : (deliver v stack).Sorted := by
  cases stack with
  | nil => exact hv
  | cons frame stack =>
    obtain ⟨hframe, hrest⟩ := List.forall_mem_cons.mp hstack
    cases frame with
    | array elements =>
      refine List.forall_mem_cons.mpr ⟨sortedElements_iff.mpr fun w hw => ?_, hrest⟩
      rcases List.mem_append.mp hw with hw | hw
      · exact sortedElements_iff.mp hframe w hw
      · rwa [List.mem_singleton.mp hw]
    | object members key =>
      refine List.forall_mem_cons.mpr ⟨⟨sorted_setMember key v hframe.1, sortedMembers_iff.mpr fun m hm => ?_⟩, hrest⟩
      rcases mem_setMember hm with rfl | hm
      · exact hv
      · exact sortedMembers_iff.mp hframe.2 m hm

theorem sorted_step (hs : s.Sorted) (ht : t.Sorted) (h : s.step t = .ok s') : s'.Sorted := by
  unfold State.step at h
  split at h
  · cases h
  · split at h <;> cases h
    all_goals first
      | exact hs
      | exact sorted_deliver (ht _ rfl) hs
      | exact List.forall_mem_cons.mpr ⟨trivial, hs⟩
      | exact List.forall_mem_cons.mpr ⟨⟨.nil, trivial⟩, hs⟩
      | exact sorted_deliver (List.forall_mem_cons.mp hs).1 (List.forall_mem_cons.mp hs).2
      | exact List.forall_mem_cons.mpr ⟨(List.forall_mem_cons.mp hs).1, (List.forall_mem_cons.mp hs).2⟩

theorem sorted_token (n : Numeral) : (n.token toDouble).Sorted := by
  have hfloat : (n.floatToken toDouble).Sorted := by
    unfold Numeral.floatToken
    rintro v hv
    split at hv <;> cases hv
    trivial
  unfold Numeral.token
  split_ifs <;> first | exact hfloat | (rintro v ⟨⟩; trivial)

def Scanned.Sorted : Scanned → Prop
  | .lexer l => l.Sorted
  | .token t => t.Sorted
  | .invalid => True

def Scanned.flat : Scanned → Bool
  | .lexer (.literal _ v) => v ∈ [.boolean true, .boolean false, .null]
  | .token (.value _) => false
  | _ => true

theorem flat_scan (b : UInt8) : (scan b).flat = true :=
  ByteString.byte_forall (p := fun b => (scan b).flat) (by decide +kernel) b

theorem sorted_scan (b : UInt8) : (scan b).Sorted := by
  have hall := flat_scan b
  generalize scan b = scanned at hall
  cases scanned with
  | lexer l =>
    rintro expected v rfl
    have hmem : v ∈ [Json.boolean true, .boolean false, .null] := of_decide_eq_true hall
    rcases List.mem_cons.mp hmem with rfl | hmem
    · trivial
    · rcases List.mem_cons.mp hmem with rfl | hmem
      · trivial
      · rw [List.mem_singleton.mp hmem]
        trivial
  | token t =>
    rintro v rfl
    cases hall
  | invalid => trivial

theorem sorted_next (hl : l.Sorted) (b : UInt8) : (l.next b).Sorted := by
  cases l with
  | between =>
    simp only [Lexer.next]
    split
    · rintro _ _ ⟨⟩
    · exact sorted_scan b
  | literal expected v =>
    have hv := hl expected v rfl
    rcases expected with _ | ⟨c, _ | ⟨d, rest⟩⟩
    · trivial
    · simp only [Lexer.next]
      split
      · rintro _ ⟨⟩
        exact hv
      · trivial
    · simp only [Lexer.next]
      split
      · rintro _ _ ⟨⟩
        exact hv
      · trivial
  | number state n =>
    simp only [Lexer.next]
    split
    · rintro _ _ ⟨⟩
    · trivial
  | string state chars =>
    simp only [Lexer.next]
    split
    · rintro _ ⟨⟩
      trivial
    · split
      · rintro _ _ ⟨⟩
      · trivial

end

namespace Reader

variable {r r' : Reader} {b : UInt8} {s rest : List UInt8} {v : Json} {toDouble : ℚ → Option ℚ}

theorem sorted_settle (hr : r.Sorted) {b : Option UInt8} (h : r.settle b toDouble = .ok r') : r'.Sorted := by
  unfold settle at h
  split at h
  · split at h
    · cases h
      exact hr
    · obtain ⟨state, hstep, h⟩ := bind_eq_ok_iff.mp h
      cases h
      exact ⟨sorted_step hr.state (sorted_token _) hstep, by rintro _ _ ⟨⟩⟩
    · cases h
  · cases h
    exact hr

theorem sorted_advance (hr : r.Sorted) (h : r.advance b = .ok r') : r'.Sorted := by
  have hnext := sorted_next hr.lexer b
  unfold advance at h
  split at h
  · next l hl =>
    cases h
    rw [hl] at hnext
    exact ⟨hr.state, hnext⟩
  · next t ht =>
    obtain ⟨state, hstep, h⟩ := bind_eq_ok_iff.mp h
    cases h
    rw [ht] at hnext
    exact ⟨sorted_step hr.state hnext hstep, by rintro _ _ ⟨⟩⟩
  · cases h

theorem sorted_read (hr : r.Sorted) (h : r.read s toDouble = .ok (v, rest)) : v.Sorted := by
  induction s generalizing r with
  | nil =>
    rw [read, bind_eq_ok_iff] at h
    obtain ⟨⟨state, lexer⟩, hm, h⟩ := h
    cases state with
    | done w =>
      cases h
      exact (sorted_settle hr hm).state
    | reading stack mode => cases h
  | cons b s ih =>
    rw [read, bind_eq_ok_iff] at h
    obtain ⟨⟨state, lexer⟩, hm, h⟩ := h
    cases state with
    | done w =>
      cases h
      exact (sorted_settle hr hm).state
    | reading stack mode =>
      obtain ⟨k, hk, hrest⟩ := bind_eq_ok_iff.mp h
      exact ih (sorted_advance (sorted_settle hr hm) hk) hrest

end Reader

theorem sorted_parse {strict : Bool} {s : List UInt8} {v : Json} {toDouble : ℚ → Option ℚ}
    (h : parse strict s toDouble = .ok v) : v.Sorted := by
  rw [parse_eq strict s toDouble] at h
  cases hfirst : readFirst s toDouble with
  | error e =>
    rw [hfirst] at h
    cases h
  | ok p =>
    obtain ⟨w, rest⟩ := p
    rw [hfirst] at h
    obtain ⟨text, -, hread⟩ := bind_eq_ok_iff.mp hfirst
    have hw : w.Sorted := by
      refine Reader.sorted_read ⟨?_, ?_⟩ hread
      · exact List.forall_mem_nil _
      · rintro _ _ ⟨⟩
    dsimp only at h
    split at h
    · cases h
    · cases h
      exact hw

end Json
