import Mathlib.Data.Rat.Defs
import Mathlib.Data.List.Basic

-- a document as the reader keeps it: numbers by how they were written, members by ascending key
inductive Json where
  | null
  | boolean (b : Bool)
  | unsigned (n : UInt64)
  | integer (n : Int64)
  | float (q : ℚ)
  | string (s : String)
  | array (elements : List Json)
  | object (members : List (String × Json))

namespace Json

mutual

def beq : Json → Json → Bool
  | null, null => true
  | boolean a, boolean b => a = b
  | unsigned m, unsigned n => m = n
  | integer m, integer n => m = n
  | float p, float q => p = q
  | string s, string t => s = t
  | array as, array bs => beqElements as bs
  | object ms, object ns => beqMembers ms ns
  | _, _ => false

def beqElements : List Json → List Json → Bool
  | [], [] => true
  | a :: as, b :: bs => a.beq b && beqElements as bs
  | _, _ => false

def beqMembers : List (String × Json) → List (String × Json) → Bool
  | [], [] => true
  | m :: ms, n :: ns => beqMember m n && beqMembers ms ns
  | _, _ => false

def beqMember : String × Json → String × Json → Bool
  | (k, v), (l, w) => k = l && v.beq w

end

mutual

theorem beq_iff : ∀ a b : Json, a.beq b = true ↔ a = b
  | null, b | boolean _, b | unsigned _, b | integer _, b | float _, b | string _, b => by
    cases b <;> simp [beq]
  | array as, b => by
    cases b with
    | array bs => simp [beq, beqElements_iff as bs]
    | _ => simp [beq]
  | object ms, b => by
    cases b with
    | object ns => simp [beq, beqMembers_iff ms ns]
    | _ => simp [beq]

theorem beqElements_iff : ∀ as bs : List Json, beqElements as bs = true ↔ as = bs
  | [], bs => by cases bs <;> simp [beqElements]
  | a :: as, [] => by simp [beqElements]
  | a :: as, b :: bs => by simp [beqElements, beq_iff a b, beqElements_iff as bs]

theorem beqMembers_iff : ∀ ms ns : List (String × Json), beqMembers ms ns = true ↔ ms = ns
  | [], ns => by cases ns <;> simp [beqMembers]
  | m :: ms, [] => by simp [beqMembers]
  | m :: ms, n :: ns => by simp [beqMembers, beqMember_iff m n, beqMembers_iff ms ns]

theorem beqMember_iff : ∀ m n : String × Json, beqMember m n = true ↔ m = n
  | (k, v), (l, w) => by simp [beqMember, beq_iff v w]

end

instance : DecidableEq Json := fun a b => decidable_of_iff _ (beq_iff a b)

def typeName : Json → String
  | null => "null"
  | boolean _ => "boolean"
  | unsigned _ | integer _ | float _ => "number"
  | string _ => "string"
  | array _ => "array"
  | object _ => "object"

section
variable {α : Type}

def setMember (members : List (String × α)) (key : String) (value : α) : List (String × α) :=
  match members with
  | [] => [(key, value)]
  | (k, v) :: rest =>
    if key = k then (k, value) :: rest
    else if key < k then (key, value) :: (k, v) :: rest
    else (k, v) :: setMember rest key value

theorem lookup_cons (key : String) (value : α) (members : List (String × α)) (k : String) :
    ((key, value) :: members).lookup k = if k = key then some value else members.lookup k := by
  by_cases hk : k = key
  · simp [hk]
  · have hne : (k == key) = false := beq_false_of_ne hk
    simp [List.lookup_cons, hk, hne]

theorem lookup_setMember (members : List (String × α)) (key : String) (value : α) (k : String) :
    (setMember members key value).lookup k = if k = key then some value else members.lookup k := by
  induction members with
  | nil => rw [setMember, lookup_cons]
  | cons entry rest ih =>
    obtain ⟨k', v'⟩ := entry
    unfold setMember
    split
    · next heq =>
      rw [lookup_cons, lookup_cons, ← heq]
      split <;> rfl
    · next hne =>
      split
      · rw [lookup_cons]
      · rw [lookup_cons, lookup_cons, ih]
        by_cases hk : k = k'
        · simp [hk, Ne.symm hne]
        · simp [hk]

theorem setMember_of_lt {members : List (String × α)} {key : String} (value : α)
    (h : ∀ m ∈ members, m.1 < key) : setMember members key value = members ++ [(key, value)] := by
  induction members with
  | nil => rfl
  | cons entry rest ih =>
    have hlt : entry.1 < key := h entry (by simp)
    have hrest := ih fun m hm => h m (by simp [hm])
    have hne : key ≠ entry.1 := fun heq => String.lt_irrefl key (heq ▸ hlt)
    rw [setMember, if_neg hne, if_neg (String.lt_asymm hlt), hrest]
    rfl

def setMembers (members entries : List (String × α)) : List (String × α) :=
  entries.foldl (fun members entry => setMember members entry.1 entry.2) members

theorem lookup_setMembers (members entries : List (String × α)) (k : String) :
    (setMembers members entries).lookup k =
      ((entries.reverse).lookup k).or (members.lookup k) := by
  induction entries generalizing members with
  | nil => rfl
  | cons entry rest ih =>
    rw [setMembers, List.foldl_cons, ← setMembers, ih, lookup_setMember, List.reverse_cons,
      List.lookup_append, lookup_cons]
    split <;> simp

theorem setMember_map {β : Type} (g : α → β) (members : List (String × α)) (key : String) (value : α) :
    setMember (members.map fun m => (m.1, g m.2)) key (g value) =
      (setMember members key value).map fun m => (m.1, g m.2) := by
  induction members with
  | nil => rfl
  | cons entry rest ih =>
    rw [List.map_cons, setMember, setMember, ih]
    split_ifs <;> rfl

theorem setMembers_map {β : Type} (g : α → β) (members entries : List (String × α)) :
    setMembers (members.map fun m => (m.1, g m.2)) (entries.map fun m => (m.1, g m.2)) =
      (setMembers members entries).map fun m => (m.1, g m.2) := by
  induction entries generalizing members with
  | nil => rfl
  | cons entry rest ih =>
    rw [List.map_cons, setMembers, List.foldl_cons, setMember_map, ← setMembers, ih]
    rfl

theorem perm_setMember {members : List (String × α)} {key : String} (value : α) (h : ∀ m ∈ members, m.1 ≠ key) :
    (setMember members key value).Perm ((key, value) :: members) := by
  induction members with
  | nil => exact .refl _
  | cons entry rest ih =>
    obtain ⟨hentry, hrest⟩ := List.forall_mem_cons.mp h
    rw [setMember, if_neg (Ne.symm hentry)]
    split_ifs
    · exact .refl _
    · exact ((ih hrest).cons entry).trans (.swap _ _ _)

theorem perm_setMembers {members entries : List (String × α)} (h : ((members ++ entries).map Prod.fst).Nodup) :
    (setMembers members entries).Perm (members ++ entries) := by
  induction entries generalizing members with
  | nil => rw [List.append_nil]; exact .refl _
  | cons entry rest ih =>
    have hnew : ∀ m ∈ members, m.1 ≠ entry.1 := by
      intro m hm heq
      rw [List.map_append, List.nodup_append] at h
      exact h.2.2 _ (List.mem_map_of_mem hm) _ (by simp) heq
    have hset := perm_setMember entry.2 hnew
    have hperm : (setMember members entry.1 entry.2 ++ rest).Perm (members ++ entry :: rest) :=
      (hset.append_right rest).trans (List.perm_middle.symm)
    have hnodup := (hperm.map Prod.fst).nodup_iff.mpr h
    exact (ih hnodup).trans hperm

theorem setMembers_of_sorted {members entries : List (String × α)}
    (h : (members ++ entries).Pairwise fun m n => m.1 < n.1) :
    setMembers members entries = members ++ entries := by
  induction entries generalizing members with
  | nil => simp [setMembers]
  | cons entry rest ih =>
    have hlt : ∀ m ∈ members, m.1 < entry.1 := fun m hm =>
      (List.pairwise_append.mp h).2.2 m hm entry (by simp)
    rw [setMembers, List.foldl_cons, setMember_of_lt entry.2 hlt, ← setMembers,
      ih (by simpa using h)]
    simp

end

section
variable (f : Json → Json)

mutual

def mapScalars : Json → Json
  | array elements => array (mapElements elements)
  | object members => object (mapMembers members)
  | v => f v

def mapElements : List Json → List Json
  | [] => []
  | v :: rest => mapScalars v :: mapElements rest

def mapMembers : List (String × Json) → List (String × Json)
  | [] => []
  | m :: rest => mapMember m :: mapMembers rest

def mapMember : String × Json → String × Json
  | (key, v) => (key, mapScalars v)

end

theorem mapElements_eq (elements : List Json) : mapElements f elements = elements.map (mapScalars f) := by
  induction elements with
  | nil => rfl
  | cons v rest ih => rw [mapElements, List.map_cons, ih]

theorem mapMembers_eq (members : List (String × Json)) :
    mapMembers f members = members.map fun m => (m.1, mapScalars f m.2) := by
  induction members with
  | nil => rfl
  | cons m rest ih => rw [mapMembers, List.map_cons, ih, mapMember]

theorem map_mapMembers (members : List (String × Json)) :
    (mapMembers f members).map Prod.fst = members.map Prod.fst := by
  rw [mapMembers_eq, List.map_map]
  rfl

theorem lookup_mapMembers (members : List (String × Json)) (key : String) :
    (mapMembers f members).lookup key = (members.lookup key).map (mapScalars f) := by
  induction members with
  | nil => rfl
  | cons m rest ih =>
    obtain ⟨k, w⟩ := m
    rw [mapMembers, mapMember, lookup_cons, lookup_cons, ih]
    split_ifs <;> rfl

theorem setMember_mapMembers (members : List (String × Json)) (key : String) (v : Json) :
    setMember (mapMembers f members) key (mapScalars f v) = mapMembers f (setMember members key v) := by
  rw [mapMembers_eq, mapMembers_eq]
  exact setMember_map (mapScalars f) members key v

end

def ofMembers (entries : List (String × Json)) : Json := object (setMembers [] entries)

def member (j : Json) (key : String) : Option Json :=
  match j with
  | object members => members.lookup key
  | _ => none

theorem member_mapScalars (f : Json → Json) {key : String}
    (hf : ∀ v : Json, v.member key = none → (f v).member key = none) (v : Json) :
    (v.mapScalars f).member key = (v.member key).map (mapScalars f) := by
  cases v with
  | object members => exact lookup_mapMembers f members key
  | array elements => rfl
  | _ => exact hf _ rfl

theorem member_ofMembers (entries : List (String × Json)) (k : String) :
    (ofMembers entries).member k = entries.reverse.lookup k := by
  rw [ofMembers, member, lookup_setMembers]
  simp

def items : Json → List Json
  | null => []
  | array elements => elements
  | object members => members.map Prod.snd
  | scalar => [scalar]

end Json
