import PlatformHealth.Library.Json.Value

namespace Json

def number? : Json → Option ℚ
  | unsigned n => some n.toNat
  | integer n => some n.toInt
  | float q => some q
  | _ => none

abbrev Schema := Json → Prop

namespace Schema

def boolean : Schema := fun j => ∃ b, j = .boolean b

def string (p : String → Prop) : Schema := fun j => ∃ s, j = .string s ∧ p s

def number (p : ℚ → Prop) : Schema := fun j => ∃ q, j.number? = some q ∧ p q

def integer (p : Int → Prop) : Schema := fun j => ∃ n : Int, j.number? = some (n : ℚ) ∧ p n

def array (items : Schema) : Schema := fun j => ∃ es, j = .array es ∧ ∀ e ∈ es, items e

def uniqueItems : Schema := fun j => ∀ es, j = .array es → es.Nodup

-- additional is what members outside properties must conform to
def object (properties : List (String × Schema)) (required : List String) (additional : Schema) :
    Schema := fun j =>
  ∃ members, j = .object members ∧ (∀ key ∈ required, (members.lookup key).isSome = true) ∧
    ∀ m ∈ members, ((properties.lookup m.1).getD additional) m.2

def never : Schema := fun _ => False

section
variable {properties : List (String × Schema)} {required : List String} {additional s : Schema}
  {members : List (String × Json)} {key : String} {v : Json}

theorem mem_of_lookup {α : Type} {entries : List (String × α)} {value : α}
    (h : entries.lookup key = some value) : (key, value) ∈ entries := by
  induction entries with
  | nil => cases h
  | cons entry rest ih =>
    rw [lookup_cons] at h
    split at h
    · next heq =>
      cases h
      simp [heq]
    · exact List.mem_cons_of_mem _ (ih h)

theorem lookup_of_mem {α : Type} {entries : List (String × α)} (h : (entries.map Prod.fst).Nodup)
    {entry : String × α} (hmem : entry ∈ entries) : entries.lookup entry.1 = some entry.2 := by
  induction entries with
  | nil => cases hmem
  | cons first rest ih =>
    obtain ⟨hfirst, hrest⟩ := List.nodup_cons.mp h
    rw [lookup_cons]
    rcases List.mem_cons.mp hmem with rfl | hmem
    · exact if_pos rfl
    · have hne : entry.1 ≠ first.1 := fun heq => hfirst (heq ▸ List.mem_map_of_mem hmem)
      rw [if_neg hne]
      exact ih hrest hmem

theorem conforms_member (key : String) (h : object properties required additional (.object members))
    (hs : properties.lookup key = some s) (hv : members.lookup key = some v) : s v := by
  obtain ⟨ms, ⟨⟩, -, hall⟩ := h
  simpa [hs] using hall (key, v) (mem_of_lookup hv)

theorem unknown_member (h : object properties required never (.object members))
    (hs : properties.lookup key = none) : members.lookup key = none := by
  obtain ⟨ms, ⟨⟩, -, hall⟩ := h
  rw [Option.eq_none_iff_forall_ne_some]
  intro v hv
  simpa [hs, never] using hall (key, v) (mem_of_lookup hv)

theorem required_member (key : String) (h : object properties required additional (.object members))
    (hkey : key ∈ required) : ∃ v, members.lookup key = some v := by
  obtain ⟨ms, ⟨⟩, hrequired, -⟩ := h
  exact Option.isSome_iff_exists.mp (hrequired key hkey)

theorem object_iff (hmembers : (members.map Prod.fst).Nodup) (hproperties : (properties.map Prod.fst).Nodup) :
    object properties required never (.object members) ↔
      (∀ key ∈ required, ∃ v, members.lookup key = some v) ∧
        (∀ m ∈ members, m.1 ∈ properties.map Prod.fst) ∧
          ∀ p ∈ properties, ∀ v, members.lookup p.1 = some v → p.2 v := by
  constructor
  · intro h
    refine ⟨fun key hkey => required_member key h hkey, fun m hm => ?_, fun p hp v hv => ?_⟩
    · by_contra hunknown
      have hnone : properties.lookup m.1 = none := by
        refine Option.eq_none_iff_forall_ne_some.mpr fun s hs => hunknown ?_
        exact List.mem_map_of_mem (mem_of_lookup hs)
      exact absurd ((unknown_member h hnone).symm.trans (lookup_of_mem hmembers hm)) (by simp)
    · exact conforms_member p.1 h (lookup_of_mem hproperties hp) hv
  · rintro ⟨hrequired, hknown, hconform⟩
    refine ⟨members, rfl, fun key hkey => Option.isSome_iff_exists.mpr (hrequired key hkey), fun m hm => ?_⟩
    obtain ⟨p, hp, hkey⟩ := List.mem_map.mp (hknown m hm)
    rw [← hkey, lookup_of_mem hproperties hp]
    exact hconform p hp m.2 (by rw [hkey, lookup_of_mem hmembers hm])

end

end Schema

end Json
