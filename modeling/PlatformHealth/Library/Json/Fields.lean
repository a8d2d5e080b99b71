import PlatformHealth.Library.Json.Quoted

namespace Json

open Yields (bind_eq_ok_iff map_eq_ok_iff)
open Reader (atToken inString resume)

structure Field where
  key : String
  text : List UInt8
  value : Json

def takeByte (b : UInt8) (s : List UInt8) : Option (List UInt8) :=
  match s.dropWhile isWhitespace with
  | [] => none
  | c :: rest => if c = b then some rest else none

def takeChars (state : StringState) (chars : List Char) : List UInt8 → Option (String × List UInt8)
  | [] => none
  | b :: rest =>
    if state = .plain ∧ b = 0x22 then some (String.ofList chars, rest)
    else
      match scanString state b with
      | some (state, read) => takeChars state (chars ++ read) rest
      | none => none

def takeKey (s : List UInt8) : Option (String × List UInt8) := do
  takeChars .plain [] (← takeByte 0x22 s)

def takeValue (s : List UInt8) : Option (List UInt8 × Json × List UInt8) :=
  let s := s.dropWhile isWhitespace
  match ({} : Reader).read s with
  | .ok (v, rest) => some (s.take (s.length - rest.length), v, rest)
  | .error _ => none

def takeField (s : List UInt8) : Option (Field × List UInt8) := do
  let (key, s) ← takeKey s
  let s ← takeByte 0x3A s
  let (text, value, s) ← takeValue s
  return ({ key, text, value }, s)

def takeFields : Nat → List UInt8 → Option (List Field)
  | 0, _ => none
  | fuel + 1, s => do
    let (field, s) ← takeField s
    match takeByte 0x2C s with
    | some s => return field :: (← takeFields fuel s)
    | none =>
      let s ← takeByte 0x7D s
      if s.all isWhitespace then return [field] else none

def objectFields (s : List UInt8) : Option (List Field) := do
  let s ← takeByte 0x7B s
  takeFields s.length s

def Field.entry (f : Field) : String × Json := (f.key, f.value)

section
variable {s rest text : List UInt8} {b : UInt8} {stack base : List Frame} {mode : Mode} {v : Json}

theorem takeByte_spec (h : takeByte b s = some rest) :
    ∃ space, s = space ++ b :: rest ∧ ∀ c ∈ space, isWhitespace c = true := by
  refine ⟨s.takeWhile isWhitespace, ?_, fun c hc => List.mem_takeWhile_imp hc⟩
  rw [takeByte] at h
  have hsplit := List.takeWhile_append_dropWhile (p := isWhitespace) (l := s)
  split at h
  · cases h
  · next c tail heq =>
    split at h
    · next hcb =>
      cases h
      rw [← hcb, ← heq, hsplit]
    · cases h

theorem read_brace (s : List UInt8) :
    (atToken [] .value).read (0x7B :: s) = (atToken [.object [] ""] .firstKey).read s :=
  Reader.read_cons_of_consume rfl s

theorem read_quote (stack : List Frame) (mode : Mode) (s : List UInt8) :
    (atToken stack mode).read (0x22 :: s) = (inString stack mode .plain []).read s :=
  Reader.read_cons_of_consume rfl s

theorem read_colon (stack : List Frame) (s : List UInt8) :
    (atToken stack .colon).read (0x3A :: s) = (atToken stack .value).read s :=
  Reader.read_cons_of_consume rfl s

theorem read_comma (members : List (String × Json)) (key : String) (stack : List Frame)
    (s : List UInt8) : (atToken (.object members key :: stack) .separator).read (0x2C :: s) =
      (atToken (.object members key :: stack) .key).read s :=
  Reader.read_cons_of_consume rfl s

theorem read_takeByte (h : takeByte b s = some rest) :
    (atToken stack mode).read s = (atToken stack mode).read (b :: rest) := by
  obtain ⟨space, rfl, hspace⟩ := takeByte_spec h
  exact Reader.read_append (Reader.feed_whitespace hspace) _

theorem read_takeChars {state : StringState} {chars : List Char} {key : String}
    (h : takeChars state chars s = some (key, rest)) :
    ∃ chars', key = String.ofList chars' ∧
      (inString stack mode state chars).read s = (inString stack mode .plain chars').read (0x22 :: rest) := by
  induction s generalizing state chars with
  | nil => cases h
  | cons b s ih =>
    rw [takeChars] at h
    split at h
    · next hclosed =>
      obtain ⟨rfl, rfl⟩ := hclosed
      cases h
      exact ⟨chars, rfl, rfl⟩
    · next hopen =>
      split at h
      · next state' read hscan =>
        obtain ⟨chars', hkey, hread⟩ := ih h
        refine ⟨chars', hkey, ?_⟩
        rw [← hread]
        refine Reader.read_cons_of_consume ?_ s
        rw [Reader.consume_inString hopen, hscan]
      · cases h

theorem read_takeKey {members : List (String × Json)} {key old : String}
    (hmode : mode = .key ∨ mode = .firstKey) (h : takeKey s = some (key, rest)) :
    (atToken (.object members old :: stack) mode).read s =
      (atToken (.object members key :: stack) .colon).read rest := by
  obtain ⟨front, hfront, hchars⟩ := Option.bind_eq_some_iff.mp h
  obtain ⟨chars, rfl, hread⟩ := read_takeChars hchars
  rw [read_takeByte hfront, read_quote, hread]
  refine Reader.read_cons_of_consume ?_ rest
  rcases hmode with rfl | rfl <;> rfl

end

namespace Reader

theorem read_resume {r : Reader} {base : List Frame} {s t : List UInt8} {v : Json}
    (hr : r.Valid) (h : r.read s = .ok (v, t)) :
    (r.embed base).read s = (resume base v).read t := by
  obtain ⟨front, m, rfl, hfront, n, hn, hdone⟩ := read_cases h
  have hm := valid_feed hr hfront
  have hembed : n.embed base = resume base v := by
    rw [embed, hdone, (valid_settle hm hn).done v hdone]
    rfl
  have hsettle : (m.embed base).settle t.head? = .ok (resume base v) := by
    rw [settle_embed base hm, hn, ← hembed]
    rfl
  rw [read_append (feed_embed base hr hfront)]
  cases t with
  | nil =>
    rw [read, read, ← List.head?_nil, hsettle]
    rfl
  | cons b t =>
    rw [read, read, ← List.head?_cons, hsettle]
    rfl

end Reader

section
variable {s rest text : List UInt8} {stack : List Frame} {mode : Mode} {v : Json}

theorem takeValue_spec (h : takeValue s = some (text, v, rest)) :
    ({} : Reader).read (text ++ rest) = .ok (v, rest) ∧
      ∃ space, s = space ++ (text ++ rest) ∧ ∀ c ∈ space, isWhitespace c = true := by
  rw [takeValue] at h
  split at h
  · next v' rest' hread =>
    cases h
    obtain ⟨front, -, hsplit, -⟩ := Reader.read_cases hread
    have htake : (s.dropWhile isWhitespace).take ((s.dropWhile isWhitespace).length - rest.length) =
        front := by
      rw [hsplit]
      simp
    rw [htake, ← hsplit]
    refine ⟨hread, s.takeWhile isWhitespace, ?_, fun c hc => List.mem_takeWhile_imp hc⟩
    exact List.takeWhile_append_dropWhile.symm
  · cases h

theorem read_takeField {members : List (String × Json)} {old : String} {field : Field}
    (hmode : mode = .key ∨ mode = .firstKey) (h : takeField s = some (field, rest)) :
    (atToken (.object members old :: stack) mode).read s =
      (atToken (.object (setMember members field.key field.value) "" :: stack) .separator).read
        rest := by
  obtain ⟨⟨key, afterKey⟩, hkey, h⟩ := Option.bind_eq_some_iff.mp h
  obtain ⟨afterColon, hcolon, h⟩ := Option.bind_eq_some_iff.mp h
  obtain ⟨⟨text, value, afterValue⟩, hvalue, h⟩ := Option.bind_eq_some_iff.mp h
  cases h
  obtain ⟨hread, space, rfl, hspace⟩ := takeValue_spec hvalue
  rw [read_takeKey hmode hkey, read_takeByte hcolon, read_colon,
    Reader.read_append (Reader.feed_whitespace hspace)]
  exact Reader.read_resume Reader.valid_start hread

theorem read_takeFields {fuel : Nat} {fields : List Field} (members : List (String × Json))
    (old : String) (hmode : mode = .key ∨ mode = .firstKey)
    (h : takeFields fuel s = some fields) :
    ∃ rest, (∀ c ∈ rest, isWhitespace c = true) ∧ (atToken [.object members old] mode).read s =
      .ok (.object (setMembers members (fields.map Field.entry)), rest) := by
  induction fuel generalizing s members old mode fields with
  | zero => cases h
  | succ fuel ih =>
    obtain ⟨⟨field, afterField⟩, hfield, h⟩ := Option.bind_eq_some_iff.mp h
    rw [read_takeField hmode hfield]
    dsimp only at h
    split at h
    · next afterComma hcomma =>
      obtain ⟨tail, htail, h⟩ := Option.bind_eq_some_iff.mp h
      cases h
      obtain ⟨rest, hrest, hread⟩ := ih (setMember members field.key field.value) "" (.inl rfl) htail
      refine ⟨rest, hrest, ?_⟩
      rw [read_takeByte hcomma, read_comma, hread]
      rfl
    · obtain ⟨rest, hbrace, h⟩ := Option.bind_eq_some_iff.mp h
      split at h
      · next hspace =>
        cases h
        refine ⟨rest, by simpa using hspace, ?_⟩
        rw [read_takeByte hbrace]
        cases rest <;> rfl
      · cases h

theorem skipBom_of_takeByte (h : takeByte 0x7B s = some rest) : skipBom s = .ok s := by
  obtain ⟨space, rfl, hspace⟩ := takeByte_spec h
  cases space with
  | nil => rfl
  | cons c space =>
    have hc := hspace c (by simp)
    unfold skipBom
    split
    · next heq =>
      cases heq
      exact absurd hc (by decide)
    · rfl

theorem reads_of_objectFields {fields : List Field} (h : objectFields s = some fields) :
    Reads s (ofMembers (fields.map Field.entry)) := by
  obtain ⟨front, hfront, hfields⟩ := Option.bind_eq_some_iff.mp h
  obtain ⟨rest, hrest, hread⟩ := read_takeFields [] "" (.inr rfl) hfields
  refine ⟨rest, ?_, hrest⟩
  change (atToken [] .value).read s = _
  rw [read_takeByte hfront, read_brace, hread]
  rfl

theorem parse_of_objectFields {fields : List Field} (h : objectFields s = some fields) :
    parse true s = .ok (ofMembers (fields.map Field.entry)) := by
  obtain ⟨rest, hread, hrest⟩ := reads_of_objectFields h
  obtain ⟨front, hfront, -⟩ := Option.bind_eq_some_iff.mp h
  have hfirst : readFirst s = .ok (ofMembers (fields.map Field.entry), rest) := by
    rw [readFirst, skipBom_of_takeByte hfront]
    exact hread
  have hend : endOfInput rest = true := by
    rw [endOfInput, List.dropWhile_eq_nil_iff.mpr hrest]
  rw [parse_eq, hfirst]
  simp [hend]

theorem read_text {fuel : Nat} {fields : List Field} (h : takeFields fuel s = some fields) :
    ∀ f ∈ fields, ∃ rest, ({} : Reader).read (f.text ++ rest) = .ok (f.value, rest) := by
  induction fuel generalizing s fields with
  | zero => cases h
  | succ fuel ih =>
    obtain ⟨⟨field, afterField⟩, hfield, h⟩ := Option.bind_eq_some_iff.mp h
    have hfirst : ∃ rest, ({} : Reader).read (field.text ++ rest) = .ok (field.value, rest) := by
      obtain ⟨⟨key, afterKey⟩, hkey, hfield⟩ := Option.bind_eq_some_iff.mp hfield
      obtain ⟨afterColon, hcolon, hfield⟩ := Option.bind_eq_some_iff.mp hfield
      obtain ⟨⟨text, value, afterValue⟩, hvalue, hfield⟩ := Option.bind_eq_some_iff.mp hfield
      cases hfield
      exact ⟨_, (takeValue_spec hvalue).1⟩
    dsimp only at h
    split at h
    · obtain ⟨tail, htail, h⟩ := Option.bind_eq_some_iff.mp h
      cases h
      intro f hf
      rcases List.mem_cons.mp hf with rfl | hf
      · exact hfirst
      · exact ih htail f hf
    · obtain ⟨rest, hbrace, h⟩ := Option.bind_eq_some_iff.mp h
      split at h
      · cases h
        intro f hf
        obtain rfl : f = field := by simpa using hf
        exact hfirst
      · cases h

end

-- of equal keys the last one counts
def lastField (fields : List Field) (key : String) : Option Field :=
  fields.reverse.find? (·.key = key)

theorem lookup_entry (fields : List Field) (key : String) :
    (fields.map Field.entry).lookup key = (fields.find? (·.key = key)).map (·.value) := by
  induction fields with
  | nil => rfl
  | cons f fields ih =>
    rw [List.map_cons, Field.entry, lookup_cons, ih]
    by_cases hf : f.key = key
    · simp [hf]
    · simp [hf, Ne.symm hf]

theorem member_lastField (fields : List Field) (key : String) :
    (ofMembers (fields.map Field.entry)).member key = (lastField fields key).map (·.value) := by
  rw [member_ofMembers, ← List.map_reverse, lookup_entry, lastField]

end Json
