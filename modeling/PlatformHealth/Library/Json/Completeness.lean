import PlatformHealth.Library.Json.Fields

namespace Json

open Yields (bind_eq_ok_iff map_eq_ok_iff)
open Reader (atToken inString)

section
variable {s rest : List UInt8}

theorem length_takeByte {b : UInt8} (h : takeByte b s = some rest) : rest.length < s.length := by
  obtain ⟨space, rfl, -⟩ := takeByte_spec h
  simp only [List.length_append, List.length_cons]
  omega

theorem takeByte_of_head {b : UInt8} (h : s.dropWhile isWhitespace = b :: rest) :
    takeByte b s = some rest := by
  simp [takeByte, h]

theorem takeByte_of_ne {b c : UInt8} (h : s.dropWhile isWhitespace = b :: rest) (hne : b ≠ c) :
    takeByte c s = none := by
  simp [takeByte, h, hne]

end

def Mode.admits : Mode → List UInt8
  | .value | .first => []
  | .firstKey => [0x22, 0x7D]
  | .key => [0x22]
  | .colon => [0x3A]
  | .separator => [0x2C, 0x5D, 0x7D]

def Mode.refuses (mode : Mode) : Scanned → Bool
  | .invalid => true
  | .token (.value _) | .token .overflow | .lexer .between => false
  | .token .beginArray | .token .beginObject => true
  | .token .endArray | .token .valueSeparator => mode ≠ .separator
  | .token .endObject => mode ≠ .separator && mode ≠ .firstKey
  | .token .nameSeparator => mode ≠ .colon
  | .lexer (.string _ _) => mode = .separator || mode = .colon
  | .lexer _ => true

theorem refuses_of_not_admits {mode : Mode} (hvalue : mode ≠ .value) (hfirst : mode ≠ .first)
    {b : UInt8} (hspace : isWhitespace b = false) (hb : b ∉ mode.admits) :
    mode.refuses (scan b) = true := by
  have hall (m : Mode) (hm : m ≠ .value) (hm' : m ≠ .first) (c : UInt8) :
      (isWhitespace c || c ∈ m.admits || m.refuses (scan c)) = true := by
    revert c
    cases m with
    | value => exact absurd rfl hm
    | first => exact absurd rfl hm'
    | firstKey =>
      exact ByteString.byte_forall (p := fun c =>
        isWhitespace c || c ∈ Mode.firstKey.admits || Mode.firstKey.refuses (scan c)) (by decide +kernel)
    | key =>
      exact ByteString.byte_forall (p := fun c =>
        isWhitespace c || c ∈ Mode.key.admits || Mode.key.refuses (scan c)) (by decide +kernel)
    | colon =>
      exact ByteString.byte_forall (p := fun c =>
        isWhitespace c || c ∈ Mode.colon.admits || Mode.colon.refuses (scan c)) (by decide +kernel)
    | separator =>
      exact ByteString.byte_forall (p := fun c =>
        isWhitespace c || c ∈ Mode.separator.admits || Mode.separator.refuses (scan c))
        (by decide +kernel)
  have h := hall mode hvalue hfirst b
  simpa [hspace, hb] using h

namespace Reader

section
variable {r : Reader} {b : UInt8} {s t : List UInt8} {v : Json} {stack : List Frame} {mode : Mode}

theorem consume_of_read_atToken (h : (atToken stack mode).read (b :: s) = .ok (v, t)) :
    ∃ r', (atToken stack mode).advance b = .ok r' ∧ r'.read s = .ok (v, t) := by
  rcases read_cons_cases h with ⟨r', hr', hrest⟩ | ⟨n, hn, hdone, -⟩
  · exact ⟨r', hr', hrest⟩
  · cases hn
    cases hdone

theorem advance_refused {r' : Reader} (hvalue : mode ≠ .value) (hfirst : mode ≠ .first)
    (hspace : isWhitespace b = false)
    (h : mode.refuses (scan b) = true) (hadvance : (atToken stack mode).advance b = .ok r') :
    r'.Stuck := by
  have hnext : Lexer.between.next b = scan b := by simp [Lexer.next, hspace]
  rw [advance, atToken, hnext] at hadvance
  cases hscan : scan b with
  | invalid => simp [hscan] at hadvance
  | lexer l =>
    rw [hscan] at h hadvance
    cases hadvance
    refine ⟨⟨stack, mode, rfl, ?_⟩, ?_, spells_scan hscan⟩
    · cases mode with
      | value => exact absurd rfl hvalue
      | first => exact absurd rfl hfirst
      | separator => trivial
      | colon => trivial
      | key | firstKey =>
        rintro state chars rfl
        cases h
    · rintro rfl
      cases h
  | token t =>
    rw [hscan] at h hadvance
    obtain ⟨state, hstep, -⟩ := bind_eq_ok_iff.mp hadvance
    cases mode with
    | value => exact absurd rfl hvalue
    | first => exact absurd rfl hfirst
    | firstKey | key | colon | separator => cases t <;> first | (cases hstep; done) | cases h

theorem first_admitted (hvalue : mode ≠ .value) (hfirst : mode ≠ .first)
    (h : (atToken stack mode).read s = .ok (v, t)) :
    ∃ b rest, s.dropWhile isWhitespace = b :: rest ∧ b ∈ mode.admits := by
  induction s with
  | nil => cases h
  | cons b s ih =>
    by_cases hspace : isWhitespace b = true
    · rw [read_cons_of_consume (consume_whitespace hspace)] at h
      obtain ⟨c, rest, hrest, hc⟩ := ih h
      exact ⟨c, rest, by simpa [hspace] using hrest, hc⟩
    · refine ⟨b, s, by simp [hspace], ?_⟩
      by_contra hb
      obtain ⟨r', hadvance, hrest⟩ := consume_of_read_atToken h
      have hrefuses := refuses_of_not_admits hvalue hfirst (by simpa using hspace) hb
      exact (advance_refused hvalue hfirst (by simpa using hspace) hrefuses hadvance).read hrest

theorem read_dropWhile (stack : List Frame) (mode : Mode) (s : List UInt8) :
    (atToken stack mode).read (s.dropWhile isWhitespace) = (atToken stack mode).read s := by
  have hspace : ∀ b ∈ s.takeWhile isWhitespace, isWhitespace b = true :=
    fun b hb => List.mem_takeWhile_imp hb
  conv_rhs => rw [← List.takeWhile_append_dropWhile (p := isWhitespace) (l := s)]
  exact (read_append (feed_whitespace hspace) _).symm

theorem read_append_of_ne_nil {r : Reader} {w : List UInt8} (h : r.read s = .ok (v, t))
    (ht : t ≠ []) : r.read (s ++ w) = .ok (v, t ++ w) := by
  obtain ⟨front, m, rfl, hfront, n, hn, hdone⟩ := read_cases h
  obtain ⟨b, t, rfl⟩ := List.exists_cons_of_ne_nil ht
  rw [List.append_assoc, read_append hfront, List.cons_append, read, ← List.head?_cons, hn]
  simp [hdone, bind, Except.bind]

theorem read_start_of_read {base : List Frame} (hbase : base ≠ [])
    (h : (atToken base .value).read s = .ok (v, t)) :
    ∃ w rest, ({} : Reader).read s = .ok (w, rest) := by
  obtain ⟨front, m, rfl, hfront, n, hn, hdone⟩ := read_cases h
  rcases feed_embed_cases base valid_start hfront with ⟨r, hr, rfl⟩ | ⟨w, rest, hrest, hread, -⟩
  · rw [settle_embed base (valid_feed valid_start hr)] at hn
    obtain ⟨n', -, rfl⟩ := map_eq_ok_iff.mp hn
    obtain ⟨frame, base, rfl⟩ := List.exists_cons_of_ne_nil hbase
    obtain ⟨state, lexer⟩ := n'
    cases state with
    | reading stack mode => cases hdone
    | done w => cases frame <;> cases hdone
  · exact ⟨w, rest ++ t, read_append_of_ne_nil hread hrest⟩

theorem takeChars_of_read {state : StringState} {chars : List Char}
    (h : (inString stack mode state chars).read s = .ok (v, t)) :
    ∃ key rest, takeChars state chars s = some (key, rest) ∧ rest.length < s.length := by
  induction s generalizing state chars with
  | nil =>
    rw [read_nil, map_eq_ok_iff] at h
    obtain ⟨w, hfinish, -⟩ := h
    exact absurd hfinish (finish_inString stack mode state chars w)
  | cons b s ih =>
    rcases read_cons_cases h with ⟨r', hr', hrest⟩ | ⟨n, hn, hdone, -⟩
    · rw [takeChars]
      split
      · exact ⟨_, s, rfl, by simp⟩
      · next hopen =>
        rw [consume_inString hopen] at hr'
        cases hscan : scanString state b with
        | none => simp [hscan] at hr'
        | some p =>
          simp only [hscan] at hr'
          cases hr'
          obtain ⟨key, rest, htake, hlength⟩ := ih hrest
          exact ⟨key, rest, htake, by simp only [List.length_cons]; omega⟩
    · cases hn
      cases hdone

end

end Reader

section
variable {s t rest text : List UInt8} {stack base : List Frame} {mode : Mode} {v : Json}
  {members : List (String × Json)} {old : String}

theorem takeByte_of_read {mode : Mode} (hvalue : mode ≠ .value) (hfirst : mode ≠ .first)
    (h : (atToken stack mode).read s = .ok (v, t)) :
    ∃ b rest, b ∈ mode.admits ∧ takeByte b s = some rest ∧ ∀ c, c ≠ b → takeByte c s = none := by
  obtain ⟨b, rest, hs, hb⟩ := Reader.first_admitted hvalue hfirst h
  exact ⟨b, rest, hb, takeByte_of_head hs, fun c hc => takeByte_of_ne hs hc.symm⟩

theorem takeValue_of_read (hbase : base ≠ []) (h : (atToken base .value).read s = .ok (v, t)) :
    ∃ text value rest, takeValue s = some (text, value, rest) ∧ rest.length ≤ s.length := by
  rw [← Reader.read_dropWhile] at h
  obtain ⟨value, rest, hread⟩ := Reader.read_start_of_read hbase h
  have htake : takeValue s = some ((s.dropWhile isWhitespace).take
      ((s.dropWhile isWhitespace).length - rest.length), value, rest) := by
    simp only [takeValue, hread]
  obtain ⟨-, space, hs, -⟩ := takeValue_spec htake
  refine ⟨_, value, rest, htake, ?_⟩
  have hlength := congrArg List.length hs
  simp only [List.length_append] at hlength
  omega

theorem takeField_of_read {front : List UInt8} (hmode : mode = .key ∨ mode = .firstKey)
    (hquote : takeByte 0x22 s = some front)
    (h : (atToken (.object members old :: stack) mode).read s = .ok (v, t)) :
    ∃ field rest, takeField s = some (field, rest) ∧ rest.length < s.length := by
  have hchars := h
  rw [read_takeByte hquote, read_quote] at hchars
  obtain ⟨key, afterKey, hkey, hlength⟩ := Reader.takeChars_of_read hchars
  have htakeKey : takeKey s = some (key, afterKey) := by
    simp only [takeKey, hquote, Option.bind_eq_bind, Option.bind_some, hkey]
  rw [read_takeKey hmode htakeKey] at h
  obtain ⟨b, afterColon, hb, hcolon, -⟩ := takeByte_of_read (by decide) (by decide) h
  obtain rfl : b = 0x3A := by simpa [Mode.admits] using hb
  rw [read_takeByte hcolon, read_colon] at h
  obtain ⟨text, value, rest, hvalue, hshort⟩ := takeValue_of_read (by simp) h
  refine ⟨{ key, text, value }, rest, ?_, ?_⟩
  · simp only [takeField, htakeKey, hcolon, hvalue, Option.bind_eq_bind, Option.bind_some]
    rfl
  · have hfront := length_takeByte hquote
    have hafter := length_takeByte hcolon
    omega

theorem takeFields_of_read {fuel : Nat} {front : List UInt8} (hfuel : s.length ≤ fuel)
    (hmode : mode = .key ∨ mode = .firstKey) (hquote : takeByte 0x22 s = some front)
    (h : (atToken [.object members old] mode).read s = .ok (v, t))
    (ht : ∀ b ∈ t, isWhitespace b = true) : ∃ fields, takeFields fuel s = some fields := by
  induction fuel generalizing s members old mode front with
  | zero =>
    have hlength := length_takeByte hquote
    omega
  | succ fuel ih =>
    obtain ⟨field, rest, hfield, hshort⟩ := takeField_of_read hmode hquote h
    rw [read_takeField hmode hfield] at h
    obtain ⟨b, next, hb, hnext, hother⟩ := takeByte_of_read (by decide) (by decide) h
    rw [read_takeByte hnext] at h
    simp only [takeFields, hfield, Option.bind_eq_bind, Option.bind_some]
    simp only [Mode.admits, List.mem_cons, List.not_mem_nil, or_false] at hb
    rcases hb with rfl | rfl | rfl
    · rw [read_comma] at h
      obtain ⟨c, front', hc, hquote', -⟩ := takeByte_of_read (by decide) (by decide) h
      obtain rfl : c = 0x22 := by simpa [Mode.admits] using hc
      have hfuel' : next.length ≤ fuel := by
        have hlength := length_takeByte hnext
        omega
      obtain ⟨fields, hfields⟩ := ih hfuel' (.inl rfl) hquote' h
      exact ⟨field :: fields, by simp [hnext, hfields]⟩
    · cases h
    · have hdone : (atToken [.object (setMember members field.key field.value) ""] .separator).read
          (0x7D :: next) = .ok (.object (setMember members field.key field.value), next) := by
        cases next <;> rfl
      rw [hdone] at h
      cases h
      exact ⟨[field], by simpa [hnext, hother 0x2C (by decide)] using ht⟩

theorem objectFields_of_reads {front : List UInt8} (hopen : takeByte 0x7B s = some front)
    (h : Reads s v) : v = .object [] ∨ ∃ fields, objectFields s = some fields := by
  obtain ⟨t, hread, ht⟩ := h
  change (atToken [] .value).read s = _ at hread
  rw [read_takeByte hopen, read_brace] at hread
  obtain ⟨b, next, hb, hnext, -⟩ := takeByte_of_read (by decide) (by decide) hread
  simp only [Mode.admits, List.mem_cons, List.not_mem_nil, or_false] at hb
  rcases hb with rfl | rfl
  · obtain ⟨fields, hfields⟩ := takeFields_of_read le_rfl (.inr rfl) hnext hread ht
    exact .inr ⟨fields, by simp [objectFields, hopen, hfields]⟩
  · rw [read_takeByte hnext] at hread
    cases next <;> cases hread <;> exact .inl rfl

end

end Json
