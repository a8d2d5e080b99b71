import PlatformHealth.Config.Shape

namespace PlatformHealth

namespace ConfigParser

open Json (ReadError)

def outcome {α : Type} (x : ParserM α) (lastError : String) : Option α :=
  (x.run lastError).1.toOption

section
variable {rt : CppRuntime} {strict : Bool} {lastError path : String} {s rest : List UInt8}
  {root : Json} {e : ReadError}

theorem outcome_of_parsed (h : Json.parse strict s = .ok root) :
    outcome (do liftM (parseRoot rt (← readJson rt strict s)) : ParserM ParseResult) lastError =
      (parseRoot rt root).toOption := by
  cases hroot : parseRoot rt root <;> simp [outcome, readJson, h, hroot, liftM] <;> rfl

theorem outcome_of_unread (h : Json.parse strict s = .error e) :
    outcome (do liftM (parseRoot rt (← readJson rt strict s)) : ParserM ParseResult) lastError =
      none := by
  cases e <;> simp [outcome, readJson, h, fail] <;> rfl

theorem outcome_parseFile (h : Json.readFirst s = .ok (root, rest)) :
    outcome (parseFile rt path (some s)) lastError = (parseRoot rt root).toOption :=
  outcome_of_parsed (by simp [Json.parse_eq, h])

theorem outcome_parseString (h : Json.readFirst s = .ok (root, rest)) :
    outcome (parseString rt s) lastError =
      if Json.endOfInput rest then (parseRoot rt root).toOption else none := by
  split
  · next hend => exact outcome_of_parsed (by simp [Json.parse_eq, h, hend])
  · next hend => exact outcome_of_unread (e := .syntaxError) (by simp [Json.parse_eq, h, hend])

theorem outcome_of_error (h : Json.readFirst s = .error e) :
    outcome (do liftM (parseRoot rt (← readJson rt strict s)) : ParserM ParseResult) lastError =
      none :=
  outcome_of_unread (by rw [Json.parse_eq, h])

theorem not_shape_iff : (parseRoot rt root).toOption = none ↔ ¬ ConfigShape root := by
  rw [← @returns_parseRoot rt]
  cases parseRoot rt root <;> simp [Returns, Except.toOption]

end

-- nothing but whitespace follows the first value, or it is no configuration anyway
def OneDocument (s : List UInt8) : Prop :=
  ∀ root rest, Json.readFirst s = .ok (root, rest) → Json.endOfInput rest = true ∨ ¬ ConfigShape root

theorem parseFile_eq_parseString_iff (rt : CppRuntime) (path lastError lastError' : String)
    (s : List UInt8) :
    outcome (parseFile rt path (some s)) lastError = outcome (parseString rt s) lastError' ↔
      OneDocument s := by
  cases hread : Json.readFirst s with
  | error e =>
    have hfile : outcome (parseFile rt path (some s)) lastError = none := outcome_of_error hread
    have hstring : outcome (parseString rt s) lastError' = none := outcome_of_error hread
    exact iff_of_true (hfile.trans hstring.symm) (by simp [OneDocument, hread])
  | ok p =>
    obtain ⟨root, rest⟩ := p
    have hcond : OneDocument s ↔
        (Json.endOfInput rest = true ∨ (parseRoot rt root).toOption = none) := by
      simp [OneDocument, hread, not_shape_iff]
    rw [outcome_parseFile hread, outcome_parseString hread, hcond]
    by_cases hend : Json.endOfInput rest = true
    · simp [hend]
    · simp [hend]

theorem parseFile_ignores_trailing_text :
    outcome (parseFile .truncating "" (some [0x7B, 0x7D, 0x78])) "" ≠
      outcome (parseString .truncating [0x7B, 0x7D, 0x78]) "" := by
  intro h
  have hfile : (outcome (parseFile .truncating "" (some [0x7B, 0x7D, 0x78])) "").isSome = true :=
    rfl
  have hstring : outcome (parseString .truncating [0x7B, 0x7D, 0x78]) "" = none := rfl
  rw [h, hstring] at hfile
  exact Bool.false_ne_true hfile

end ConfigParser

end PlatformHealth
