import PlatformHealth.Config.Validate
import PlatformHealth.Library.ByteString
import PlatformHealth.Library.Runs

namespace PlatformHealth

open Json (ReadError)

-- the exceptions of the JSON library derive from std::exception alone
def CppException.isRuntimeError : CppException → Bool
  | .runtimeError _ => true
  | _ => false

namespace ConfigParser

inductive ParserCall where
  | parseFile (jsonPath : String) (content : Option (List UInt8))
  | parseString (jsonContent : List UInt8)
  | validate (jsonPath : String) (content : Option (List UInt8))

variable (rt : CppRuntime)

-- s_last_error of the thread after a call
def errorAfter (lastError : String) : ParserCall → String
  | .parseFile jsonPath content => ((parseFile rt jsonPath content).run.run lastError).2
  | .parseString jsonContent => ((parseString rt jsonContent).run.run lastError).2
  | .validate jsonPath content => ((validate rt jsonPath content).run lastError).2

def KeepsContract (text : List UInt8) (lastError : String) : Prop :=
  ∀ e after, (parseString rt text).run.run lastError = (.error e, after) →
    e.isRuntimeError = true ∧ after = e.what

section
variable {rt} {text : List UInt8} {root : Json} {lastError : String}

theorem run_parseString (hread : Json.parse true text = .ok root) :
    (parseString rt text).run.run lastError = (parseRoot rt root, lastError) := by
  cases hroot : parseRoot rt root <;> simp [parseString, readJson, hread, hroot, liftM] <;> rfl

theorem run_of_malformed (hread : Json.parse true text = .error .syntaxError) :
    (parseString rt text).run.run lastError =
      (.error (.runtimeError ("JSON parse error: " ++ rt.what text .syntaxError)),
        "JSON parse error: " ++ rt.what text .syntaxError) := by
  simp [parseString, readJson, hread, fail]
  rfl

theorem run_of_overflow (hread : Json.parse true text = .error .outOfRange) :
    (parseString rt text).run.run lastError =
      (.error (.readError .outOfRange (rt.what text .outOfRange)), lastError) := by
  simp [parseString, readJson, hread]
  rfl

theorem contract_of_read (hread : Json.parse true text = .ok root) :
    KeepsContract rt text lastError ↔
      ∀ e, parseRoot rt root = .error e → e.isRuntimeError = true ∧ lastError = e.what := by
  rw [KeepsContract, run_parseString hread]
  constructor
  · intro h e he
    exact h e lastError (by rw [he])
  · rintro h e after heq
    obtain ⟨he, rfl⟩ := Prod.mk.inj heq
    exact h e he

end

theorem parseString_contract_iff (text : List UInt8) :
    (∀ history : List ParserCall, KeepsContract rt text (Runs.run (errorAfter rt) "" history)) ↔
      Json.parse true text = .error .syntaxError ∨
        ∃ root, Json.parse true text = .ok root ∧ ConfigShape root := by
  cases hread : Json.parse true text with
  | error e =>
    cases e with
    | syntaxError =>
      refine iff_of_true (fun history e after heq => ?_) (.inl rfl)
      rw [run_of_malformed hread] at heq
      obtain ⟨he, rfl⟩ := Prod.mk.inj heq
      cases he
      exact ⟨rfl, rfl⟩
    | outOfRange =>
      refine iff_of_false (fun h => ?_) (by simp)
      exact Bool.false_ne_true (h [] _ _ (run_of_overflow hread)).1
  | ok root =>
    have hshape : Returns (parseRoot rt root) ↔ ConfigShape root := returns_parseRoot
    simp only [contract_of_read hread, Except.ok.injEq, reduceCtorEq, false_or, exists_eq_left',
      ← hshape]
    constructor
    · intro h
      cases hroot : parseRoot rt root with
      | ok r => exact ⟨r, rfl⟩
      | error e =>
        have hfresh : "" = e.what := (h [] e hroot).2
        have hstale : "Cannot open file: " ++ "" = e.what := (h [.parseFile "" none] e hroot).2
        exact absurd (hfresh.trans hstale.symm) (by decide)
    · rintro ⟨r, hr⟩ history e he
      rw [hr] at he
      cases he

def namelessText : List UInt8 := ByteString.utf8 "\x7b\"supervised_entities\":[\x7b\x7d]\x7d"

theorem failures_break_contract :
    ¬ KeepsContract .truncating [0x5B, 0x5D] "" ∧
      ¬ KeepsContract .truncating namelessText
        (Runs.run (errorAfter .truncating) "" [.parseString [0x78]]) := by
  constructor
  · intro h
    have hroot : (parseString .truncating [0x5B, 0x5D]).run.run "" =
        (.error (.typeError "[json.exception.type_error.306] cannot use value() with array"), "") := rfl
    exact Bool.false_ne_true (h _ _ hroot).1
  · intro h
    have hname : (parseString .truncating namelessText).run.run
        (Runs.run (errorAfter .truncating) "" [.parseString [0x78]]) =
          (.error (.runtimeError "Entity missing required field: name"), "JSON parse error: ") := by
      rfl
    exact absurd (h _ _ hname).2 (by decide)

end ConfigParser

end PlatformHealth
