import PlatformHealth.Library.Json.Lexer

namespace Json

-- an object's key is the one whose value comes next
inductive Frame where
  | array (elements : List Json)
  | object (members : List (String × Json)) (key : String)

-- what the reader takes next: a value (first: or the end of the array just begun), the first
-- key or the end of the object, a further key, the colon, a comma or the end of what is open
inductive Mode where
  | value
  | first
  | firstKey
  | key
  | colon
  | separator
deriving DecidableEq

inductive ReadError where
  | syntaxError
  | outOfRange
deriving DecidableEq

inductive State where
  | reading (stack : List Frame) (mode : Mode)
  | done (v : Json)

def deliver (v : Json) : List Frame → State
  | [] => .done v
  | .array elements :: stack => .reading (.array (elements ++ [v]) :: stack) .separator
  | .object members key :: stack =>
    .reading (.object (setMember members key v) "" :: stack) .separator

def State.step (s : State) (t : Token) : Except ReadError State :=
  match s with
  | .done _ => .error .syntaxError
  | .reading stack mode =>
    match mode, t, stack with
    | .value, .beginArray, _ | .first, .beginArray, _ => .ok (.reading (.array [] :: stack) .first)
    | .value, .beginObject, _ | .first, .beginObject, _ =>
      .ok (.reading (.object [] "" :: stack) .firstKey)
    | .value, .value v, _ | .first, .value v, _ => .ok (deliver v stack)
    | .value, .overflow, _ | .first, .overflow, _ => .error .outOfRange
    | .first, .endArray, .array elements :: stack => .ok (deliver (.array elements) stack)
    | .firstKey, .value (.string k), .object members _ :: stack
    | .key, .value (.string k), .object members _ :: stack =>
      .ok (.reading (.object members k :: stack) .colon)
    | .firstKey, .endObject, .object members _ :: stack => .ok (deliver (.object members) stack)
    | .colon, .nameSeparator, _ => .ok (.reading stack .value)
    | .separator, .valueSeparator, .array _ :: _ => .ok (.reading stack .value)
    | .separator, .valueSeparator, .object _ _ :: _ => .ok (.reading stack .key)
    | .separator, .endArray, .array elements :: stack => .ok (deliver (.array elements) stack)
    | .separator, .endObject, .object members _ :: stack =>
      .ok (deliver (.object members) stack)
    | _, _, _ => .error .syntaxError

structure Reader where
  state : State := .reading [] .value
  lexer : Lexer := .between

namespace Reader

-- a number ends where the next byte, or the end of the input, does not continue it
def settle (r : Reader) (b : Option UInt8) (toDouble : ℚ → Option ℚ := Binary64.round) :
    Except ReadError Reader :=
  match r.lexer with
  | .number state n =>
    match scanNumber state n b with
    | .more _ _ => .ok r
    | .done => do return { state := ← r.state.step (n.token toDouble) }
    | .invalid => .error .syntaxError
  | _ => .ok r

def advance (r : Reader) (b : UInt8) : Except ReadError Reader :=
  match r.lexer.next b with
  | .lexer l => .ok { r with lexer := l }
  | .token t => do return { state := ← r.state.step t }
  | .invalid => .error .syntaxError

def read (r : Reader) (s : List UInt8) (toDouble : ℚ → Option ℚ := Binary64.round) :
    Except ReadError (Json × List UInt8) :=
  match s with
  | [] => do
    let r ← r.settle none toDouble
    match r.state with
    | .done v => .ok (v, [])
    | .reading _ _ => .error .syntaxError
  | b :: bs => do
    let r ← r.settle (some b) toDouble
    match r.state with
    | .done v => .ok (v, b :: bs)
    | .reading _ _ =>
      let r ← r.advance b
      r.read bs toDouble

end Reader

def skipBom : List UInt8 → Except ReadError (List UInt8)
  | 0xEF :: rest =>
    match rest with
    | 0xBB :: 0xBF :: rest => .ok rest
    | _ => .error .syntaxError
  | s => .ok s

-- a zero byte counts as the end
def endOfInput (s : List UInt8) : Bool :=
  match s.dropWhile isWhitespace with
  | [] => true
  | b :: _ => b = 0

def readFirst (s : List UInt8) (toDouble : ℚ → Option ℚ := Binary64.round) :
    Except ReadError (Json × List UInt8) := do
  ({} : Reader).read (← skipBom s) toDouble

-- a strict parser also looks at what follows the value
def parse (strict : Bool) (s : List UInt8) (toDouble : ℚ → Option ℚ := Binary64.round) :
    Except ReadError Json := do
  let (v, rest) ← readFirst s toDouble
  if strict && !endOfInput rest then .error .syntaxError else .ok v

theorem parse_eq (strict : Bool) (s : List UInt8) (toDouble : ℚ → Option ℚ := Binary64.round) :
    parse strict s toDouble =
      match readFirst s toDouble with
      | .error e => .error e
      | .ok (v, rest) => if strict && !endOfInput rest then .error .syntaxError else .ok v := by
  rw [parse]
  cases readFirst s toDouble <;> rfl

theorem parse_of_strict {s : List UInt8} {v : Json} (h : parse true s = .ok v) :
    parse false s = .ok v := by
  rw [parse_eq] at h ⊢
  cases hfirst : readFirst s with
  | error e => simp [hfirst] at h
  | ok p => by_cases hend : endOfInput p.2 = true <;> simp_all

theorem parse_of_overflow {s : List UInt8} (h : parse true s = .error .outOfRange) :
    parse false s = .error .outOfRange := by
  rw [parse_eq] at h ⊢
  cases hfirst : readFirst s with
  | error e => simpa [hfirst] using h
  | ok p => by_cases hend : endOfInput p.2 = true <;> simp_all

end Json
