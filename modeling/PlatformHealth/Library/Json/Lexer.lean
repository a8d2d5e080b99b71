import PlatformHealth.Library.Binary64
import PlatformHealth.Library.Json.Value

namespace Json

-- overflow is a number whose nearest double is infinite
inductive Token where
  | beginArray
  | beginObject
  | endArray
  | endObject
  | nameSeparator
  | valueSeparator
  | value (v : Json)
  | overflow

def isWhitespace (b : UInt8) : Bool := b = 0x20 || b = 0x09 || b = 0x0A || b = 0x0D

def digit (b : UInt8) : Option Nat :=
  if 0x30 ≤ b ∧ b ≤ 0x39 then some (b.toNat - 0x30) else none

def hexDigit (b : UInt8) : Option Nat :=
  if 0x30 ≤ b ∧ b ≤ 0x39 then some (b.toNat - 0x30)
  else if 0x41 ≤ b ∧ b ≤ 0x46 then some (b.toNat - 0x37)
  else if 0x61 ≤ b ∧ b ≤ 0x66 then some (b.toNat - 0x57)
  else none

-- mantissa holds the digits before the exponent, places of them after the point
structure Numeral where
  negative : Bool := false
  mantissa : Nat := 0
  places : Nat := 0
  exponentNegative : Bool := false
  exponent : Nat := 0
  isFloat : Bool := false

namespace Numeral

def push (n : Numeral) (d : Nat) : Numeral := { n with mantissa := 10 * n.mantissa + d }

def pushPlace (n : Numeral) (d : Nat) : Numeral := { n.push d with places := n.places + 1 }

def pushExponent (n : Numeral) (d : Nat) : Numeral := { n with exponent := 10 * n.exponent + d }

def magnitude (n : Numeral) : ℚ :=
  if n.exponentNegative then n.mantissa / (10 ^ (n.places + n.exponent) : Nat)
  else (n.mantissa * 10 ^ n.exponent : Nat) / (10 ^ n.places : Nat)

-- toDouble: what a number that is no 64-bit integer is read as
def floatToken (n : Numeral) (toDouble : ℚ → Option ℚ := Binary64.round) : Token :=
  match toDouble (if n.negative then -n.magnitude else n.magnitude) with
  | some q => .value (.float q)
  | none => .overflow

-- an integer that does not fit 64 bits is read as a double
def token (n : Numeral) (toDouble : ℚ → Option ℚ := Binary64.round) : Token :=
  if n.isFloat then n.floatToken toDouble
  else if n.negative then
    if n.mantissa ≤ 2 ^ 63 then .value (.integer (Int64.ofInt (-n.mantissa))) else n.floatToken toDouble
  else if n.mantissa < 2 ^ 64 then .value (.unsigned (UInt64.ofNat n.mantissa))
  else n.floatToken toDouble

end Numeral

inductive NumberState where
  | minus
  | zero
  | any1
  | decimal1
  | decimal2
  | exponent
  | sign
  | any2

inductive NumberStep where
  | more (state : NumberState) (n : Numeral)
  | done
  | invalid

-- none is the end of the input
def scanNumber (state : NumberState) (n : Numeral) (b : Option UInt8) : NumberStep :=
  match state with
  | .minus =>
    match b.bind digit with
    | some 0 => .more .zero n
    | some d => .more .any1 (n.push d)
    | none => .invalid
  | .zero =>
    if b = some 0x2E then .more .decimal1 { n with isFloat := true }
    else if b = some 0x65 ∨ b = some 0x45 then .more .exponent { n with isFloat := true }
    else .done
  | .any1 =>
    match b.bind digit with
    | some d => .more .any1 (n.push d)
    | none =>
      if b = some 0x2E then .more .decimal1 { n with isFloat := true }
      else if b = some 0x65 ∨ b = some 0x45 then .more .exponent { n with isFloat := true }
      else .done
  | .decimal1 =>
    match b.bind digit with
    | some d => .more .decimal2 (n.pushPlace d)
    | none => .invalid
  | .decimal2 =>
    match b.bind digit with
    | some d => .more .decimal2 (n.pushPlace d)
    | none => if b = some 0x65 ∨ b = some 0x45 then .more .exponent n else .done
  | .exponent =>
    if b = some 0x2B then .more .sign n
    else if b = some 0x2D then .more .sign { n with exponentNegative := true }
    else
      match b.bind digit with
      | some d => .more .any2 (n.pushExponent d)
      | none => .invalid
  | .sign =>
    match b.bind digit with
    | some d => .more .any2 (n.pushExponent d)
    | none => .invalid
  | .any2 =>
    match b.bind digit with
    | some d => .more .any2 (n.pushExponent d)
    | none => .done

-- continuation: how many bytes of the character are missing, the range of the next, the bits so far
inductive StringState where
  | plain
  | escape
  | unicode (missing : Nat) (code : Nat) (high : Option Nat)
  | highSurrogate (high : Nat)
  | highSurrogateEscape (high : Nat)
  | continuation (missing : Nat) (low high : UInt8) (code : Nat)
deriving DecidableEq

def between (low high b : UInt8) : Bool := low ≤ b && b ≤ high

-- the first byte of a character that is written as itself
def scanPlain (b : UInt8) : Option (StringState × List Char) :=
  if between 0x20 0x7F b then some (.plain, [Char.ofNat b.toNat])
  else if between 0xC2 0xDF b then some (.continuation 1 0x80 0xBF (b.toNat - 0xC0), [])
  else if b = 0xE0 then some (.continuation 2 0xA0 0xBF 0, [])
  else if b = 0xED then some (.continuation 2 0x80 0x9F 0xD, [])
  else if between 0xE1 0xEF b then some (.continuation 2 0x80 0xBF (b.toNat - 0xE0), [])
  else if b = 0xF0 then some (.continuation 3 0x90 0xBF 0, [])
  else if between 0xF1 0xF3 b then some (.continuation 3 0x80 0xBF (b.toNat - 0xF0), [])
  else if b = 0xF4 then some (.continuation 3 0x80 0x8F 4, [])
  else none

def escaped (b : UInt8) : Option Char :=
  if b = 0x22 then some '\"'
  else if b = 0x5C then some '\\'
  else if b = 0x2F then some '/'
  else if b = 0x62 then some (Char.ofNat 0x08)
  else if b = 0x66 then some (Char.ofNat 0x0C)
  else if b = 0x6E then some '\n'
  else if b = 0x72 then some '\r'
  else if b = 0x74 then some '\t'
  else none

def codePoint (code : Nat) (high : Option Nat) : Option (StringState × List Char) :=
  match high with
  | none =>
    if 0xD800 ≤ code ∧ code ≤ 0xDBFF then some (.highSurrogate code, [])
    else if 0xDC00 ≤ code ∧ code ≤ 0xDFFF then none
    else some (.plain, [Char.ofNat code])
  | some high =>
    if 0xDC00 ≤ code ∧ code ≤ 0xDFFF then
      some (.plain, [Char.ofNat (0x10000 + (high - 0xD800) * 0x400 + (code - 0xDC00))])
    else none

-- one byte of a string that is not its closing quote, and the character it completes
def scanString (state : StringState) (b : UInt8) : Option (StringState × List Char) :=
  match state with
  | .plain => if b = 0x5C then some (.escape, []) else scanPlain b
  | .escape =>
    if b = 0x75 then some (.unicode 4 0 none, []) else (escaped b).map fun c => (.plain, [c])
  | .unicode missing code high => do
    let code := 0x10 * code + (← hexDigit b)
    if missing ≤ 1 then codePoint code high else some (.unicode (missing - 1) code high, [])
  | .highSurrogate high => if b = 0x5C then some (.highSurrogateEscape high, []) else none
  | .highSurrogateEscape high => if b = 0x75 then some (.unicode 4 0 (some high), []) else none
  | .continuation missing low high code =>
    if between low high b then
      let code := 0x40 * code + (b.toNat - 0x80)
      if missing ≤ 1 then some (.plain, [Char.ofNat code])
      else some (.continuation (missing - 1) 0x80 0xBF code, [])
    else none

-- literal: the bytes still expected of true, false or null
inductive Lexer where
  | between
  | literal (expected : List UInt8) (v : Json)
  | number (state : NumberState) (n : Numeral)
  | string (state : StringState) (chars : List Char)

inductive Scanned where
  | lexer (l : Lexer)
  | token (t : Token)
  | invalid

def scan (b : UInt8) : Scanned :=
  if b = 0x5B then .token .beginArray
  else if b = 0x5D then .token .endArray
  else if b = 0x7B then .token .beginObject
  else if b = 0x7D then .token .endObject
  else if b = 0x3A then .token .nameSeparator
  else if b = 0x2C then .token .valueSeparator
  else if b = 0x74 then .lexer (.literal [0x72, 0x75, 0x65] (.boolean true))
  else if b = 0x66 then .lexer (.literal [0x61, 0x6C, 0x73, 0x65] (.boolean false))
  else if b = 0x6E then .lexer (.literal [0x75, 0x6C, 0x6C] .null)
  else if b = 0x22 then .lexer (.string .plain [])
  else if b = 0x2D then .lexer (.number .minus { negative := true })
  else
    match digit b with
    | some 0 => .lexer (.number .zero {})
    | some d => .lexer (.number .any1 (Numeral.push {} d))
    | none => .invalid

-- one byte, which no number in progress ends before
def Lexer.next (l : Lexer) (b : UInt8) : Scanned :=
  match l with
  | .between => if isWhitespace b then .lexer .between else scan b
  | .literal expected v =>
    match expected with
    | [] => .invalid
    | [c] => if b = c then .token (.value v) else .invalid
    | c :: rest => if b = c then .lexer (.literal rest v) else .invalid
  | .number state n =>
    match scanNumber state n (some b) with
    | .more state n => .lexer (.number state n)
    | _ => .invalid
  | .string state chars =>
    if state = .plain ∧ b = 0x22 then .token (.value (.string (String.ofList chars)))
    else
      match scanString state b with
      | some (state, read) => .lexer (.string state (chars ++ read))
      | none => .invalid

end Json
