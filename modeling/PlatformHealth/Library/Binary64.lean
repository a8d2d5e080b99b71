import Mathlib.Data.Rat.Floor

namespace Binary64

-- ties go to the even neighbour
def nearest (q : ℚ) : Int :=
  if 2 * (q - q.floor) < 1 then q.floor
  else if 1 < 2 * (q - q.floor) then q.floor + 1
  else if q.floor % 2 = 0 then q.floor else q.floor + 1

def ratPow2 (e : Int) : ℚ :=
  match e with
  | .ofNat n => (2 ^ n : Nat)
  | .negSucc n => 1 / (2 ^ (n + 1) : Nat)

def binaryExponent (q : ℚ) : Int :=
  let e : Int := (Nat.log2 q.num.toNat : Int) - Nat.log2 q.den
  if ratPow2 e ≤ q then e else e - 1

-- the nearest double of a non-negative q, none when it overflows
def roundAbs (q : ℚ) : Option ℚ :=
  if q = 0 then some 0
  else
    let ulp := ratPow2 (max (binaryExponent q - 52) (-1074))
    let rounded := nearest (q / ulp) * ulp
    if rounded < ratPow2 1024 then some rounded else none

def round (q : ℚ) : Option ℚ :=
  if q < 0 then (roundAbs (-q)).map (- ·) else roundAbs q

end Binary64
