import RecordLogic.Decimal.Arithmetic

/-!
# Decimals and doubles

From a double, its exact binary value is scaled to a power of ten within 96 bits and cut to the
digits that a double guarantees. To a double, the two parts at the point are converted each for itself.
-/

namespace RecordLogic.Decimal

open Number

/-- The number `n * 5 ^ k / 10 ^ s` as a coefficient and a scale. An odd coefficient takes a five in while it has room
for it; otherwise two and five make ten, at the cost of a bit if the coefficient is odd. -/
def takeFives : Nat → Nat → Nat → Nat × Nat
  | 0, n, s => (n, s)
  | k + 1, n, s => if n % 2 = 1 ∧ 5 * n < twoTo 96 then takeFives k (5 * n) s else takeFives k (n / 2) (s - 1)

/-- Drops one digit, rounding a half up. -/
def dropDigit (n : Nat) : Nat := if 5 ≤ n % 10 then n / 10 + 1 else n / 10

/-- Drops digits until the scale is 28 or nothing is left. -/
def dropToScale : Nat → Nat → Nat → Nat × Nat
  | 0, n, s => (n, s)
  | k + 1, n, s => if s ≤ 28 then (n, s) else if n / 10 = 0 then (0, 0) else dropToScale k (dropDigit n) (s - 1)

/-- Drops digits of the fraction until 52 bits hold the coefficient. -/
def dropToPrecision : Nat → Nat → Nat × Nat
  | n, 0 => (n, 0)
  | n, s + 1 => if n < twoTo 52 then (n, s + 1) else dropToPrecision (dropDigit n) s

/-- The coefficient and the scale of `m / 2 ^ k`. -/
def ofBinary (m k : Nat) : Nat × Nat :=
  let (n, s) := takeFives k m k
  let (n, s) := dropToScale s n s
  let (n, s) := dropToPrecision n s
  stripped n s

/-- A double that is an integer becomes that integer; none of 96 bits or more has a decimal. -/
def ofDouble? (f : Float) : Option Decimal :=
  match Reading.of f with
  | .finite negative m e =>
    let (n, s) := if 0 ≤ e then (m * twoTo e.toNat, 0) else ofBinary m (-e).toNat
    (make? false n s).map fun d => { d with negative := negative }
  | _ => none

/-- `result * base ^ n` by squaring, for an exponent below `2 ^ fuel`. -/
def powerBySquaring : Nat → Float → Float → Nat → Float
  | 0, result, _, _ => result
  | fuel + 1, result, base, n =>
    let result := if n % 2 = 1 then result * base else result
    if n / 2 = 0 then result else powerBySquaring fuel result (base * base) (n / 2)

def toDouble (d : Decimal) : Float :=
  if d.scale = 0 then Number.ofInt d.signedCoefficient
  else
    let unit := tenTo d.scale
    let whole := ofRatio false (d.coefficient / unit) 1
    let fraction := ofRatio false (d.coefficient % unit) 1 / ofRatio false unit 1
    let value :=
      if d.coefficient % unit = 0 then whole
      else
        let power := powerBySquaring 5 1.0 10.0 d.scale
        roundHalfAway ((whole + fraction) * power) / power
    if d.negative then -value else value

end RecordLogic.Decimal
