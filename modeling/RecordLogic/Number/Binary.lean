import RecordLogic.Number.Digits

/-!
# Doubles

A double as the number that its bits denote, and the double nearest to a quotient. All rounding is
done on natural numbers, a tie going to the even neighbour.
-/

namespace RecordLogic.Number

/-- What the bits of a double denote; a finite one is `coefficient * 2 ^ exponent` under its sign. -/
inductive Reading where
  | nan
  | infinite (negative : Bool)
  | finite (negative : Bool) (coefficient : Nat) (exponent : Int)
  deriving DecidableEq, Repr

def Reading.of (f : Float) : Reading :=
  let bits := f.toBits.toNat
  let negative := bits / twoTo 63 == 1
  let power : Nat := bits / twoTo 52 % twoTo 11
  let fraction := bits % twoTo 52
  if power = 2047 then (if fraction = 0 then .infinite negative else .nan)
  else if power = 0 then .finite negative fraction (-1074)
  else .finite negative (fraction + twoTo 52) ((power : Int) - 1075)

/-- A binary format: the bits of a coefficient, the exponent of the smallest unit, and the power of two
that no finite number reaches. -/
structure Width where
  bits : Nat
  least : Int
  limit : Nat

def double : Width := ⟨53, -1074, 1024⟩

def single : Width := ⟨24, -149, 128⟩

/-- The quotient of two naturals rounded to the nearest natural. -/
def halfEven (num den : Nat) : Nat :=
  let q := num / den
  let r := num % den
  if den < 2 * r ∨ (2 * r = den ∧ q % 2 = 1) then q + 1 else q

/-- The quotient `num / den / 2 ^ e` as a quotient of naturals. -/
def unscaled (num den : Nat) (e : Int) : Nat × Nat :=
  if 0 ≤ e then (num, den * twoTo e.toNat) else (num * twoTo (-e).toNat, den)

/-- The exponent of the last bit that the format keeps of a positive quotient. -/
def unitOf (w : Width) (num den : Nat) : Int :=
  let e : Int := num.log2 - den.log2 - w.bits
  let (n, d) := unscaled num den e
  max w.least (if twoTo w.bits ≤ n / d then e + 1 else e)

/-- The number of the format nearest to a positive quotient, its range being left open upwards. -/
def nearest (w : Width) (num den : Nat) : Nat × Int :=
  let e := unitOf w num den
  let (n, d) := unscaled num den e
  (halfEven n d, e)

/-- The double of the number `q * 2 ^ e`, where `q` has at most 53 bits and fewer only in the smallest unit. -/
def pack (negative : Bool) (q : Nat) (e : Int) : Float :=
  let body := min ((e + 1074).toNat * twoTo 52 + q) (2047 * twoTo 52)
  Float.ofBits (UInt64.ofNat (if negative then body + twoTo 63 else body))

def zero (negative : Bool) : Float := pack negative 0 (-1074)

def infinity (negative : Bool) : Float :=
  Float.ofBits (UInt64.ofNat (if negative then 4095 * twoTo 52 else 2047 * twoTo 52))

def notANumber : Float := Float.ofBits (UInt64.ofNat (4095 * twoTo 51))

def ofRatio (negative : Bool) (num den : Nat) : Float :=
  if num = 0 then zero negative
  else
    let (q, e) := nearest double num den
    pack negative q e

def ofInt (n : Int) : Float := ofRatio (n < 0) n.natAbs 1

/-- The double nearest to `coefficient * 10 ^ exponent`. Far outside the range the power is not computed. -/
def ofDecimal (negative : Bool) (coefficient : Nat) (exponent : Int) : Float :=
  let size : Int := (digits coefficient).length + exponent
  if coefficient = 0 ∨ size < -400 then zero negative
  else if 400 < size then infinity negative
  else if 0 ≤ exponent then ofRatio negative (coefficient * tenTo exponent.toNat) 1
  else ofRatio negative coefficient (tenTo (-exponent).toNat)

/-- The nearest number of single width, as a double. -/
def narrow (f : Float) : Float :=
  match Reading.of f with
  | .finite negative m e =>
    if m = 0 then f
    else
      let (num, den) := unscaled m 1 (-e)
      let (q, k) := nearest single num den
      let (n, d) := unscaled q 1 (-k)
      if twoTo single.limit ≤ n / d then infinity negative else ofRatio negative n d
  | _ => f

def whole? (f : Float) : Option Int :=
  match Reading.of f with
  | .finite negative m e =>
    let (num, den) := unscaled m 1 (-e)
    if num % den = 0 then
      let n : Int := (num / den : Nat)
      some (if negative then -n else n)
    else none
  | _ => none

def roundHalfAway (f : Float) : Float :=
  match Reading.of f with
  | .finite negative m e =>
    let (num, den) := unscaled m 1 (-e)
    ofRatio negative ((2 * num + den) / (2 * den)) 1
  | _ => f

/-- The exact remainder of a division whose quotient is cut to an integer. It has the sign of the dividend. -/
def remainder (a b : Float) : Float :=
  match Reading.of a, Reading.of b with
  | .finite _ _ _, .infinite _ => a
  | .finite negative m e, .finite _ n k =>
    if n = 0 then notANumber
    else
      let u := min e k
      let r := m * twoTo (e - u).toNat % (n * twoTo (k - u).toNat)
      let (num, den) := unscaled r 1 (-u)
      ofRatio negative num den
  | _, _ => notANumber

end RecordLogic.Number
