import RecordLogic.Number.Binary

/-!
# The shortest digits of a double

The fewest decimal digits that denote a number nearer to the double than to any other, and of those
the digits nearest to it. Two layouts write them down: positional, and scientific outside a window.
-/

namespace RecordLogic.Number

/-- `digits * 10 ^ exponent`. -/
structure Digits where
  digits : Nat
  exponent : Int
  deriving DecidableEq, Repr

/-- Which of two candidates wins when both are equally near. -/
inductive Tie where
  | up
  | even

/-- The number of digits before the point of a positive quotient; zero or less counts zeros after it. -/
def decade (num den : Nat) : Int :=
  if den ≤ num then (digits (num / den)).length else 1 - ((digits ((den - 1) / num)).length : Int)

/-- Candidates with `n` digits for the double `m * 2 ^ e`. Quarters of its last bit are counted, so that
the ends of the interval that rounds to it are whole. -/
def Digits.candidate (tie : Tie) (m : Nat) (e : Int) (n : Nat) : Option Digits :=
  let (num, den) := unscaled m 1 (-e)
  let k := decade num den - n
  let grid (d : Nat) : Nat := d * tenTo k.toNat * twoTo (2 - e).toNat
  let point (x : Nat) : Nat := x * tenTo (-k).toNat * twoTo (e - 2).toNat
  let value := point (4 * m)
  let low := point (4 * m - if m = twoTo 52 ∧ -1074 < e then 1 else 2)
  let high := point (4 * m + 2)
  let inside (g : Nat) : Bool := if m % 2 = 0 then low ≤ g && g ≤ high else low < g && g < high
  let d := num * tenTo (-k).toNat / (den * tenTo k.toNat)
  let lower := inside (grid d)
  let upper := inside (grid (d + 1))
  let below := value - grid d
  let above := grid (d + 1) - value
  let takeUpper :=
    upper && (!lower || above < below || (above == below && match tie with
      | .up => true
      | .even => d % 2 == 1))
  if takeUpper then some ⟨d + 1, k⟩ else if lower then some ⟨d, k⟩ else none

def Digits.strip : Nat → Digits → Digits
  | 0, x => x
  | fuel + 1, x => if x.digits % 10 = 0 ∧ x.digits ≠ 0 then strip fuel ⟨x.digits / 10, x.exponent + 1⟩ else x

/-- The shortest digits of a positive finite double; seventeen are always enough. -/
def shortest (tie : Tie) (m : Nat) (e : Int) : Digits :=
  let found := (List.range 17).findSome? fun n => Digits.candidate tie m e (n + 1)
  (found.getD ⟨m, e⟩).strip 17

def zeros (n : Nat) : List Char := List.replicate n '0'

/-- All digits in their places, with a point only before a fraction. -/
def Digits.positional (x : Digits) : List Char :=
  let cs := Number.digits x.digits
  if 0 ≤ x.exponent then cs ++ zeros x.exponent.toNat
  else
    let places := (-x.exponent).toNat
    if places < cs.length then cs.take (cs.length - places) ++ '.' :: cs.drop (cs.length - places)
    else '0' :: '.' :: zeros (places - cs.length) ++ cs

/-- One digit before the point and a signed power of ten. -/
def Digits.scientific (x : Digits) : List Char :=
  let cs := Number.digits x.digits
  let power : Int := x.exponent + cs.length - 1
  let fraction := if cs.length = 1 then [] else '.' :: cs.drop 1
  cs.take 1 ++ fraction ++ 'e' :: (if power < 0 then ['-'] else ['+']) ++ Number.digits power.natAbs

/-- A double with all its digits in place, never with a power of ten. -/
def plainText (f : Float) : String :=
  String.ofList <| match Reading.of f with
  | .nan => "NaN".toList
  | .infinite negative => signed negative "inf".toList
  | .finite negative 0 _ => signed negative ['0']
  | .finite negative m e => signed negative (shortest .up m e).positional

end RecordLogic.Number
