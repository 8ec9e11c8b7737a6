import RecordLogic.Number.Digits

/-!
# Decimals

A decimal is a coefficient of 96 bits over a power of ten of at most 28, under a sign. Its scale is
kept: `1.10` and `1.1` are equal and written differently.
-/

namespace RecordLogic

structure Decimal where
  negative : Bool
  coefficient : Nat
  scale : Nat
  coefficient_lt : coefficient < Number.twoTo 96
  scale_le : scale ≤ 28
  deriving DecidableEq, Repr

namespace Decimal

open Number

def zero : Decimal := ⟨false, 0, 0, by decide, by decide⟩

/-- The decimal of these parts. A zero has no sign. -/
def make? (negative : Bool) (coefficient scale : Nat) : Option Decimal :=
  if h : coefficient < twoTo 96 ∧ scale ≤ 28 then
    some ⟨negative && coefficient != 0, coefficient, scale, h.1, h.2⟩
  else none

def isZero (d : Decimal) : Bool := d.coefficient == 0

def signedCoefficient (d : Decimal) : Int := if d.negative then -d.coefficient else d.coefficient

def order (a b : Decimal) : Ordering :=
  compare (a.signedCoefficient * tenTo b.scale) (b.signedCoefficient * tenTo a.scale)

def same (a b : Decimal) : Bool := a.order b == .eq

def neg (d : Decimal) : Decimal := { d with negative := !d.negative }

def ofInt? (n : Int) : Option Decimal := make? (n < 0) n.natAbs 0

def whole? (d : Decimal) : Option Int :=
  if d.coefficient % tenTo d.scale = 0 then
    let n : Int := (d.coefficient / tenTo d.scale : Nat)
    some (if d.negative then -n else n)
  else none

/-- All digits in place; the fraction has as many as the scale says. -/
def text (d : Decimal) : String :=
  let cs := digits d.coefficient
  let padded := List.replicate (d.scale + 1 - cs.length) '0' ++ cs
  let places := padded.length - d.scale
  let fraction := if d.scale = 0 then [] else '.' :: padded.drop places
  String.ofList (signed d.negative (padded.take places ++ fraction))

/-- The first least decimal. -/
def least? : List Decimal → Option Decimal
  | [] => none
  | d :: ds => some (ds.foldl (fun m e => if e.order m == .lt then e else m) d)

/-- The last greatest decimal. -/
def greatest? : List Decimal → Option Decimal
  | [] => none
  | d :: ds => some (ds.foldl (fun m e => if e.order m == .lt then m else e) d)

end Decimal

end RecordLogic
