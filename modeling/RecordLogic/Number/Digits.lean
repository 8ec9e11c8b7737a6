import RecordLogic.Number.Power
import RecordLogic.Text.Letter

/-!
# Whole numbers as text

Decimal digits of naturals and integers, written without leading zeros and read with any number of them.
-/

namespace RecordLogic.Number

open RecordLogic.Text

def digits (n : Nat) : List Char := Nat.toDigits 10 n

/-- The number that digits write, the most significant first. -/
def ofDigits (cs : List Char) : Nat := cs.foldl (fun n c => 10 * n + (c.toNat - 48)) 0

def signed (negative : Bool) (cs : List Char) : List Char := if negative then '-' :: cs else cs

def integerText (n : Int) : String := String.ofList (signed (n < 0) (digits n.natAbs))

def natural? (cs : List Char) : Option Nat :=
  if cs.isEmpty || !cs.all isDigit then none else some (ofDigits cs)

def unsigned? : List Char → Option Nat
  | '+' :: cs => natural? cs
  | cs => natural? cs

def integer? : List Char → Option Int
  | '-' :: cs => (natural? cs).map fun n => -(n : Int)
  | cs => (unsigned? cs).map fun n => (n : Int)

def within? (lo hi : Int) (n : Int) : Option Int := if lo ≤ n ∧ n ≤ hi then some n else none

def int64? (n : Int) : Option Int := within? (-(twoTo 63 : Int)) ((twoTo 63 : Int) - 1) n

end RecordLogic.Number
