import RecordLogic.Function.Signature

/-!
# Arguments

How functions take their arguments: an argument of another sort than the one asked for is as good as none.
-/

namespace RecordLogic.Library

def text? (args : List Value) (index : Nat) : Option (List Char) :=
  (args[index]?).bind fun v => v.asString?.map String.toList

/-- The nearest integer of 64 bits. -/
def clamp (n : Int) : Int := max (-(Number.twoTo 63 : Int)) (min ((Number.twoTo 63 : Int) - 1) n)

/-- A whole number of 64 bits. A double beyond them counts as the last of them, a decimal beyond them not at all. -/
def whole? : Value → Option Int
  | .int n => Number.int64? n
  | .float f => (Number.whole? f).map clamp
  | .decimal d => d.whole?.bind Number.int64?
  | _ => none

def wholeAt? (args : List Value) (index : Nat) : Option Int := (args[index]?).bind whole?

/-- The numbers of an array as decimals; what is no number or no decimal is passed over. -/
def decimals : List Value → List Decimal
  | .array items :: _ => items.filterMap Value.asDecimal?
  | _ => []

end RecordLogic.Library
