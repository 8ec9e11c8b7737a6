import RecordLogic.Library.Argument
import RecordLogic.Decimal.Arithmetic

/-!
# Functions of arrays

How many items there are, and the sum, the bounds and the mean of those that are numbers.
-/

namespace RecordLogic.Library

def count : List Value → Value
  | .array items :: _ => .int items.length
  | _ => .int 0

def decimalOrNull (d : Option Decimal) : Value := (d.map Value.decimal).getD .null

def sum (args : List Value) : Value := decimalOrNull (Decimal.sum (decimals args))

def least (args : List Value) : Value := decimalOrNull (Decimal.least? (decimals args))

def greatest (args : List Value) : Value := decimalOrNull (Decimal.greatest? (decimals args))

/-- The sum divided by the number of items. The mean of no items is null. -/
def mean (args : List Value) : Value :=
  let items := decimals args
  if items.isEmpty then .null
  else decimalOrNull do (← Decimal.sum items).div (← Decimal.ofInt? items.length)

def collectionFunctions : List Signature :=
  let number : ValueType := .nullable (.number .decimal)
  [⟨"Length", [.collection], .number .i32, count⟩,
    ⟨"Sum", [.collection], number, sum⟩,
    ⟨"Min", [.collection], number, least⟩,
    ⟨"Max", [.collection], number, greatest⟩,
    ⟨"Average", [.collection], number, mean⟩]

end RecordLogic.Library
