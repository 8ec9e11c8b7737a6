import RecordLogic.Decimal.Arithmetic

/-!
# Decimals read from text

An optional sign, digits with at most one point among them, and underscores after the first digit.
What the decimal cannot hold behind the point is rounded at the first digit that does not fit; only more
digits and underscores may follow that digit. A power of ten of up to 28 may end the text.
-/

namespace RecordLogic.Decimal

open Number Text

/-- Rounds at the character `c`, the first that does not fit. -/
def roundAt (negative : Bool) (n scale : Nat) (c : Char) : Option Decimal :=
  if isDigit c ∧ '5' ≤ c then
    if n + 1 < twoTo 96 then make? negative (n + 1) scale
    else if scale = 0 then none
    else make? negative ((n + 5) / 10) (scale - 1)
  else make? negative n scale

def isPlace (c : Char) : Bool := isDigit c || c == '_'

/-- Ends at the character `c`, the first that does not fit. What is left, too, has to be places. -/
def stopAt (negative : Bool) (n scale : Nat) (c : Char) (cs : List Char) : Option Decimal :=
  if (c :: cs).all isPlace then roundAt negative n scale c else none

/-- Reads on from the coefficient `n`; `point` and `digit` tell whether one was met. -/
def readFrom (negative : Bool) (n scale : Nat) (point digit : Bool) : List Char → Option Decimal
  | [] => if digit then make? negative n scale else none
  | c :: cs =>
    if point ∧ scale = 28 then stopAt negative n scale c cs
    else if isDigit c then
      let n' := 10 * n + (c.toNat - 48)
      if n' < twoTo 96 then readFrom negative n' (if point then scale + 1 else 0) point true cs
      else if point then stopAt negative n scale c cs
      else none
    else if c = '.' ∧ !point then readFrom negative n scale true digit cs
    else if c = '_' ∧ digit then readFrom negative n scale point digit cs
    else none

def readPlain? : List Char → Option Decimal
  | '-' :: cs => readFrom true 0 0 false false cs
  | '+' :: cs => readFrom false 0 0 false false cs
  | cs => readFrom false 0 0 false false cs

/-- Divided by `10 ^ e`: the scale grows, after dropping the digits that the largest scale leaves no room for. -/
def shiftDown (d : Decimal) (e : Nat) : Option Decimal :=
  if 28 < e then none
  else if h : d.scale + e ≤ 28 then some { d with scale := d.scale + e, scale_le := h }
  else
    let k := d.scale + e - 28
    let n := (d.coefficient / tenTo (k - 1) + 5) / 10
    (make? false n 28).map fun r => { r with negative := d.negative }

/-- Multiplied by `10 ^ e`: the scale shrinks, or the coefficient grows. -/
def shiftUp (d : Decimal) (e : Nat) : Option Decimal :=
  if e ≤ d.scale then
    some { d with scale := d.scale - e, scale_le := Nat.le_trans (Nat.sub_le _ _) d.scale_le }
  else if 28 < e then none
  else do
    let big ← make? false (tenTo (min e 19)) 0
    let rest ← make? false (tenTo (e - min e 19)) 0
    let once ← d.mul big
    let twice ← if e ≤ 19 then some once else once.mul rest
    twice.normalize

def isPowerMark (c : Char) : Bool := c == 'e' || c == 'E'

def readScientific? (cs : List Char) : Option Decimal := do
  let base ← readPlain? (cs.takeWhile fun c => !isPowerMark c)
  match cs.dropWhile fun c => !isPowerMark c with
  | _ :: '-' :: power => base.shiftDown (← unsigned? power)
  | _ :: power => base.shiftUp (← unsigned? power)
  | [] => none

/-- A text as a decimal. The mark of a power makes it scientific: `1e5` is read, too. -/
def ofText? (text : String) : Option Decimal :=
  if text.toList.any isPowerMark then readScientific? text.toList else readPlain? text.toList

/-- The text of a number as a decimal, as a text and else by its power. -/
def read? (text : String) : Option Decimal := (ofText? text).or (readScientific? text.toList)

end RecordLogic.Decimal
