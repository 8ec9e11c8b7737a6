import RecordLogic.Decimal.Basic
import RecordLogic.Number.Binary

/-!
# Arithmetic of decimals

Sums, products and remainders are exact where they fit, and otherwise rounded, a tie to the even
neighbour, to the largest scale at which they fit. Quotients are exact or have as many digits as fit, and lose
trailing zeros. A result too large for scale zero is no decimal.
-/

namespace RecordLogic.Decimal

open Number

/-- The decimal nearest to `n` over `10 ^ scale` at the largest scale at which it fits. -/
def fit (negative : Bool) (n scale : Nat) : Option Decimal :=
  match (List.range (scale + 1)).find? fun k => scale - k ≤ 28 && n / tenTo k < twoTo 96 with
  | none => none
  | some k =>
    let q := halfEven n (tenTo k)
    if q < twoTo 96 then make? negative q (scale - k)
    else if scale - k = 0 then none
    else make? negative (halfEven q 10) (scale - k - 1)

def aligned (a b : Decimal) : Nat × Nat × Nat :=
  let s := max a.scale b.scale
  (a.coefficient * tenTo (s - a.scale), b.coefficient * tenTo (s - b.scale), s)

/-- A sum with zero is the other operand at its own scale. A difference of equal numbers keeps the sign of
the first operand when both are small. -/
def add (a b : Decimal) : Option Decimal :=
  if a.isZero then some b
  else if b.isZero then some a
  else
    let (x, y, s) := aligned a b
    if a.negative = b.negative then fit a.negative (x + y) s
    else if x = y ∧ x < twoTo 32 then (make? false 0 s).map fun d => { d with negative := a.negative }
    else if y ≤ x then fit a.negative (x - y) s
    else fit b.negative (y - x) s

def sub (a b : Decimal) : Option Decimal :=
  if b.isZero then some (if a.isZero then b else a) else a.add b.neg

/-- A product with zero is plain zero, and so is one of two small coefficients that lie far below the last
place. -/
def mul (a b : Decimal) : Option Decimal :=
  let scale := a.scale + b.scale
  if a.isZero ∨ b.isZero then some zero
  else if a.coefficient < twoTo 32 ∧ b.coefficient < twoTo 32 ∧ 47 < scale then some zero
  else fit (a.negative != b.negative) (a.coefficient * b.coefficient) scale

/-- Trailing zeros of the fraction dropped. -/
def stripped : Nat → Nat → Nat × Nat
  | n, 0 => (n, 0)
  | n, s + 1 => if n % 10 = 0 then stripped (n / 10) s else (n, s + 1)

def normalize (d : Decimal) : Option Decimal :=
  let (n, s) := stripped d.coefficient d.scale
  make? d.negative n s

/-- How many more digits a quotient of this scale can take: at most nine at a time. -/
def room (q : Nat) (scale : Int) : Nat :=
  let most := min 9 (28 - scale).toNat
  ((List.range (most + 1)).reverse.find? fun p => q * tenTo p < twoTo 96).getD 0

theorem room_le (q : Nat) (scale : Int) : room q scale ≤ (28 - scale).toNat := by
  have getD_le {o : Option Nat} {m : Nat} (h : ∀ p, o = some p → p ≤ m) : o.getD 0 ≤ m := by
    cases o with
    | none => exact Nat.zero_le m
    | some p => exact h p rfl
  refine getD_le fun p hp => ?_
  have := List.mem_of_find?_eq_some hp
  simp only [List.mem_reverse, List.mem_range] at this
  omega

/-- A quotient one digit too long, cut to the even neighbour; `sticky` says that a remainder follows. -/
def shorten (q : Nat) (scale : Int) (sticky : Bool) : Option (Nat × Int) :=
  if scale < 1 then none
  else
    let r := q % 10
    let up := 5 < r || (r == 5 && (sticky || q / 10 % 2 == 1))
    some (if up then q / 10 + 1 else q / 10, scale - 1)

/-- The last digit of a quotient that can take no more, rounded by the remainder `r` of `d`. -/
def settle (q r d : Nat) (scale : Int) : Option (Nat × Int) :=
  if d < 2 * r ∨ (2 * r = d ∧ q % 2 = 1) then
    if q + 1 < twoTo 96 then some (q + 1, scale) else shorten (q + 1) scale true
  else some (q, scale)

/-- Long division by `d`: from the quotient `q` and the remainder `r` so far, digits are drawn until the
remainder is gone or no more fit. The flag tells whether there was a remainder. -/
def longDivide (d q r : Nat) (scale : Int) (drawn : Bool) : Option (Nat × Int × Bool) :=
  if r = 0 then
    if 0 ≤ scale then some (q, scale, drawn)
    else
      let q' := q * tenTo (-scale).toNat
      if q' < twoTo 96 then some (q', 0, drawn) else none
  else
    let p := room q scale
    if p < 9 ∧ p + scale < 0 then none
    else if h : p = 0 then (settle q r d scale).map fun (q, s) => (q, s, true)
    else
      let q' := q * tenTo p + r * tenTo p / d
      let r' := r * tenTo p % d
      if q' < twoTo 96 then longDivide d q' r' (scale + p) true
      else (shorten q' (scale + p) (r' != 0)).map fun (q, s) => (q, s, true)
termination_by (28 - scale).toNat
decreasing_by
  have := room_le q scale
  have hp : room q scale ≠ 0 := h
  omega

/-- Drops the last `k` digits of a fraction, given as coefficient and scale, if they are zeros. -/
def dropZeros (k : Nat) (q : Nat × Nat) : Nat × Nat :=
  if k ≤ q.2 ∧ q.1 % tenTo k = 0 then (q.1 / tenTo k, q.2 - k) else q

/-- Drops eight zeros if the low 32 bits of the coefficient are zero too. -/
def dropEight (q : Nat × Nat) : Nat × Nat := if q.1 % twoTo 32 = 0 then dropZeros 8 q else q

/-- A quotient without trailing zeros, as far as steps of eight, four, two and one drop them. -/
def shortened (q : Nat × Nat) : Nat × Nat :=
  dropZeros 1 (dropZeros 2 (dropZeros 4 (dropEight (dropEight (dropEight q)))))

def div (a b : Decimal) : Option Decimal :=
  if b.isZero then none
  else if a.isZero then some zero
  else
    match longDivide b.coefficient (a.coefficient / b.coefficient) (a.coefficient % b.coefficient)
        ((a.scale : Int) - b.scale) false with
    | none => none
    | some (q, scale, drawn) =>
      let (n, s) := if drawn then shortened (q, scale.toNat) else (q, scale.toNat)
      make? (a.negative != b.negative) n s

/-- The remainder of a division cut to an integer, with the sign of the dividend. -/
def rem (a b : Decimal) : Option Decimal :=
  let (x, y, s) := aligned a b
  if b.isZero then none
  else if a.isZero ∨ x = y then some zero
  else if x < y then some a
  else make? a.negative (x % y) s

def sum (ds : List Decimal) : Option Decimal := ds.foldlM add zero

end RecordLogic.Decimal
