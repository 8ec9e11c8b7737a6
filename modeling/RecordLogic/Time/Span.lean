import RecordLogic.Text.Split
import RecordLogic.Number.Digits

/-!
# Time spans

A span is a whole number of nanoseconds, bounded by what 64 bits of milliseconds hold either way.
-/

namespace RecordLogic

structure TimeSpan where
  nanoseconds : Int
  deriving DecidableEq, Repr

namespace TimeSpan

open Number

def perSecond : Nat := 1000000000

def limit : Int := ((Number.twoTo 63 : Int) - 1) * 1000000

def ofNanoseconds? (n : Int) : Option TimeSpan := (within? (-limit) limit n).map TimeSpan.mk

def ofSeconds? (n : Int) : Option TimeSpan := ofNanoseconds? (n * perSecond)

def add (a b : TimeSpan) : Option TimeSpan := ofNanoseconds? (a.nanoseconds + b.nanoseconds)

def sub (a b : TimeSpan) : Option TimeSpan := ofNanoseconds? (a.nanoseconds - b.nanoseconds)

def neg (t : TimeSpan) : TimeSpan := ⟨-t.nanoseconds⟩

/-- Whole seconds, cut towards zero. -/
def seconds (t : TimeSpan) : Int := t.nanoseconds.tdiv perSecond

/-- What the whole seconds leave, with the sign of the span. -/
def rest (t : TimeSpan) : Int := t.nanoseconds.tmod perSecond

/-- The seconds as a period with a marker of time, the fraction without trailing zeros. -/
def text (t : TimeSpan) : String :=
  let n := t.nanoseconds.natAbs
  let fraction := n % perSecond
  let places := List.replicate (9 - (digits fraction).length) '0' ++ digits fraction
  let shown := (places.reverse.dropWhile (· == '0')).reverse
  if n = 0 then "P0D"
  else
    let body := digits (n / perSecond) ++ (if fraction = 0 then [] else '.' :: shown) ++ ['S']
    String.ofList (signed (t.nanoseconds < 0) ('P' :: 'T' :: body))

/-- The signed number of seconds in `d` days, `h` hours, `m` minutes and `s` seconds, as long as 64 bits hold every
product and every sum on the way. -/
def total? (d h m s : Int) : Option Int := do
  let days ← int64? (d * 86400)
  let hours ← int64? (h * 3600)
  let minutes ← int64? (m * 60)
  int64? ((← int64? ((← int64? (days + hours)) + minutes)) + s)

def clock? (cs : List Char) : Option (Int × Int × Int) := do
  match Text.pieces ':' cs with
  | [h, m, s] =>
    return ((← int64? (← integer? h)), (← int64? (← integer? m)), (← int64? (← integer? s)))
  | _ => none

/-- A minus sign, days up to a point, and hours, minutes and seconds between colons. The sign and the days
may be left out. -/
def read? (text : String) : Option TimeSpan := do
  let cs := Text.trim text.toList
  let (negative, cs) := match cs with
    | '-' :: cs => (true, cs)
    | cs => (false, cs)
  let (days, clock) ← match cs.span (· != '.') with
    | (days, _ :: clock) =>
      if clock.contains ':' then pure ((← int64? (← integer? days)), clock) else pure (0, cs)
    | (_, []) => pure (0, cs)
  let (h, m, s) ← clock? clock
  let total ← total? days h m s
  ofSeconds? (← int64? (if negative then -total else total))

end TimeSpan

end RecordLogic
