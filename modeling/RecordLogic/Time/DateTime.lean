import RecordLogic.Time.Calendar
import RecordLogic.Time.Span

/-!
# Dates with a time of day

A moment is a day, a second of the day and nanoseconds. A leap second is the second before it with a
thousand million nanoseconds or more.
-/

namespace RecordLogic

structure DateTime where
  day : Int
  second : Nat
  nano : Nat
  deriving DecidableEq, Repr

namespace DateTime

open Number

def order (a b : DateTime) : Ordering :=
  (compare a.day b.day).then ((compare a.second b.second).then (compare a.nano b.nano))

/-- The moment of a date and a time that exist. -/
def ofParts? (year : Int) (month day hour minute second nano : Nat) : Option DateTime := do
  let day ← Calendar.day? year month day
  if hour < 24 ∧ minute < 60 ∧ second < 60 ∧ (nano < 1000000000 ∨ (second = 59 ∧ nano < 2000000000)) then
    some ⟨day, hour * 3600 + minute * 60 + second, nano⟩
  else none

/-- The time from `b` to `a`. A leap second that lies between them counts. -/
def since (a b : DateTime) : TimeSpan :=
  let leap : Int :=
    if b.second < a.second then (if 1000000000 ≤ b.nano then 1 else 0)
    else if a.second < b.second then (if 1000000000 ≤ a.nano then -1 else 0)
    else 0
  let seconds := (a.day - b.day) * 86400 + ((a.second : Int) - b.second + leap)
  ⟨seconds * TimeSpan.perSecond + ((a.nano : Int) - b.nano)⟩

/-- The moment `seconds` and `nano` after midnight of a day. -/
def after (day : Int) (seconds nano : Int) : Option DateTime :=
  let total := seconds + nano / 1000000000
  let day := day + total / 86400
  if Calendar.firstDay ≤ day ∧ day ≤ Calendar.lastDay then
    some ⟨day, (total % 86400).toNat, (nano % 1000000000).toNat⟩
  else none

/-- A moment later by a span. A leap second is left as soon as the span reaches out of it. -/
def add (a : DateTime) (t : TimeSpan) : Option DateTime :=
  let seconds := t.seconds
  let rest := t.rest
  if a.nano < 1000000000 then after a.day (a.second + seconds) (a.nano + rest)
  else if 0 < seconds ∨ 2000000000 ≤ a.nano + rest then
    after a.day (a.second + seconds) ((a.nano : Int) - 1000000000 + rest)
  else if seconds < 0 then after a.day (a.second + 1 + seconds) ((a.nano : Int) - 1000000000 + rest)
  else some { a with nano := (a.nano + rest).toNat }

def sub (a : DateTime) (t : TimeSpan) : Option DateTime := a.add t.neg

def padded (width n : Nat) : List Char :=
  let cs := digits n
  List.replicate (width - cs.length) '0' ++ cs

/-- Four digits of a year, with a sign where four do not tell it. -/
def yearText (year : Int) : List Char :=
  if year < 0 then '-' :: padded 4 year.natAbs
  else if 9999 < year then '+' :: padded 4 year.natAbs
  else padded 4 year.natAbs

def parts (a : DateTime) : Int × Nat × Nat × Nat × Nat × Nat × Nat :=
  let (year, month, day) := Calendar.date a.day
  (year, month, day, a.second / 3600, a.second / 60 % 60, a.second % 60, a.nano)

/-- Date and time to the second, a leap second being the sixtieth. -/
def text (a : DateTime) : String :=
  let (year, month, day, hour, minute, second, nano) := a.parts
  String.ofList <| yearText year ++ '-' :: padded 2 month ++ '-' :: padded 2 day ++ ' ' :: padded 2 hour ++
    ':' :: padded 2 minute ++ ':' :: padded 2 (second + nano / 1000000000)

/-- Between 1 and `most` digits, as many as there are. -/
def number? (most : Nat) (cs : List Char) : Option (Nat × List Char) :=
  let ds := (cs.take most).takeWhile Text.isDigit
  if ds.isEmpty then none else some (ofDigits ds, cs.drop ds.length)

/-- A number of one or two digits within bounds, after any blanks. -/
def field? (lo hi : Nat) (cs : List Char) : Option (Nat × List Char) := do
  let (n, cs) ← number? 2 (Text.trimStart cs)
  if lo ≤ n ∧ n ≤ hi then some (n, cs) else none

def mark? (c : Char) : List Char → Option (List Char)
  | d :: cs => if d = c then some cs else none
  | [] => none

/-- Up to four digits, or any number of them after a sign. -/
def year? (cs : List Char) : Option (Int × List Char) :=
  match Text.trimStart cs with
  | '-' :: cs => (number? cs.length cs).map fun (n, cs) => (-(n : Int), cs)
  | '+' :: cs => (number? cs.length cs).map fun (n, cs) => ((n : Int), cs)
  | cs => (number? 4 cs).map fun (n, cs) => ((n : Int), cs)

/-- The fraction of a second to nine places; further digits are passed over. -/
def fraction? (cs : List Char) : Option (Nat × List Char) := do
  let (n, rest) ← number? 9 cs
  let places := cs.length - rest.length
  some (n * Number.tenTo (9 - places), rest.dropWhile Text.isDigit)

def readDate? (cs : List Char) : Option ((Int × Nat × Nat) × List Char) := do
  let (year, cs) ← year? cs
  let (month, cs) ← field? 1 12 (← mark? '-' cs)
  let (day, cs) ← field? 1 31 (← mark? '-' cs)
  some ((year, month, day), cs)

def readTime? (cs : List Char) : Option ((Nat × Nat × Nat × Nat) × List Char) := do
  let (hour, cs) ← field? 0 23 cs
  let (minute, cs) ← field? 0 59 (← mark? ':' cs)
  let (second, cs) ← field? 0 60 (← mark? ':' cs)
  let (nano, cs) ← match cs with
    | '.' :: cs => fraction? cs
    | cs => some (0, cs)
  if second = 60 then some ((hour, minute, 59, nano + 1000000000), cs)
  else some ((hour, minute, second, nano), cs)

/-- A date; a date and a time with the letter T between them; or a date and a time with any blanks between them. -/
def read? (text : String) : Option DateTime := do
  match ← readDate? (Text.trim text.toList) with
  | ((year, month, day), []) => ofParts? year month day 0 0 0 0
  | ((year, month, day), c :: cs) =>
    match ← readTime? (if c = 'T' then cs else c :: cs) with
    | ((hour, minute, second, nano), []) => ofParts? year month day hour minute second nano
    | _ => none

end DateTime

end RecordLogic
