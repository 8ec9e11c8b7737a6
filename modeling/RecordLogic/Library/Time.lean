import RecordLogic.Library.Argument

/-!
# Functions of time

Dates from text or from parts, spans from their parts, and the clock, which is given from outside.
-/

namespace RecordLogic.Library

def natural? (n : Int) : Option Nat := if 0 ≤ n then some n.toNat else none

def date? (args : List Value) : Option DateTime := do
  let part (index : Nat) : Option Nat := (wholeAt? args index).bind natural?
  let year ← wholeAt? args 0
  if args.length = 6 then
    DateTime.ofParts? year (← part 1) (← part 2) (← part 3) (← part 4) (← part 5) 0
  else DateTime.ofParts? year (← part 1) (← part 2) 0 0 0 0

def timeSpan? (args : List Value) : Option TimeSpan := do
  let seconds ← TimeSpan.total? (← wholeAt? args 0) (← wholeAt? args 1) (← wholeAt? args 2) (← wholeAt? args 3)
  TimeSpan.ofSeconds? seconds

def dateTimeOrNull (d : Option DateTime) : Value := (d.map Value.dateTime).getD .null

def timeFunctions (now : DateTime) : List Signature :=
  let date (args : List Value) : Value := dateTimeOrNull (date? args)
  let dateOrNull : ValueType := .nullable .dateTime
  [⟨"Now", [], .dateTime, fun _ => .dateTime now⟩,
    ⟨"Today", [], .dateTime, fun _ => .dateTime ⟨now.day, 0, 0⟩⟩,
    ⟨"ToDate", [.string], dateOrNull, fun args =>
      dateTimeOrNull ((text? args 0).bind fun cs => DateTime.read? (String.ofList cs))⟩,
    ⟨"Date", [.number, .number, .number], dateOrNull, date⟩,
    ⟨"Date", [.number, .number, .number, .number, .number, .number], dateOrNull, date⟩,
    ⟨"TimeSpan", [.number, .number, .number, .number], .nullable .timeSpan, fun args =>
      ((timeSpan? args).map Value.timeSpan).getD .null⟩]

end RecordLogic.Library
