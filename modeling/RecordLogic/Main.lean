import RecordLogic.Check
import Std.Time.Zoned

/-!
# Command line

`check` checks an expression and `functions` lists the standard library. A schema is given in place or by the
name of a file, and a record in place or on the standard input.
-/

namespace RecordLogic.CommandLine

/-- What `check` is asked for, as the arguments give it. -/
structure Request where
  expression : Option String
  schema : Option String
  input : Option String
  syntaxOnly : Bool
  ignoreCase : Bool

def Request.read? (q : Request) : List String → Option Request
  | [] => some q
  | "--syntax-only" :: rest => Request.read? { q with syntaxOnly := true } rest
  | "--ignore-case" :: rest => Request.read? { q with ignoreCase := true } rest
  | "--schema" :: s :: rest | "-s" :: s :: rest => Request.read? { q with schema := some s } rest
  | "--input" :: s :: rest | "-i" :: s :: rest => Request.read? { q with input := some s } rest
  | s :: rest =>
    if q.expression.isNone && !s.startsWith "-" then Request.read? { q with expression := some s } rest else none

def usage : String :=
  "usage: check EXPRESSION [--schema JSON|FILE] [--input JSON] [--syntax-only] [--ignore-case]\n       functions"

def isInPlace (schema : String) : Bool := (Text.trimStart schema.toList).head? == some '\x7b'

def clock : IO DateTime := do
  let now ← Std.Time.PlainDateTime.now
  let read := DateTime.ofParts? now.year.toInt now.month.toNat now.day.toNat now.hour.toNat now.minute.toNat
    (min 59 now.second.toNat) now.nanosecond.toNat
  return read.getD ⟨1, 0, 0⟩

def readSchema (schema : Option String) : IO (Option String) :=
  match schema with
  | none => return none
  | some s => if isInPlace s then return some s else return some (← IO.FS.readFile s)

/-- All lines that are left. -/
partial def readAll (stream : IO.FS.Stream) (seen : String) : IO String := do
  let line ← stream.getLine
  if line.isEmpty then return seen else readAll stream (seen ++ line)

def readInput (q : Request) : IO (Option String) := do
  if q.input.isSome then return q.input
  let stdin ← IO.getStdin
  if q.syntaxOnly || (← stdin.isTty) then return none
  let text ← readAll stdin ""
  return if text.toList.all Text.isBlank then none else some text

def fail (message : String) : IO UInt32 := do
  IO.eprintln message
  return 1

def check (q : Request) (expression : String) : IO UInt32 := do
  try
    let schema ← readSchema q.schema
    let input ← readInput q
    let mode : Text.Case := if q.ignoreCase then .ignored else .sensitive
    match Check.run ⟨expression, schema, input, q.syntaxOnly, mode⟩ (← clock) with
    | .ok outcome =>
      IO.println outcome.text
      return 0
    | .error e => fail e.message
  catch e => fail s!"IO error: {e}"

def listFunctions : IO UInt32 := do
  for line in (Registry.standard (← clock)).listing do
    IO.println line
  return 0

def run (args : List String) : IO UInt32 :=
  match args with
  | ["functions"] => listFunctions
  | "check" :: rest =>
    match Request.read? ⟨none, none, none, false, false⟩ rest with
    | some q =>
      match q.expression with
      | some expression => check q expression
      | none => fail usage
    | none => fail usage
  | _ => fail usage

end RecordLogic.CommandLine

def main (args : List String) : IO UInt32 := RecordLogic.CommandLine.run args
