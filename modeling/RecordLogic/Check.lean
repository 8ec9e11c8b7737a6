import RecordLogic.Json.Reading
import RecordLogic.Library.Standard
import RecordLogic.Model.OfJson
import RecordLogic.Predicate.Basic
import RecordLogic.Value.OfJson

/-!
# Checks

An expression is checked alone, against a model, or on a record of the model; model and record are given
as Json.
-/

namespace RecordLogic

structure Check where
  expression : String
  schema : Option String
  input : Option String
  syntaxOnly : Bool
  mode : Text.Case

namespace Check

inductive Outcome where
  | wellFormed
  | compiled (model : String)
  | evaluated (holds : Bool)
  deriving DecidableEq, Repr

inductive Failure where
  | error (e : Error)
  | json
  | schema (fault : SchemaFault)
  | noSchema

def Failure.message : Failure → String
  | .error e => e.message
  | .json => "Invalid JSON"
  | .schema fault =>
    let message := fault.message
    s!"Invalid schema: {message}"
  | .noSchema => "No schema provided. Use --schema to describe the model, or --syntax-only."

def Outcome.text : Outcome → String
  | .wellFormed => "Syntax is valid"
  | .compiled model => s!"Expression compiles against {model}"
  | .evaluated holds => if holds then "true" else "false"

def readJson (text : String) : Except Failure Json :=
  match Json.read? text with
  | some j => .ok j
  | none => .error .json

/-- The outcome while the clock shows `now`. Of several faults the first in the order form, schema, expression and
record is reported. -/
def run (c : Check) (now : DateTime) : Except Failure Outcome :=
  if c.syntaxOnly then
    match parse c.expression with
    | .ok _ => .ok .wellFormed
    | .error m => .error (.error (.located (m.diagnose c.expression)))
  else
    match c.schema with
    | none => .error .noSchema
    | some text => do
      let schema ← readJson text
      let (model, _) ← (Schema.readModel 0 schema).mapError Failure.schema
      let p ← (Scope.compile ⟨model, .standard now, c.mode⟩ c.expression).mapError Failure.error
      match c.input with
      | none => return .compiled model.name
      | some text =>
        let j ← readJson text
        let r ← (Record.ofJson model j).mapError fun e => Failure.error (.rejected e)
        return .evaluated (p.holds r)

end Check

end RecordLogic
