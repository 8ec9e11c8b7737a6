import RecordLogic.Value.Misfit
import RecordLogic.Expr.Fault
import RecordLogic.Expr.Tree

/-!
# Errors

Everything that can go wrong when models are described, functions registered, expressions compiled and
records built. What concerns a place in an expression is shown with the line from there on.
-/

namespace RecordLogic

/-- What is wrong at a place in an expression. -/
inductive Problem where
  | form (fault : Fault)
  | unknownField (segment : UnknownSegment)
  | operands (operator : String) (left right : ValueType)
  | operand (operator : UnaryOp) (type : ValueType)
  | condition (type : ValueType)
  | result (type : ValueType)
  | literalRange (raw : String) (type : ValueType)
  | noOverload (name : String) (args : List (Option CoarseType))
  | noFunction (name : String) (count : Nat)

def coarseText (t : Option CoarseType) : String := (t.map CoarseType.name).getD "null"

def Problem.message : Problem → String
  | .form fault => fault.message
  | .unknownField segment => segment.message
  | .operands operator left right =>
    let one := left.text
    let other := right.text
    s!"Operator '{operator}' cannot be applied to operands of type '{one}' and '{other}'."
  | .operand operator type =>
    let symbol := operator.symbol
    let name := type.text
    s!"Operator '{symbol}' cannot be applied to operand of type '{name}'."
  | .condition type =>
    let name := type.text
    s!"Condition must be bool, not '{name}'."
  | .result type =>
    let name := type.text
    s!"Expression must evaluate to bool, not '{name}'."
  | .literalRange raw type =>
    let name := type.text
    s!"Literal {raw} is out of range for type '{name}'."
  | .noOverload name args =>
    let types := String.intercalate ", " (args.map coarseText)
    s!"Function '{name}' has no overload accepting ({types})."
  | .noFunction name count => s!"Function '{name}' accepting {count} argument(s) not found."

/-- How many characters of the line are shown. -/
def contextWidth : Nat := 100

def contextAt (location : Location) (source : String) : List Char :=
  let line := ((Text.pieces '\n' source.toList)[location.line - 1]?).getD []
  ((line.reverse.dropWhile (· == '\r')).reverse).drop (location.column - 1)

/-- A message with the place in the text that it is about. -/
def showAt (location : Location) (message source : String) : String :=
  let context := contextAt location source
  let line := location.line
  let column := location.column
  if context.isEmpty then s!"Parse error on line {line}, last column: {message}"
  else
    let snippet := String.ofList (context.take contextWidth)
    s!"Parse error on line {line}, column {column}:\n... {snippet} ...\n    ^--- {message}"

structure Diagnostic where
  problem : Problem
  location : Location
  source : String

def Diagnostic.text (d : Diagnostic) : String := showAt d.location d.problem.message d.source

/-- A problem and where it is, before the text is known. -/
structure Objection where
  problem : Problem
  location : Location

def Objection.diagnose (o : Objection) (source : String) : Diagnostic := ⟨o.problem, o.location, source⟩

def Mistake.diagnose (m : Mistake) (source : String) : Diagnostic := ⟨.form m.fault, m.location, source⟩

inductive Error where
  | located (d : Diagnostic)
  | duplicateSignature (name : String) (params : List CoarseType)
  | misuse (type : ValueType)
  | missingDisplayName (field : String)
  | rejected (r : Rejection)

def Error.message : Error → String
  | .located d => d.text
  | .duplicateSignature name params =>
    let types := String.intercalate ", " (params.map CoarseType.name)
    s!"Function {name}({types}) is already registered."
  | .misuse type =>
    let name := type.text
    s!"RequiredIf has no effect when applied to a field of non-nullable value type '{name}'. " ++
      s!"Use nullable '{name}?' version instead, or switch to AssertThat otherwise."
  | .missingDisplayName field => s!"No display name provided for {field} field."
  | .rejected r => r.message

end RecordLogic
