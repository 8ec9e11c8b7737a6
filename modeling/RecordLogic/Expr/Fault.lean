import RecordLogic.Expr.Token

/-!
# Faults of form

Everything that keeps a text from being an expression, and what is said about it.
-/

namespace RecordLogic

inductive Expected where
  | kind (k : Token.Kind)
  | operand
  | nextArgument
  deriving DecidableEq, Repr

def Expected.text : Expected → String
  | .kind k => k.label
  | .operand => "\"null\", bool, number, string, func, property or \"(\""
  | .nextArgument => "\",\" or \")\""

inductive Fault where
  | unterminatedString
  | malformedNumber (text : String)
  | numberOutOfRange (text : String)
  | loneEquals
  | unexpectedCharacter (c : Char)
  | unexpectedToken (expected : Expected) (raw : String)
  | unexpectedEnd (expected : Expected)
  | nestedTooDeep
  deriving DecidableEq, Repr

/-- How deep parentheses, calls, operators and conditionals nest. -/
def nestingLimit : Nat := 100

def Fault.message : Fault → String
  | .unterminatedString => "Unterminated string literal."
  | .malformedNumber text => s!"Malformed numeric literal '{text}'."
  | .numberOutOfRange text => s!"Numeric literal '{text}' is out of range."
  | .loneEquals => "Invalid token. Unexpected '=' (did you mean '=='?)."
  | .unexpectedCharacter c => s!"Invalid token. Unexpected character '{c}'."
  | .unexpectedToken expected raw =>
    let wanted := expected.text
    s!"Expected {wanted}. Unexpected token \"{raw}\"."
  | .unexpectedEnd expected =>
    let wanted := expected.text
    s!"Expected {wanted}. Unexpected end of expression."
  | .nestedTooDeep => s!"Expression nested deeper than {nestingLimit} levels."

structure Mistake where
  fault : Fault
  location : Location
  deriving DecidableEq, Repr

end RecordLogic
