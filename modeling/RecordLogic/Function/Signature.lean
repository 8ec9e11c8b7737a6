import RecordLogic.Value.Conform

/-!
# Functions

What an expression can call: chosen by the sorts of the arguments, and never failing. A result that does
not conform to the type that the function returns is null.
-/

namespace RecordLogic

structure Signature where
  name : String
  params : List CoarseType
  returns : ValueType
  invoke : List Value → Value

namespace Signature

/-- Whether the parameters take arguments of these sorts. A null argument has none and goes anywhere. -/
def accepts (s : Signature) (args : List (Option CoarseType)) : Bool :=
  s.params.length == args.length && (s.params.zip args).all fun (param, arg) => arg.all (· == param)

def result (s : Signature) (args : List Value) : Value :=
  match (s.invoke args).conform s.returns with
  | .ok v => v
  | .error _ => .null

def text (s : Signature) : String :=
  let name := s.name
  let params := String.intercalate ", " (s.params.map CoarseType.name)
  let returns := s.returns.text
  s!"{name}({params}) -> {returns}"

end Signature

/-- The sort by which a value chooses among functions. -/
def Value.coarse? : Value → Option CoarseType
  | .null => none
  | .bool _ => some .bool
  | .int _ | .float _ | .decimal _ => some .number
  | .string _ => some .string
  | .dateTime _ => some .dateTime
  | .timeSpan _ => some .timeSpan
  | .guid _ => some .guid
  | .enum _ => some .enumeration
  | .array _ => some .collection
  | .record _ => some .object

end RecordLogic
