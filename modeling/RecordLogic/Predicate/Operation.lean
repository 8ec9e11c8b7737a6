import RecordLogic.Value.Basic
import RecordLogic.Expr.Tree
import RecordLogic.Decimal.Arithmetic

/-!
# Operations on values

What operators do to values whose types were checked before. Null goes through all of them: an arithmetic
result with a null operand is null, and no order holds between null and anything.
-/

namespace RecordLogic.Value

open Number

def ofDouble (kind : NumericKind) (f : Float) : Value := .float (if kind = .f32 then narrow f else f)

/-- A number in the representation of a kind; all integral kinds share one. -/
def convert (kind : NumericKind) (v : Value) : Value :=
  if v.isNull then .null
  else if kind = .decimal then (v.asDecimal?.map .decimal).getD .null
  else if kind.isFloating then (v.asFloat?.map (ofDouble kind)).getD .null
  else v

/-- Integers of all kinds are carried in 128 bits, and a result that leaves them wraps there first. -/
def carry (n : Int) : Int := Int.bmod n (twoTo 128)

/-- The negative of a number or a span; an integer stays within its kind. -/
def negate (kind : Option NumericKind) : Value → Value
  | .int n => (kind.map fun k => .int (k.wrap (carry (-n)))).getD .null
  | .float f => .float (-f)
  | .decimal d => .decimal d.neg
  | .timeSpan t => .timeSpan t.neg
  | _ => .null

def orderFloats (a b : Float) : Option Ordering :=
  if a < b then some .lt else if b < a then some .gt else if a == b then some .eq else none

/-- Order of two values of one sort. -/
def order? : Value → Value → Option Ordering
  | .int a, .int b => some (compare a b)
  | .float a, .float b => orderFloats a b
  | .decimal a, .decimal b => some (a.order b)
  | .dateTime a, .dateTime b => some (a.order b)
  | .timeSpan a, .timeSpan b => some (compare a.nanoseconds b.nanoseconds)
  | _, _ => none

def relate (r : Relation) (a b : Value) : Bool :=
  match r with
  | .equal => a.same b
  | .notEqual => !a.same b
  | .less => (order? a b).any Ordering.isLT
  | .greater => (order? a b).any Ordering.isGT
  | .lessEqual => (order? a b).any Ordering.isLE
  | .greaterEqual => (order? a b).any Ordering.isGE

/-- The result on integers in 128 bits, a quotient being cut towards zero. -/
def onIntegers (o : Operation) (a b : Int) : Option Int :=
  match o with
  | .add => some (carry (a + b))
  | .subtract => some (carry (a - b))
  | .multiply => some (carry (a * b))
  | .divide => if b = 0 then none else some (carry (a.tdiv b))
  | .modulo => if b = 0 then none else some (carry (a.tmod b))

def onFloats (o : Operation) (a b : Float) : Float :=
  match o with
  | .add => a + b
  | .subtract => a - b
  | .multiply => a * b
  | .divide => a / b
  | .modulo => remainder a b

def onDecimals (o : Operation) (a b : Decimal) : Option Decimal :=
  match o with
  | .add => a.add b
  | .subtract => a.sub b
  | .multiply => a.mul b
  | .divide => a.div b
  | .modulo => a.rem b

/-- Arithmetic within a kind: integers wrap, and what has no result is null. -/
def operate (o : Operation) (kind : NumericKind) : Value → Value → Value
  | .int a, .int b => ((onIntegers o a b).map fun n => .int (kind.wrap n)).getD .null
  | .float a, .float b => ofDouble kind (onFloats o a b)
  | .decimal a, .decimal b => ((onDecimals o a b).map .decimal).getD .null
  | _, _ => .null

/-- Sums and differences of dates and spans, null where they leave their range. -/
def operateOnTimes : Operation → Value → Value → Value
  | .subtract, .dateTime a, .dateTime b => .timeSpan (a.since b)
  | .add, .dateTime a, .timeSpan t => ((a.add t).map .dateTime).getD .null
  | .subtract, .dateTime a, .timeSpan t => ((a.sub t).map .dateTime).getD .null
  | .add, .timeSpan s, .timeSpan t => ((s.add t).map .timeSpan).getD .null
  | .subtract, .timeSpan s, .timeSpan t => ((s.sub t).map .timeSpan).getD .null
  | _, _, _ => .null

/-- The text as which a value is joined to another; null adds nothing. -/
def joinText : Value → String
  | .null => ""
  | v => v.text

/-- A member of an enumeration by its name, if it has one. -/
def memberName (e : EnumType) : Value → Value
  | .enum n => ((e.nameOf? n).map .string).getD (.enum n)
  | v => v

def complement : Value → Value
  | .bool b => .bool !b
  | _ => .null

end RecordLogic.Value
