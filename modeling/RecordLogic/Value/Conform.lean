import RecordLogic.Value.Misfit

/-!
# Values of a type

A value conforms to a type when it can stand for one of it. A number is brought to the representation of
its kind, an integer to that of an enumeration, and nothing else changes.
-/

namespace RecordLogic

namespace Value

/-- The number `n` as a value of a kind. -/
def intOfKind (n : Int) (k : NumericKind) : Except Misfit Value :=
  if k.isIntegral then (if k.fits n then .ok (.int n) else .error (.range n k))
  else if k.isFloating then .ok (.float (Number.ofInt n))
  else match Decimal.ofInt? n with
    | some d => .ok (.decimal d)
    | none => .error (.range n .decimal)

def floatOfKind (f : Float) (k : NumericKind) : Except Misfit Value :=
  if k.isIntegral then
    match (Number.whole? f).filter k.fits with
    | some n => .ok (.int n)
    | none => .error (.float f k)
  else if k.isFloating then .ok (.float f)
  else match Decimal.ofDouble? f with
    | some d => .ok (.decimal d)
    | none => .error (.float f .decimal)

def decimalOfKind (d : Decimal) (k : NumericKind) : Except Misfit Value :=
  if k.isIntegral then
    match d.whole?.filter k.fits with
    | some n => .ok (.int n)
    | none => .error (.decimal d k)
  else if k.isFloating then .ok (.float d.toDouble)
  else .ok (.decimal d)

def memberOf (n : Int) (e : EnumType) : Except Misfit Value :=
  if (e.nameOf? n).isSome ∧ (Number.int64? n).isSome then .ok (.enum n) else .error (.member n e)

/-- The value as one of the type. -/
def conform : ValueType → Value → Except Misfit Value
  | .nullable _, .null => .ok .null
  | .nullable t, v => conform t v
  | .null, .null | .string, .null | .array _, .null | .model _, .null => .ok .null
  | .bool, .bool b => .ok (.bool b)
  | .number k, .int n => intOfKind n k
  | .number k, .float f => floatOfKind f k
  | .number k, .decimal d => decimalOfKind d k
  | .string, .string s => .ok (.string s)
  | .dateTime, .dateTime d => .ok (.dateTime d)
  | .timeSpan, .timeSpan t => .ok (.timeSpan t)
  | .guid, .guid g => .ok (.guid g)
  | .enum e, .enum n => memberOf n e
  | .enum e, .int n => memberOf n e
  | .array t, .array items => (items.mapM (conform t)).map .array
  | .model m, .record r => if r.model.id = m.id then .ok (.record r) else .error (.otherModel r.model m)
  | t, v => .error (.sort v.sort t)

end Value

end RecordLogic
