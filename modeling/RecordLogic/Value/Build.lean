import RecordLogic.Value.Conform

/-!
# Building records

From values in field order, or from fields set one after another by name; every value has to conform to
the type of its field, and a field never set is null.
-/

namespace RecordLogic

/-- The values brought to the types of the fields, up to the first that does not fit. -/
def conformAll : List Field → List Value → Except Rejection (List Value)
  | f :: fs, v :: vs =>
    match v.conform f.type with
    | .error reason => .error ⟨f.name, reason⟩
    | .ok w => (conformAll fs vs).map (w :: ·)
  | _, _ => .ok []

def Record.ofValues (m : Model) (values : List Value) : Except Rejection Record :=
  if values.length ≠ m.fields.length then .error ⟨m.name, .count m values.length⟩
  else (conformAll m.fields values).map (⟨m, ·⟩)

/-- Values collected by name, or the first name that no field has. -/
structure RecordBuilder where
  model : Model
  values : Except Rejection (List Value)

namespace RecordBuilder

def start (m : Model) : RecordBuilder := ⟨m, .ok (m.fields.map fun _ => .null)⟩

def set (b : RecordBuilder) (name : String) (v : Value) : RecordBuilder :=
  { b with values := do
    let values ← b.values
    match b.model.field? .sensitive name with
    | some (index, _) => return values.set index v
    | none => throw ⟨name, .noField b.model⟩ }

def build (b : RecordBuilder) : Except Rejection Record := do
  Record.ofValues b.model (← b.values)

end RecordBuilder

end RecordLogic
