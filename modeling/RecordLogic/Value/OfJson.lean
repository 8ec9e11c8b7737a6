import RecordLogic.Value.Build
import RecordLogic.Decimal.Reading

/-!
# Records from Json

The members of an object become the values of the fields by name; a field without a member is null, and a
member without a field is not looked at. Every value has to fit the type of its field.
-/

namespace RecordLogic

namespace Value

/-- A text as a value of a scalar type. -/
def ofText? (type : ValueType) (s : String) : Option Value :=
  match type with
  | .string => some (.string s)
  | .number .decimal => (Decimal.ofText? (String.ofList (Text.trim s.toList))).map .decimal
  | .dateTime => (DateTime.read? s).map .dateTime
  | .timeSpan => (TimeSpan.read? s).map .timeSpan
  | .guid => (Guid.read? (Text.trim s.toList)).map .guid
  | _ => none

/-- A Json number as a value of a scalar type: a decimal by its digits, a span by its seconds. -/
def ofNumber? (type : ValueType) (j : Json) : Option Value :=
  match type with
  | .number .decimal => (Decimal.read? j.text).map .decimal
  | .number _ =>
    match j with
    | .integer n => some (.int n)
    | .float f => some (.float f)
    | _ => none
  | .timeSpan => (j.asInt64?.bind TimeSpan.ofSeconds?).map .timeSpan
  | .enum _ => j.asInt64?.map .enum
  | _ => none

mutual

/-- A value of the type `type`, which `shown` wraps and which messages name. -/
def decode (shown : ValueType) (type : ValueType) (j : Json) : Except Misfit Value :=
  let misfit : Except Misfit Value := .error (.json j shown)
  match type with
  | .nullable inner => decode shown inner j
  | .array element =>
    match j with
    | .null => .ok .null
    | .array items => do
      let values ← items.mapM fun item => do conform element (← decode element element item)
      return .array values
    | _ => misfit
  | .model m =>
    match j with
    | .null => .ok .null
    | .object members =>
      match decodeRecord m members with
      | .ok r => .ok (.record r)
      | .error e => .error (.within e.field e.reason)
    | _ => misfit
  | scalar =>
    match j, scalar with
    | .null, _ => .ok .null
    | .bool b, .bool => .ok (.bool b)
    | .string s, .enum e =>
      match e.valueOf? .sensitive s with
      | some n => .ok (.enum n)
      | none => .error (.noMember s e)
    | .string s, _ => ((ofText? scalar s).map Except.ok).getD misfit
    | .integer _, _ | .float _, _ => ((ofNumber? scalar j).map Except.ok).getD misfit
    | _, _ => misfit
termination_by structural type

def decodeRecord (m : Model) (members : List (String × Json)) : Except Rejection Record :=
  match m with
  | ⟨id, name, fields⟩ => do
    let values ← decodeFields fields members
    Record.ofValues ⟨id, name, fields⟩ values
termination_by structural m

def decodeFields (fields : List Field) (members : List (String × Json)) : Except Rejection (List Value) :=
  match fields with
  | [] => .ok []
  | ⟨name, type, _⟩ :: rest =>
    match (decode type type ((Json.find? name members).getD .null)).bind (conform type) with
    | .error reason => .error ⟨name, reason⟩
    | .ok v => (decodeFields rest members).map (v :: ·)
termination_by structural fields

end

def ofJson (type : ValueType) (j : Json) : Except Misfit Value := (decode type type j).bind (conform type)

end Value

def Record.ofJson (m : Model) (j : Json) : Except Rejection Record :=
  match j with
  | .object members => Value.decodeRecord m members
  | _ => .error ⟨m.name, .noObject⟩

end RecordLogic
