import RecordLogic.Value.Basic
import RecordLogic.Json.Basic

/-!
# Misfits

Why a value does not fit where it is put.
-/

namespace RecordLogic

inductive Misfit where
  | sort (found : String) (wanted : ValueType)
  | range (n : Int) (kind : NumericKind)
  | float (f : Float) (kind : NumericKind)
  | decimal (d : Decimal) (kind : NumericKind)
  | member (n : Int) (e : EnumType)
  | otherModel (found wanted : Model)
  | count (model : Model) (found : Nat)
  | noField (model : Model)
  | unknown (segment : UnknownSegment)
  | json (found : Json) (wanted : ValueType)
  | noMember (name : String) (e : EnumType)
  | noObject
  | within (field : String) (reason : Misfit)

def Misfit.message : Misfit → String
  | .sort found wanted =>
    let type := wanted.text
    s!"{found} is not a valid {type}"
  | .range n kind =>
    let number := Number.integerText n
    let name := kind.name
    s!"{number} is out of range for {name}"
  | .float f kind =>
    let number := Number.plainText f
    let name := kind.name
    s!"{number} is not a valid {name}"
  | .decimal d kind =>
    let number := d.text
    let name := kind.name
    s!"{number} is not a valid {name}"
  | .member n e =>
    let number := Number.integerText n
    let name := e.name
    s!"{number} is not a member of {name}"
  | .otherModel found wanted =>
    let one := found.name
    let other := wanted.name
    s!"{one} record is not a valid {other}"
  | .count model found =>
    let wanted := model.fields.length
    s!"expected {wanted} values, got {found}"
  | .noField model =>
    let name := model.name
    s!"{name} has no such field"
  | .unknown u => u.message
  | .json found wanted =>
    let shown := found.text
    let type := wanted.text
    s!"{shown} is not a valid {type}"
  | .noMember name e =>
    let enum := e.name
    s!"'{name}' is not a member of {enum}"
  | .noObject => "expected a JSON object"
  | .within field reason =>
    let message := reason.message
    s!"Invalid value for {field}: {message}"

/-- A value that was turned away, named by its field. -/
structure Rejection where
  field : String
  reason : Misfit

def Rejection.message (r : Rejection) : String := (Misfit.within r.field r.reason).message

end RecordLogic
