import RecordLogic.Engine.Basic
import RecordLogic.Model.Display

/-!
# Rules on fields

A field may be required whenever an expression holds, and its value may have to make an expression hold.
The first rule looks at fields without a value and the second at fields with one.
-/

namespace RecordLogic

/-- A rule that is not kept, with the path of its field. -/
structure Violation where
  field : String
  message : String
  deriving DecidableEq, Repr

def Record.valueAt (r : Record) (path : String) : Except Error Value :=
  match r.read? path with
  | some v => .ok v
  | none => .error (.rejected ⟨path, .noField r.model⟩)

/-- The field is required when the expression holds. -/
structure RequiredIf where
  expression : String
  allowEmpty : Bool

namespace RequiredIf

/-- Refuses fields that are never absent, since the rule could never apply to them. -/
def checkTarget (_ : RequiredIf) (m : Model) (field : String) : Except Error Unit :=
  match m.descriptor field with
  | .error unknown => .error (.rejected ⟨field, .unknown unknown⟩)
  | .ok f => if f.type.isNullable then .ok () else .error (.misuse f.type)

/-- Whether the value counts as none: null, or a blank text unless such texts are allowed. -/
def lacks (rule : RequiredIf) (v : Value) : Bool :=
  v.isNull || (!rule.allowEmpty && v.asString?.any fun s => s.toList.all Text.isBlank)

def violation (rule : RequiredIf) (m : Model) (field : String) : Violation :=
  let name := m.shownName field
  let logic := rule.expression
  ⟨field, s!"The {name} field is required by the following logic: {logic}"⟩

def validate (rule : RequiredIf) (g : Engine) (r : Record) (field : String) :
    Except Error (Option Violation) × Engine :=
  match rule.checkTarget r.model field with
  | .error e => (.error e, g)
  | .ok () =>
    match r.valueAt field with
    | .error e => (.error e, g)
    | .ok v =>
      if rule.lacks v then
        let (result, g) := g.evaluate r.model rule.expression r
        (result.map fun holds => if holds then some (rule.violation r.model field) else none, g)
      else (.ok none, g)

end RequiredIf

/-- The expression holds when the field has a value. -/
structure AssertThat where
  expression : String

namespace AssertThat

def violation (rule : AssertThat) (m : Model) (field : String) : Violation :=
  let name := m.shownName field
  let logic := rule.expression
  ⟨field, s!"Assertion for {name} field is not satisfied by the following logic: {logic}"⟩

def validate (rule : AssertThat) (g : Engine) (r : Record) (field : String) :
    Except Error (Option Violation) × Engine :=
  match r.valueAt field with
  | .error e => (.error e, g)
  | .ok v =>
    if v.isNull then (.ok none, g)
    else
      let (result, g) := g.evaluate r.model rule.expression r
      (result.map fun holds => if holds then none else some (rule.violation r.model field), g)

end AssertThat

end RecordLogic
