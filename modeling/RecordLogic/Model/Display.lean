import RecordLogic.Error

/-!
# Display names

The name under which a field is shown to people, if it was given one.
-/

namespace RecordLogic.Model

def displayName (m : Model) (path : String) : Except Error String :=
  match m.descriptor path with
  | .error unknown => .error (.missingDisplayName unknown.segment)
  | .ok field =>
    match field.display with
    | some name => .ok name
    | none => .error (.missingDisplayName field.name)

def shownName (m : Model) (path : String) : String :=
  match m.displayName path with
  | .ok name => name
  | .error _ => path

end RecordLogic.Model
