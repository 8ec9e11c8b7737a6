import RecordLogic.Model.Basic

/-!
# Paths

A dotted path leads from a model through its fields. Resolving it gives the type at its end and the
steps by which records are read, so that reading looks up no names.
-/

namespace RecordLogic

open Text

/-- A segment that leads nowhere, with its place in the path. -/
structure UnknownSegment where
  segment : String
  depth : Nat
  path : String
  deriving DecidableEq, Repr

def UnknownSegment.message (u : UnknownSegment) : String :=
  let segment := u.segment
  let path := u.path
  s!"Unknown field '{segment}' in path '{path}'."

/-- One step of reading: into a field by its index, or to the length of a text or an array. -/
inductive Step where
  | field (index : Nat)
  | length
  deriving DecidableEq, Repr

structure Resolved where
  type : ValueType
  steps : List Step

/-- The member that texts and arrays have. -/
def lengthMember : String := "Length"

namespace Model

def field? (m : Model) (mode : Case) (name : String) : Option (Nat × Field) := do
  let index ← m.fields.findIdx? fun f => mode.agree f.name name
  let field ← m.fields[index]?
  return (index, field)

def advance? (mode : Case) (type : ValueType) (segment : String) : Option (Step × ValueType) :=
  match type.underlying with
  | .model m => (m.field? mode segment).map fun (index, field) => (.field index, field.type)
  | .array _ | .string =>
    if mode.agree segment lengthMember then some (.length, .number .i32) else none
  | _ => none

/-- The end of the segments that follow, or the number of the first that leads nowhere. -/
def walk (mode : Case) (type : ValueType) : List String → Except (Nat × String) Resolved
  | [] => .ok ⟨type, []⟩
  | segment :: rest =>
    match advance? mode type segment with
    | none => .error (0, segment)
    | some (step, next) =>
      match walk mode next rest with
      | .error (depth, segment) => .error (depth + 1, segment)
      | .ok r => .ok ⟨r.type, step :: r.steps⟩

/-- Behind the first segment any record on the way may be absent, so the type is nullable there. -/
def resolve (m : Model) (mode : Case) (path : List String) : Except UnknownSegment Resolved :=
  if path.isEmpty then .error ⟨"", 0, dotted path⟩
  else
    match walk mode (.model m) path with
    | .error (depth, segment) => .error ⟨segment, depth, dotted path⟩
    | .ok r => .ok { r with type := r.type.orNullIf (1 < r.steps.length) }

/-- The field at the end of the segments; lengths are no fields. -/
def fieldAt (m : Model) (depth : Nat) : List String → Except (Nat × String) Field
  | [] => .error (depth, "")
  | segment :: rest =>
    match m.field? .sensitive segment with
    | none => .error (depth, segment)
    | some (_, field) =>
      match rest, field.type.underlying with
      | [], _ => .ok field
      | _, .model inner => fieldAt inner (depth + 1) rest
      | next :: _, _ => .error (depth + 1, next)

/-- The field at the end of a dotted path. -/
def descriptor (m : Model) (path : String) : Except UnknownSegment Field :=
  match m.fieldAt 0 (segments path) with
  | .ok field => .ok field
  | .error (depth, segment) => .error ⟨segment, depth, path⟩

end Model

/-- The segment at which the first two paths meet of which one begins with all segments of the other. -/
def segmentsCollide (as bs : List String) : Option (String × Nat) :=
  as.findSome? fun a => bs.findSome? fun b =>
    let x := segments a
    let y := segments b
    let shared := min x.length y.length
    if x.take shared = y.take shared then (x[shared - 1]?).map fun s => (s, shared - 1) else none

end RecordLogic
