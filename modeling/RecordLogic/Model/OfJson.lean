import RecordLogic.Model.TypeName
import RecordLogic.Json.Basic

/-!
# Models from Json

A model is an object with a name and fields. The type of a field is a name, or an object for an array, an
enumeration or a nested model. Identities are counted up, so that no two models read share one.
-/

namespace RecordLogic

/-- Why a Json value describes no model. -/
inductive SchemaFault where
  | noObject
  | noName
  | noFields (model : String)
  | unnamedField (model : String)
  | untyped (model field : String)
  | unknownType (name : String)
  | unsupportedType (type : Json)
  | noMembers (enum : String)
  | noInteger (enum member : String)

def SchemaFault.message : SchemaFault → String
  | .noObject => "a schema must be an object"
  | .noName => "a schema needs a \"name\""
  | .noFields model => s!"schema {model} needs a \"fields\" array"
  | .unnamedField model => s!"a field of {model} has no \"name\""
  | .untyped model field => s!"field {model}.{field} has no \"type\""
  | .unknownType name => s!"unknown type '{name}'"
  | .unsupportedType type =>
    let shown := type.text
    s!"unsupported type {shown}"
  | .noMembers enum => s!"enum {enum} needs a \"members\" object"
  | .noInteger enum member => s!"{enum}.{member} must be an integer"

theorem Json.sizeOf_find?_lt {name : String} {members : List (String × Json)} {j : Json}
    (h : Json.find? name members = some j) : sizeOf j < sizeOf members := by
  simp only [Json.find?, Option.map_eq_some_iff] at h
  obtain ⟨m, hm, rfl⟩ := h
  have h₁ := List.sizeOf_lt_of_mem (List.mem_of_find?_eq_some hm)
  have h₂ : sizeOf m.2 < sizeOf m := by cases m; simp only [Prod.mk.sizeOf_spec]; omega
  omega

theorem Json.sizeOf_get?_lt {j : Json} {name : String} {k : Json} (h : j.get? name = some k) :
    sizeOf k < sizeOf j := by
  cases j with
  | object members =>
    have := Json.sizeOf_find?_lt h
    simp only [Json.object.sizeOf_spec]
    omega
  | _ => simp [Json.get?] at h

namespace Schema

def members (enum : String) : List (String × Json) → Except SchemaFault (List (String × Int))
  | [] => .ok []
  | (name, value) :: rest =>
    match value.asInt64? with
    | none => .error (.noInteger enum name)
    | some n => (members enum rest).map ((name, n) :: ·)

def enumeration (name : String) (object : Json) : Except SchemaFault EnumType :=
  match (object.get? "members").bind Json.asObject? with
  | none => .error (.noMembers name)
  | some list => (members name list).map fun list => ⟨name, list⟩

mutual

/-- The model that a value describes, with the first identity that is free after it. -/
def readModel (next : Nat) (j : Json) : Except SchemaFault (Model × Nat) :=
  match j with
  | .object list =>
    match (Json.find? "name" list).bind Json.asString? with
    | none => .error .noName
    | some name =>
      match h : Json.find? "fields" list with
      | some (.array items) => do
        have : sizeOf items < 1 + sizeOf list := by
          have := Json.sizeOf_find?_lt h
          simp only [Json.array.sizeOf_spec] at this
          omega
        let (fields, next) ← readFields name next items
        return (⟨next, name, fields⟩, next + 1)
      | _ => .error (.noFields name)
  | _ => .error .noObject
termination_by (sizeOf j, 0)

def readFields (model : String) (next : Nat) (items : List Json) : Except SchemaFault (List Field × Nat) :=
  match items with
  | [] => .ok ([], next)
  | item :: rest =>
    match (item.get? "name").bind Json.asString? with
    | none => .error (.unnamedField model)
    | some name =>
      match h : item.get? "type" with
      | none => .error (.untyped model name)
      | some type => do
        have := Json.sizeOf_get?_lt h
        let (type, next) ← readType next type
        let (fields, next) ← readFields model next rest
        return (⟨name, type, (item.get? "display").bind Json.asString?⟩ :: fields, next)
termination_by (sizeOf items, 0)

def readType (next : Nat) (j : Json) : Except SchemaFault (ValueType × Nat) :=
  match j with
  | .string name =>
    match ValueType.ofName name with
    | .ok t => .ok (t, next)
    | .error unknown => .error (.unknownType unknown)
  | .object list => do
    let (type, next) ← readObject next list
    let nullable := ((Json.find? "nullable" list).bind Json.asBool?).getD false
    return (type.orNullIf nullable, next)
  | other => .error (.unsupportedType other)
termination_by (sizeOf j, 2)

def readObject (next : Nat) (list : List (String × Json)) : Except SchemaFault (ValueType × Nat) :=
  match h : Json.find? "array" list with
  | some element => do
    have := Json.sizeOf_find?_lt h
    let (type, next) ← readType next element
    return (.array type, next)
  | none =>
    match (Json.find? "enum" list).bind Json.asString? with
    | some name => (enumeration name (.object list)).map fun e => (.enum e, next)
    | none => (readModel next (.object list)).map fun (m, next) => (.model m, next)
termination_by (sizeOf (Json.object list), 1)

end

end Schema

end RecordLogic
