import RecordLogic.Model.Kind
import RecordLogic.Text.Split

/-!
# Types and models

A model is an ordered list of typed fields under an identity of its own. Types nest models, arrays and
nullable wrappers.
-/

namespace RecordLogic

/-- The sort of a value, by which functions are chosen. -/
inductive CoarseType where
  | bool | number | string | dateTime | timeSpan | guid | enumeration
  | collection
  | object
  deriving DecidableEq, Repr

namespace CoarseType

def all : List CoarseType :=
  [.bool, .number, .string, .dateTime, .timeSpan, .guid, .enumeration, .collection, .object]

def name : CoarseType → String
  | .bool => "bool"
  | .number => "number"
  | .string => "string"
  | .dateTime => "datetime"
  | .timeSpan => "timespan"
  | .guid => "guid"
  | .enumeration => "enumeration"
  | .collection => "collection"
  | .object => "object"

end CoarseType

/-- Named members and their values. Two members may share a value. -/
structure EnumType where
  name : String
  members : List (String × Int)
  deriving DecidableEq, Repr

namespace EnumType

def valueOf? (e : EnumType) (mode : Text.Case) (member : String) : Option Int :=
  (e.members.find? fun m => mode.agree m.1 member).map (·.2)

def nameOf? (e : EnumType) (value : Int) : Option String := (e.members.find? fun m => m.2 == value).map (·.1)

end EnumType

mutual

/-- The type of a field or of a part of an expression; `null` is that of the null literal. -/
inductive ValueType where
  | null
  | bool
  | number (kind : NumericKind)
  | string
  | dateTime
  | timeSpan
  | guid
  | enum (e : EnumType)
  | array (element : ValueType)
  | model (m : Model)
  | nullable (inner : ValueType)

/-- Models with different identities are different, whatever their fields. -/
structure Model where
  id : Nat
  name : String
  fields : List Field

structure Field where
  name : String
  type : ValueType
  display : Option String

end

namespace ValueType

def isNullable : ValueType → Bool
  | .null | .string | .array _ | .model _ | .nullable _ => true
  | _ => false

def orNull (t : ValueType) : ValueType := if t.isNullable then t else .nullable t

def orNullIf (condition : Bool) (t : ValueType) : ValueType := if condition then t.orNull else t

def underlying : ValueType → ValueType
  | .nullable t => t.underlying
  | t => t

def coarse? : ValueType → Option CoarseType
  | .null => none
  | .bool => some .bool
  | .number _ => some .number
  | .string => some .string
  | .dateTime => some .dateTime
  | .timeSpan => some .timeSpan
  | .guid => some .guid
  | .enum _ => some .enumeration
  | .array _ => some .collection
  | .model _ => some .object
  | .nullable t => t.coarse?

def kind? (t : ValueType) : Option NumericKind :=
  match t.underlying with
  | .number k => some k
  | _ => none

def enum? (t : ValueType) : Option EnumType :=
  match t.underlying with
  | .enum e => some e
  | _ => none

def text : ValueType → String
  | .null => "null"
  | .bool => "bool"
  | .number k => k.name
  | .string => "string"
  | .dateTime => "datetime"
  | .timeSpan => "timespan"
  | .guid => "guid"
  | .enum e => e.name
  | .array t => t.text ++ "[]"
  | .model m => m.name
  | .nullable t => t.text ++ "?"

end ValueType

end RecordLogic
