import RecordLogic.Model.Path
import RecordLogic.Decimal.Double
import RecordLogic.Time.DateTime
import RecordLogic.Number.Shortest
import RecordLogic.Guid

/-!
# Values and records

What fields hold and expressions give. Numbers of all integral kinds are integers here. A record has a
value for each field of its model.
-/

namespace RecordLogic

mutual

inductive Value where
  | null
  | bool (b : Bool)
  | int (n : Int)
  | float (f : Float)
  | decimal (d : Decimal)
  | string (s : String)
  | dateTime (d : DateTime)
  | timeSpan (t : TimeSpan)
  | guid (g : Guid)
  | enum (n : Int)
  | array (items : List Value)
  | record (r : Record)

structure Record where
  model : Model
  values : List Value

end

namespace Value

mutual

/-- Equality: of floats and decimals as numbers, of records only within one model. -/
def same : Value → Value → Bool
  | .null, .null => true
  | .bool a, .bool b => a == b
  | .int a, .int b => a == b
  | .float a, .float b => a == b
  | .decimal a, .decimal b => a.same b
  | .string a, .string b => a == b
  | .dateTime a, .dateTime b => a == b
  | .timeSpan a, .timeSpan b => a == b
  | .guid a, .guid b => a == b
  | .enum a, .enum b => a == b
  | .array as, .array bs => sameAll as bs
  | .record ⟨m, as⟩, .record ⟨n, bs⟩ => m.id == n.id && sameAll as bs
  | _, _ => false

def sameAll : List Value → List Value → Bool
  | [], [] => true
  | a :: as, b :: bs => same a b && sameAll as bs
  | _, _ => false

end

def isNull : Value → Bool
  | .null => true
  | _ => false

/-- Only true itself is true; null and everything else is not. -/
def isTrue : Value → Bool
  | .bool b => b
  | _ => false

def asBool? : Value → Option Bool
  | .bool b => some b
  | _ => none

def asInt? : Value → Option Int
  | .int n | .enum n => some n
  | _ => none

def asFloat? : Value → Option Float
  | .int n => some (Number.ofInt n)
  | .float f => some f
  | .decimal d => some d.toDouble
  | _ => none

def asDecimal? : Value → Option Decimal
  | .int n => Decimal.ofInt? n
  | .float f => Decimal.ofDouble? f
  | .decimal d => some d
  | _ => none

def asString? : Value → Option String
  | .string s => some s
  | _ => none

/-- The sort of a value as messages name it. -/
def sort : Value → String
  | .null => "null"
  | .bool _ => "bool"
  | .int _ => "integer"
  | .float _ => "float"
  | .decimal _ => "decimal"
  | .string _ => "string"
  | .dateTime _ => "datetime"
  | .timeSpan _ => "timespan"
  | .guid _ => "guid"
  | .enum _ => "enum"
  | .array _ => "array"
  | .record _ => "record"

mutual

/-- The value as it is shown and as it joins a text. -/
def text : Value → String
  | .null => "null"
  | .bool b => if b then "true" else "false"
  | .int n | .enum n => Number.integerText n
  | .float f => Number.plainText f
  | .decimal d => d.text
  | .string s => s
  | .dateTime d => d.text
  | .timeSpan t => t.text
  | .guid g => g.text
  | .array items => "[" ++ textOfAll items ++ "]"
  | .record ⟨m, _⟩ => m.name

def textOfAll : List Value → String
  | [] => ""
  | [v] => v.text
  | v :: vs => v.text ++ ", " ++ textOfAll vs

end

/-- The value that the steps lead to. What is absent on the way is null, and a length ends the way. -/
def follow : List Step → Value → Value
  | [], v => v
  | .field i :: rest, .record r =>
    match r.values[i]? with
    | some v => follow rest v
    | none => .null
  | .length :: _, .array items => .int items.length
  | .length :: _, .string s => .int s.length
  | _, _ => .null

end Value

namespace Record

def follow (r : Record) (steps : List Step) : Value := Value.follow steps (.record r)

/-- Equality within one model, value by value. -/
def same (a b : Record) : Bool := Value.same (.record a) (.record b)

def get? (r : Record) (index : Nat) : Option Value := r.values[index]?

/-- The value of a field of the record itself. -/
def value? (r : Record) (name : String) : Option Value := do
  let (index, _) ← r.model.field? .sensitive name
  r.values[index]?

/-- The value at a dotted path, if the path leads anywhere. -/
def read? (r : Record) (path : String) : Option Value :=
  match r.model.resolve .sensitive (Text.segments path) with
  | .ok resolved => some (r.follow resolved.steps)
  | .error _ => none

end Record

end RecordLogic
