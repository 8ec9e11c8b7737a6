import RecordLogic.Predicate.Node
import RecordLogic.Function.Registry
import RecordLogic.Model.Enums
import RecordLogic.Decimal.Reading

/-!
# Lowering

Every part of an expression gets a type, from its parts upwards. Where two numbers meet they are widened
to a common kind; a numeral that meets a decimal or a floating number becomes one at once, a decimal from
its digits and not from their double.
-/

namespace RecordLogic

open Number

/-- What names in an expression mean. -/
structure Scope where
  model : Model
  registry : Registry
  mode : Text.Case

inductive Amount where
  | whole (n : Int) (kind : NumericKind)
  | double (f : Float)

/-- A number as written, under all the minus signs before it. -/
structure Numeral where
  text : String
  location : Location
  amount : Amount

namespace Numeral

def value (n : Numeral) : Value :=
  match n.amount with
  | .whole i _ => .int i
  | .double f => .float f

def kind (n : Numeral) : NumericKind :=
  match n.amount with
  | .whole _ k => k
  | .double _ => .f64

/-- Digits alone are an integer as far as a kind of integers has room. -/
def ofLiteral (value : Float) (text : String) (location : Location) : Numeral :=
  let whole : Option Amount := do
    let n : Int ← natural? text.toList
    let kind ← NumericKind.ofLiteral? n
    return .whole n kind
  ⟨text, location, whole.getD (.double value)⟩

/-- The numeral under one more minus sign, unless no kind of integers holds it then. -/
def negated? (n : Numeral) : Option Numeral :=
  let text := "-" ++ n.text
  match n.amount with
  | .whole i _ => (NumericKind.ofLiteral? (-i)).map fun kind => { n with text, amount := .whole (-i) kind }
  | .double f => some { n with text, amount := .double (-f) }

end Numeral

/-- A part of an expression with its type. -/
inductive Typed where
  | numeral (n : Numeral)
  | part (node : Node) (type : ValueType)

namespace Typed

def node : Typed → Node
  | .numeral n => .const n.value
  | .part node _ => node

def type : Typed → ValueType
  | .numeral n => .number n.kind
  | .part _ type => type

end Typed

def ValueType.isCondition (t : ValueType) : Bool :=
  match t.underlying with
  | .bool | .null => true
  | _ => false

def ValueType.isOrdered (t : ValueType) : Bool :=
  match t.coarse? with
  | none | some .number | some .dateTime | some .timeSpan => true
  | _ => false

namespace Lowering

def literal (value : Literal) (location : Location) : Typed :=
  match value with
  | .bool b => .part (.const (.bool b)) .bool
  | .string s => .part (.const (.string s)) .string
  | .null => .part (.const .null) .null
  | .number f text => .numeral (Numeral.ofLiteral f text location)

/-- The member at the end of a path whose beginning names an enumeration of the model. -/
def member? (s : Scope) (path : List String) : Option Typed := do
  let member ← path.getLast?
  let name := Text.dotted path.dropLast
  if path.dropLast.isEmpty then none
  else
    let e ← s.model.enums.find? fun e => s.mode.agree e.name name
    let n ← e.valueOf? s.mode member
    return .part (.const (.enum n)) (.enum e)

/-- Where a segment of a path begins that itself begins at a location. -/
def segmentLocation (location : Location) (path : List String) (depth : Nat) : Location :=
  { location with column := (path.take depth).foldl (fun column s => column + s.length + 1) location.column }

def field (s : Scope) (path : List String) (location : Location) : Except Objection Typed :=
  match s.model.resolve s.mode path with
  | .ok resolved => .ok (.part (.field (Text.dotted path) resolved.steps) resolved.type)
  | .error unknown =>
    match member? s path with
    | some t => .ok t
    | none => .error ⟨.unknownField unknown, segmentLocation location path unknown.depth⟩

def call (s : Scope) (name : String) (args : List Typed) (location : Location) : Except Objection Typed :=
  let sorts := args.map fun t => t.type.coarse?
  match s.registry.resolve? s.mode name sorts with
  | some signature => .ok (.part (.call signature (args.map Typed.node)) signature.returns)
  | none =>
    if (s.registry.overloads s.mode name).any fun f => f.params.length == args.length then
      .error ⟨.noOverload name sorts, location⟩
    else .error ⟨.noFunction name args.length, location⟩

/-- The node in the representation of a kind. A numeral that has no decimal is refused. -/
def coerce (t : Typed) (kind : NumericKind) : Except Objection Node :=
  let given := t.type.kind?
  if given = some kind ∨ (given.any NumericKind.isIntegral ∧ kind.isIntegral) then .ok t.node
  else
    match t with
    | .part node _ => .ok (.convert kind node)
    | .numeral n =>
      if kind = .decimal then
        match Decimal.read? n.text with
        | some d => .ok (.const (.decimal d))
        | none => .error ⟨.literalRange n.text (.number kind), n.location⟩
      else if kind.isFloating then .ok (.const (n.value.convert kind))
      else .ok (.convert kind t.node)

/-- The kind in which a number is negated: one with a sign. -/
def negationKind (k : NumericKind) : NumericKind :=
  match k.promote with
  | .u32 | .u64 => .i64
  | kind => kind

def negateNumber (t : Typed) (k : NumericKind) : Except Objection Typed := do
  let kind := negationKind k
  let node ← coerce t kind
  return .part (.negate (some kind) node) ((ValueType.number kind).orNullIf t.type.isNullable)

def negate (t : Typed) (location : Location) : Except Objection Typed :=
  match t.type.underlying with
  | .number k =>
    match t with
    | .numeral n =>
      match n.negated? with
      | some m => .ok (.numeral m)
      | none => negateNumber t k
    | .part .. => negateNumber t k
  | .timeSpan => .ok (.part (.negate none t.node) (ValueType.timeSpan.orNullIf t.type.isNullable))
  | type => .error ⟨.operand .negate type, location⟩

def unary (op : UnaryOp) (t : Typed) (location : Location) : Except Objection Typed :=
  match op with
  | .negate => negate t location
  | .not =>
    if t.type.isCondition then .ok (.part (.not t.node) (ValueType.bool.orNullIf t.type.isNullable))
    else .error ⟨.operand .not t.type.underlying, location⟩

/-- Two nodes brought to one type. -/
structure Meeting where
  left : Node
  right : Node
  type : ValueType

/-- Numbers meet at the wider kind, null meets everything, one enumeration meets itself, and all else meets
what is of the same sort. -/
def unify (symbol : String) (a b : Typed) (location : Location) : Except Objection Meeting :=
  let nullable := a.type.isNullable || b.type.isNullable
  let refused : Except Objection Meeting := .error ⟨.operands symbol a.type b.type, location⟩
  match a.type.underlying, b.type.underlying with
  | .null, .null => .ok ⟨a.node, b.node, .null⟩
  | .null, t | t, .null => .ok ⟨a.node, b.node, t.orNull⟩
  | .number j, .number k => do
    let kind := j.widen k
    return ⟨← coerce a kind, ← coerce b kind, (ValueType.number kind).orNullIf nullable⟩
  | .enum e, .enum f => if e = f then .ok ⟨a.node, b.node, (ValueType.enum e).orNullIf nullable⟩ else refused
  | t, u => if t.coarse? = u.coarse? then .ok ⟨a.node, b.node, t.orNullIf nullable⟩ else refused

def relation (r : Relation) (a b : Typed) (location : Location) : Except Objection Typed := do
  let m ← unify r.symbol a b location
  if r.isOrder && !m.type.isOrdered then throw ⟨.operands r.symbol a.type b.type, location⟩
  else return .part (.relate r m.left m.right) .bool

/-- A part that joins a text; members of enumerations show their names there. -/
def textual (t : Typed) : Node :=
  match t.type.enum? with
  | some e => .memberName e t.node
  | none => t.node

/-- The kind in which two operands are computed of which one is a number and the other a number or null. -/
def commonKind? (a b : ValueType) : Option NumericKind :=
  match a.underlying, b.underlying with
  | .number j, .number k => some (j.widen k).promote
  | .number k, .null | .null, .number k => some k.promote
  | _, _ => none

/-- The type of a sum or difference of dates and spans. -/
def timeType? (o : Operation) (a b : ValueType) : Option ValueType :=
  match o, a.underlying, b.underlying with
  | .subtract, .dateTime, .dateTime => some .timeSpan
  | .add, .dateTime, .timeSpan | .subtract, .dateTime, .timeSpan => some .dateTime
  | .add, .timeSpan, .timeSpan | .subtract, .timeSpan, .timeSpan => some .timeSpan
  | _, _, _ => none

def isText (t : ValueType) : Bool := t.coarse? = some .string

def operation (o : Operation) (a b : Typed) (location : Location) : Except Objection Typed :=
  let nullable := a.type.isNullable || b.type.isNullable
  if o = .add ∧ (isText a.type || isText b.type) then .ok (.part (.join (textual a) (textual b)) .string)
  else
    match commonKind? a.type b.type with
    | some kind => do
      return .part (.operate o kind (← coerce a kind) (← coerce b kind))
        ((ValueType.number kind).orNullIf nullable)
    | none =>
      match timeType? o a.type b.type with
      | some type => .ok (.part (.operateOnTimes o a.node b.node) (type.orNullIf nullable))
      | none => .error ⟨.operands o.symbol a.type b.type, location⟩

def logical (op : BinaryOp) (make : Node → Node → Node) (a b : Typed) (location : Location) :
    Except Objection Typed :=
  if a.type.isCondition && b.type.isCondition then .ok (.part (make a.node b.node) .bool)
  else .error ⟨.operands op.symbol a.type b.type, location⟩

def binary (op : BinaryOp) (a b : Typed) (location : Location) : Except Objection Typed :=
  match op with
  | .and => logical .and .and a b location
  | .or => logical .or .or a b location
  | .relation r => relation r a b location
  | .operation o => operation o a b location

def conditional (c y n : Typed) (location : Location) : Except Objection Typed := do
  let m ← unify "?:" y n location
  return .part (.conditional c.node m.left m.right) m.type

mutual

def lower (s : Scope) : Expr → Except Objection Typed
  | .literal v l => .ok (literal v l)
  | .field path l => field s path l
  | .call name args l => do
    let args ← lowerAll s args
    call s name args l
  | .unary op e l => do
    let t ← lower s e
    unary op t l
  | .binary op a b l => do
    let a ← lower s a
    let b ← lower s b
    binary op a b l
  | .conditional c y n l => do
    let c ← lower s c
    if c.type.isCondition then
      let y ← lower s y
      let n ← lower s n
      conditional c y n l
    else throw ⟨.condition c.type, l⟩

def lowerAll (s : Scope) : List Expr → Except Objection (List Typed)
  | [] => .ok []
  | e :: es => do
    let t ← lower s e
    let ts ← lowerAll s es
    return t :: ts

end

end Lowering

end RecordLogic
