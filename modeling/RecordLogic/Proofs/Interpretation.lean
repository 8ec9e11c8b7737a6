import RecordLogic.Predicate.Basic

/-!
# Expressions evaluated as they are written

An expression can be evaluated along its own tree, from left to right, with its calls answered in any monad. Types
only say in which representation the values of operands meet; the order of the calls and what is left out are
those of the tree.
-/

namespace RecordLogic

universe u

/-! ## Lowered trees with any answers to their calls -/

namespace Node

variable {m : Type → Type u} [Monad m] (answer : Signature → List Value → m Value) (r : Record)

mutual

def evalWith : Node → m Value
  | .const v => pure v
  | .field _ steps => pure (r.follow steps)
  | .call s args => do
    let values ← evalAllWith args
    answer s values
  | .not e => return (← e.evalWith).complement
  | .negate k e => return (← e.evalWith).negate k
  | .convert k e => return (← e.evalWith).convert k
  | .relate c a b => do
    let x ← a.evalWith
    let y ← b.evalWith
    return .bool (x.relate c y)
  | .operate o k a b => do
    let x ← a.evalWith
    let y ← b.evalWith
    return x.operate o k y
  | .operateOnTimes o a b => do
    let x ← a.evalWith
    let y ← b.evalWith
    return .operateOnTimes o x y
  | .join a b => do
    let x ← a.evalWith
    let y ← b.evalWith
    return .string (x.joinText ++ y.joinText)
  | .and a b => do
    let x ← a.evalWith
    if x.isTrue then
      let y ← b.evalWith
      return .bool y.isTrue
    else return .bool false
  | .or a b => do
    let x ← a.evalWith
    if x.isTrue then return .bool true
    else
      let y ← b.evalWith
      return .bool y.isTrue
  | .conditional c y n => do
    let x ← c.evalWith
    if x.isTrue then y.evalWith else n.evalWith
  | .memberName e a => return (← a.evalWith).memberName e

def evalAllWith : List Node → m (List Value)
  | [] => pure []
  | e :: es => do
    let v ← e.evalWith
    let vs ← evalAllWith es
    return v :: vs

end

mutual

theorem eval_eq_evalWith : ∀ n : Node, n.eval r = n.evalWith Traced.call r
  | .const _ | .field _ _ => by rw [eval, evalWith]
  | .call _ args => by rw [eval, evalWith, evalAll_eq_evalAllWith args]
  | .not e | .negate _ e | .convert _ e | .memberName _ e => by rw [eval, evalWith, eval_eq_evalWith e]
  | .relate _ a b | .operate _ _ a b | .operateOnTimes _ a b | .join a b | .and a b | .or a b => by
    rw [eval, evalWith, eval_eq_evalWith a, eval_eq_evalWith b]
  | .conditional c y n => by
    rw [eval, evalWith, eval_eq_evalWith c, eval_eq_evalWith y, eval_eq_evalWith n]

theorem evalAll_eq_evalAllWith : ∀ ns : List Node, evalAll r ns = evalAllWith Traced.call r ns
  | [] => rfl
  | n :: ns => by rw [evalAll, evalAllWith, eval_eq_evalWith n, evalAll_eq_evalAllWith ns]

end

end Node

/-! ## What operators do to the values of their operands -/

namespace Typed

def inKind (t : Typed) (k : NumericKind) (v : Value) : Value :=
  if t.type.kind? = some k ∨ (t.type.kind?.any NumericKind.isIntegral ∧ k.isIntegral) then v
  else
    match t with
    | .part .. => v.convert k
    | .numeral n => if k = .decimal then ((Decimal.read? n.text).map .decimal).getD .null else v.convert k

def inText (t : Typed) (v : Value) : Value :=
  match t.type.enum? with
  | some e => v.memberName e
  | none => v

def meeting (t other : Typed) (v : Value) : Value :=
  match t.type.kind?, other.type.kind? with
  | some j, some k => t.inKind (j.widen k) v
  | _, _ => v

/-- The value of a part under a minus sign. A numeral takes the sign itself while a kind of integers holds it. -/
def negated (t : Typed) (v : Value) : Value :=
  match t.type.kind?, t with
  | none, _ => v.negate none
  | some k, .part .. => (t.inKind (Lowering.negationKind k) v).negate (some (Lowering.negationKind k))
  | some k, .numeral n =>
    match n.negated? with
    | some n' => n'.value
    | none => (t.inKind (Lowering.negationKind k) v).negate (some (Lowering.negationKind k))

end Typed

def UnaryOp.apply (op : UnaryOp) (t : Typed) (v : Value) : Value :=
  match op with
  | .not => v.complement
  | .negate => t.negated v

def Relation.apply (c : Relation) (a b : Typed) (x y : Value) : Value :=
  .bool ((a.meeting b x).relate c (b.meeting a y))

def Operation.apply (o : Operation) (a b : Typed) (x y : Value) : Value :=
  if o = .add ∧ (Lowering.isText a.type || Lowering.isText b.type) then
    .string ((a.inText x).joinText ++ (b.inText y).joinText)
  else
    match Lowering.commonKind? a.type b.type with
    | some k => (a.inKind k x).operate o k (b.inKind k y)
    | none => .operateOnTimes o x y

/-! ## Trees as they are written -/

def Scope.typed (s : Scope) (e : Expr) : Typed := (Lowering.lower s e).toOption.getD (.part (.const .null) .null)

def Scope.callee? (s : Scope) (name : String) (args : List Expr) : Option Signature :=
  s.registry.resolve? s.mode name (args.map fun e => (s.typed e).type.coarse?)

def Scope.leaf (s : Scope) (r : Record) (e : Expr) : Value := ((s.typed e).node.eval r).value

namespace Expr

variable {m : Type → Type u} [Monad m] (s : Scope) (answer : Signature → List Value → m Value) (r : Record)

mutual

/-- The value of an expression on a record when its calls are answered so. Operands are evaluated from left to right,
the right side of a logical operator and the branches of a conditional only where they count. -/
def evalWith : Expr → m Value
  | .literal v l => pure (s.leaf r (.literal v l))
  | .field path l => pure (s.leaf r (.field path l))
  | .call name args _ => do
    let values ← evalAllWith args
    match s.callee? name args with
    | some f => answer f values
    | none => pure .null
  | .unary op e _ => do
    let x ← e.evalWith
    return op.apply (s.typed e) x
  | .binary (.relation c) a b _ => do
    let x ← a.evalWith
    let y ← b.evalWith
    return c.apply (s.typed a) (s.typed b) x y
  | .binary (.operation o) a b _ => do
    let x ← a.evalWith
    let y ← b.evalWith
    return o.apply (s.typed a) (s.typed b) x y
  | .binary .and a b _ => do
    let x ← a.evalWith
    if x.isTrue then
      let y ← b.evalWith
      return .bool y.isTrue
    else return .bool false
  | .binary .or a b _ => do
    let x ← a.evalWith
    if x.isTrue then return .bool true
    else
      let y ← b.evalWith
      return .bool y.isTrue
  | .conditional c y n _ => do
    let x ← c.evalWith
    if x.isTrue then
      let v ← y.evalWith
      return (s.typed y).meeting (s.typed n) v
    else
      let v ← n.evalWith
      return (s.typed n).meeting (s.typed y) v

def evalAllWith : List Expr → m (List Value)
  | [] => pure []
  | e :: es => do
    let v ← e.evalWith
    let vs ← evalAllWith es
    return v :: vs

end

end Expr

end RecordLogic
