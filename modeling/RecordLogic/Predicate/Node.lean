import RecordLogic.Predicate.Trace
import RecordLogic.Predicate.Operation

/-!
# Lowered expressions

A tree in which all names are resolved and every change of representation stands as a node of its own.
It is evaluated from left to right and never fails.
-/

namespace RecordLogic

inductive Node where
  | const (v : Value)
  | field (path : String) (steps : List Step)
  | call (signature : Signature) (args : List Node)
  | not (operand : Node)
  | negate (kind : Option NumericKind) (operand : Node)
  | convert (kind : NumericKind) (operand : Node)
  | relate (r : Relation) (left right : Node)
  | operate (o : Operation) (kind : NumericKind) (left right : Node)
  | operateOnTimes (o : Operation) (left right : Node)
  | join (left right : Node)
  | and (left right : Node)
  | or (left right : Node)
  | conditional (condition yes no : Node)
  | memberName (e : EnumType) (operand : Node)

namespace Node

mutual

/-- The value on a record and the calls made for it. The right side of a logical operator and the branches of a
conditional are evaluated only where they count. -/
def eval (r : Record) : Node → Traced Value
  | .const v => pure v
  | .field _ steps => pure (r.follow steps)
  | .call s args => do
    let values ← evalAll r args
    Traced.call s values
  | .not e => return (← e.eval r).complement
  | .negate k e => return (← e.eval r).negate k
  | .convert k e => return (← e.eval r).convert k
  | .relate c a b => do
    let x ← a.eval r
    let y ← b.eval r
    return .bool (x.relate c y)
  | .operate o k a b => do
    let x ← a.eval r
    let y ← b.eval r
    return x.operate o k y
  | .operateOnTimes o a b => do
    let x ← a.eval r
    let y ← b.eval r
    return .operateOnTimes o x y
  | .join a b => do
    let x ← a.eval r
    let y ← b.eval r
    return .string (x.joinText ++ y.joinText)
  | .and a b => do
    let x ← a.eval r
    if x.isTrue then
      let y ← b.eval r
      return .bool y.isTrue
    else return .bool false
  | .or a b => do
    let x ← a.eval r
    if x.isTrue then return .bool true
    else
      let y ← b.eval r
      return .bool y.isTrue
  | .conditional c y n => do
    let x ← c.eval r
    if x.isTrue then y.eval r else n.eval r
  | .memberName e a => return (← a.eval r).memberName e

def evalAll (r : Record) : List Node → Traced (List Value)
  | [] => pure []
  | e :: es => do
    let v ← e.eval r
    let vs ← evalAll r es
    return v :: vs

end

mutual

def paths : Node → List String
  | .const _ => []
  | .field path _ => [path]
  | .call _ args => pathsOfAll args
  | .not e | .negate _ e | .convert _ e | .memberName _ e => e.paths
  | .relate _ a b | .operate _ _ a b | .operateOnTimes _ a b | .join a b | .and a b | .or a b => a.paths ++ b.paths
  | .conditional c y n => c.paths ++ y.paths ++ n.paths

def pathsOfAll : List Node → List String
  | [] => []
  | e :: es => e.paths ++ pathsOfAll es

end

end Node

end RecordLogic
