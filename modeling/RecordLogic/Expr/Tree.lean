import RecordLogic.Expr.Token

/-!
# Expression trees

Each node knows where it was read: a binary node where its operator stands, a call where its name does.
-/

namespace RecordLogic

inductive UnaryOp where
  | not
  | negate
  deriving DecidableEq, Repr

def UnaryOp.symbol : UnaryOp → String
  | .not => "!"
  | .negate => "-"

inductive Relation where
  | equal | notEqual
  | less | greater | lessEqual | greaterEqual
  deriving DecidableEq, Repr

inductive Operation where
  | add | subtract
  | multiply | divide | modulo
  deriving DecidableEq, Repr

inductive BinaryOp where
  | relation (r : Relation)
  | operation (o : Operation)
  | and
  | or
  deriving DecidableEq, Repr

def Relation.symbol : Relation → String
  | .equal => "=="
  | .notEqual => "!="
  | .less => "<"
  | .greater => ">"
  | .lessEqual => "<="
  | .greaterEqual => ">="

def Relation.isOrder : Relation → Bool
  | .equal | .notEqual => false
  | _ => true

def Operation.symbol : Operation → String
  | .add => "+"
  | .subtract => "-"
  | .multiply => "*"
  | .divide => "/"
  | .modulo => "%"

namespace BinaryOp

def symbol : BinaryOp → String
  | .relation r => r.symbol
  | .operation o => o.symbol
  | .and => "&&"
  | .or => "||"

/-- How tightly an operator binds, the loosest at 0. -/
def level : BinaryOp → Nat
  | .or => 0
  | .and => 1
  | .relation r => if r.isOrder then 3 else 2
  | .operation .add | .operation .subtract => 4
  | .operation _ => 5

def ofKind? : Token.Kind → Option BinaryOp
  | .or => some .or
  | .and => some .and
  | .equal => some (.relation .equal)
  | .notEqual => some (.relation .notEqual)
  | .less => some (.relation .less)
  | .greater => some (.relation .greater)
  | .lessEqual => some (.relation .lessEqual)
  | .greaterEqual => some (.relation .greaterEqual)
  | .plus => some (.operation .add)
  | .minus => some (.operation .subtract)
  | .star => some (.operation .multiply)
  | .slash => some (.operation .divide)
  | .percent => some (.operation .modulo)
  | _ => none

def all : List BinaryOp :=
  [.or, .and] ++ [.equal, .notEqual, .less, .greater, .lessEqual, .greaterEqual].map .relation ++
    [.add, .subtract, .multiply, .divide, .modulo].map .operation

def atLevel? (l : Nat) (k : Token.Kind) : Option BinaryOp := (ofKind? k).filter (·.level == l)

end BinaryOp

inductive Expr where
  | literal (value : Literal) (location : Location)
  | field (path : List String) (location : Location)
  | call (name : String) (args : List Expr) (location : Location)
  | unary (op : UnaryOp) (operand : Expr) (location : Location)
  | binary (op : BinaryOp) (left right : Expr) (location : Location)
  | conditional (condition yes no : Expr) (location : Location)

namespace Expr

def location : Expr → Location
  | .literal _ l | .field _ l | .call _ _ l | .unary _ _ l | .binary _ _ _ l | .conditional _ _ _ l => l

mutual

def paths : Expr → List String
  | .literal .. => []
  | .field path _ => [Text.dotted path]
  | .call _ args _ => pathsOfAll args
  | .unary _ e _ => e.paths
  | .binary _ l r _ => l.paths ++ r.paths
  | .conditional c y n _ => c.paths ++ y.paths ++ n.paths

def pathsOfAll : List Expr → List String
  | [] => []
  | e :: es => e.paths ++ pathsOfAll es

end

def fieldPaths (e : Expr) : List String := e.paths.eraseDups

end Expr

end RecordLogic
