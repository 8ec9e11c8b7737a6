import RecordLogic.Predicate.Lowering
import RecordLogic.Expr.Parser

/-!
# Predicates

An expression compiled for the records of one model. Whatever can go wrong has gone wrong by then: a
predicate holds of a record or does not.
-/

namespace RecordLogic

structure Predicate where
  source : String
  model : Model
  root : Node

namespace Predicate

/-- The dotted paths of the fields that the predicate reads, each once. -/
def dependencies (p : Predicate) : List String := p.root.paths.eraseDups

/-- Whether the predicate holds of a record, and the calls made to find out. It holds of no record of another
model, and a null result counts as false. -/
def run (p : Predicate) (r : Record) : Traced Bool :=
  if r.model.id = p.model.id then Value.isTrue <$> p.root.eval r else pure false

def holds (p : Predicate) (r : Record) : Bool := (p.run r).value

end Predicate

namespace Scope

/-- The predicate of a tree that was read from `source`. -/
def compileTree (s : Scope) (e : Expr) (source : String) : Except Error Predicate :=
  match Lowering.lower s e with
  | .error o => .error (.located (o.diagnose source))
  | .ok t =>
    if t.type.isCondition then .ok ⟨source, s.model, t.node⟩
    else .error (.located ⟨.result t.type, e.location, source⟩)

def compile (s : Scope) (source : String) : Except Error Predicate :=
  match parse source with
  | .error m => .error (.located (m.diagnose source))
  | .ok e => s.compileTree e source

end Scope

end RecordLogic
