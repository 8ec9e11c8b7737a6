import RecordLogic.Predicate.Lowering

/-!
# Evaluation, node by node

What each kind of node comes to on a record, given what the nodes below it come to, and the list of all nodes of
a tree.
-/

namespace RecordLogic

namespace Node

variable (r : Record)

def valueOn (n : Node) : Value := (n.eval r).value

@[simp] theorem valueOn_const (v : Value) : (Node.const v).valueOn r = v := rfl

@[simp] theorem valueOn_field (path : String) (steps : List Step) :
    (Node.field path steps).valueOn r = r.follow steps := rfl

theorem value_evalAll (es : List Node) : (evalAll r es).value = es.map (valueOn r) := by
  induction es with
  | nil => rfl
  | cons e es ih =>
    rw [evalAll]
    show e.valueOn r :: (evalAll r es).value = _
    rw [ih, List.map_cons]

@[simp] theorem valueOn_call (s : Signature) (args : List Node) :
    (Node.call s args).valueOn r = s.result (args.map (valueOn r)) := by
  rw [← value_evalAll]
  unfold valueOn
  rw [eval]
  rfl

@[simp] theorem valueOn_not (e : Node) : (Node.not e).valueOn r = (e.valueOn r).complement := rfl

@[simp] theorem valueOn_negate (k : Option NumericKind) (e : Node) :
    (Node.negate k e).valueOn r = (e.valueOn r).negate k := rfl

@[simp] theorem valueOn_convert (k : NumericKind) (e : Node) :
    (Node.convert k e).valueOn r = (e.valueOn r).convert k := rfl

@[simp] theorem valueOn_relate (c : Relation) (a b : Node) :
    (Node.relate c a b).valueOn r = .bool ((a.valueOn r).relate c (b.valueOn r)) := rfl

@[simp] theorem valueOn_operate (o : Operation) (k : NumericKind) (a b : Node) :
    (Node.operate o k a b).valueOn r = (a.valueOn r).operate o k (b.valueOn r) := rfl

@[simp] theorem valueOn_operateOnTimes (o : Operation) (a b : Node) :
    (Node.operateOnTimes o a b).valueOn r = .operateOnTimes o (a.valueOn r) (b.valueOn r) := rfl

@[simp] theorem valueOn_join (a b : Node) :
    (Node.join a b).valueOn r = .string ((a.valueOn r).joinText ++ (b.valueOn r).joinText) := rfl

@[simp] theorem valueOn_and (a b : Node) :
    (Node.and a b).valueOn r = .bool ((a.valueOn r).isTrue && (b.valueOn r).isTrue) := by
  unfold valueOn
  rw [eval]
  by_cases h : (a.eval r).value.isTrue
  · simp [h, bind, pure]
  · simp [h, bind, pure]

@[simp] theorem valueOn_or (a b : Node) :
    (Node.or a b).valueOn r = .bool ((a.valueOn r).isTrue || (b.valueOn r).isTrue) := by
  unfold valueOn
  rw [eval]
  by_cases h : (a.eval r).value.isTrue
  · simp [h, bind, pure]
  · simp [h, bind, pure]

@[simp] theorem valueOn_conditional (c y n : Node) :
    (Node.conditional c y n).valueOn r = if (c.valueOn r).isTrue then y.valueOn r else n.valueOn r := by
  unfold valueOn
  rw [eval]
  by_cases h : (c.eval r).value.isTrue
  · simp [h, bind]
  · simp [h, bind]

@[simp] theorem valueOn_memberName (e : EnumType) (a : Node) :
    (Node.memberName e a).valueOn r = (a.valueOn r).memberName e := rfl

mutual

def parts : Node → List Node
  | .const v => [.const v]
  | .field path steps => [.field path steps]
  | .call s args => .call s args :: partsOfAll args
  | .not e => .not e :: e.parts
  | .negate k e => .negate k e :: e.parts
  | .convert k e => .convert k e :: e.parts
  | .relate c a b => .relate c a b :: (a.parts ++ b.parts)
  | .operate o k a b => .operate o k a b :: (a.parts ++ b.parts)
  | .operateOnTimes o a b => .operateOnTimes o a b :: (a.parts ++ b.parts)
  | .join a b => .join a b :: (a.parts ++ b.parts)
  | .and a b => .and a b :: (a.parts ++ b.parts)
  | .or a b => .or a b :: (a.parts ++ b.parts)
  | .conditional c y n => .conditional c y n :: (c.parts ++ (y.parts ++ n.parts))
  | .memberName e a => .memberName e a :: a.parts

def partsOfAll : List Node → List Node
  | [] => []
  | e :: es => e.parts ++ partsOfAll es

end

theorem mem_partsOfAll {p : Node} {es : List Node} : p ∈ partsOfAll es ↔ ∃ e ∈ es, p ∈ e.parts := by
  induction es with
  | nil => simp [partsOfAll]
  | cons e es ih => simp [partsOfAll, ih]

end Node

mutual

def Expr.parts : Expr → List Expr
  | .literal v l => [.literal v l]
  | .field path l => [.field path l]
  | .call name args l => .call name args l :: Expr.partsOfAll args
  | .unary op e l => .unary op e l :: e.parts
  | .binary op a b l => .binary op a b l :: (a.parts ++ b.parts)
  | .conditional c y n l => .conditional c y n l :: (c.parts ++ (y.parts ++ n.parts))

def Expr.partsOfAll : List Expr → List Expr
  | [] => []
  | e :: es => e.parts ++ Expr.partsOfAll es

end

end RecordLogic
