import RecordLogic.Expr.Parser

/-!
# The grammar of expressions

Which tokens form which tree, told without a parser: conditionals, six ranks of binary operators that lean to
the left, signs, operands. Each phrase carries the nesting that it needs.
-/

namespace RecordLogic

namespace Grammar

/-- The binary operators by rank, the tightest at 1. -/
inductive Operator : Nat → Token.Kind → BinaryOp → Prop
  | multiply : Operator 1 .star (.operation .multiply)
  | divide : Operator 1 .slash (.operation .divide)
  | modulo : Operator 1 .percent (.operation .modulo)
  | add : Operator 2 .plus (.operation .add)
  | subtract : Operator 2 .minus (.operation .subtract)
  | less : Operator 3 .less (.relation .less)
  | greater : Operator 3 .greater (.relation .greater)
  | lessEqual : Operator 3 .lessEqual (.relation .lessEqual)
  | greaterEqual : Operator 3 .greaterEqual (.relation .greaterEqual)
  | equal : Operator 4 .equal (.relation .equal)
  | notEqual : Operator 4 .notEqual (.relation .notEqual)
  | and : Operator 5 .and .and
  | or : Operator 6 .or .or

inductive Sign : Token.Kind → UnaryOp → Prop
  | not : Sign .not .not
  | minus : Sign .minus .negate

inductive IsLiteral : Token.Kind → Prop
  | bool : IsLiteral .bool
  | number : IsLiteral .number
  | string : IsLiteral .string
  | null : IsLiteral .null

mutual

inductive Operand : List Token → Expr → Nat → Prop
  | literal {t : Token} : IsLiteral t.kind → Operand [t] (.literal (t.literal.getD .null) t.location) 0
  | field {t : Token} : t.kind = .name → Operand [t] (.field (Text.segments t.raw) t.location) 0
  | call {f o c : Token} : f.kind = .function → o.kind = .openParen → c.kind = .closeParen →
      Operand [f, o, c] (.call f.raw [] f.location) 1
  | callWith {f o c : Token} {ts : List Token} {es : List Expr} {n : Nat} : f.kind = .function →
      o.kind = .openParen → Arguments ts es n → c.kind = .closeParen →
      Operand (f :: o :: (ts ++ [c])) (.call f.raw es f.location) (n + 1)
  | parens {o c : Token} {ts : List Token} {e : Expr} {n : Nat} : o.kind = .openParen → Conditional ts e n →
      c.kind = .closeParen → Operand (o :: (ts ++ [c])) e (n + 1)

inductive Unary : List Token → Expr → Nat → Prop
  | operand {ts : List Token} {e : Expr} {n : Nat} : Operand ts e n → Unary ts e n
  | signed {t : Token} {op : UnaryOp} {ts : List Token} {e : Expr} {n : Nat} : Sign t.kind op → Unary ts e n →
      Unary (t :: ts) (.unary op e t.location) (n + 1)

/-- `Chain rank ts e n k`: a phrase of `k` operators of the rank with operands of the rank below. The operand
behind the `k`-th operator is `k` levels deeper. -/
inductive Chain : Nat → List Token → Expr → Nat → Nat → Prop
  | unary {ts : List Token} {e : Expr} {n : Nat} : Unary ts e n → Chain 0 ts e n 0
  | operand {rank : Nat} {ts : List Token} {e : Expr} {n k : Nat} : Chain rank ts e n k → Chain (rank + 1) ts e n 0
  | operator {rank : Nat} {ts us : List Token} {t : Token} {op : BinaryOp} {a b : Expr} {n m k j : Nat} :
      Chain (rank + 1) ts a n k → Operator (rank + 1) t.kind op → Chain rank us b m j →
      Chain (rank + 1) (ts ++ t :: us) (.binary op a b t.location) (max n (k + 1 + m)) (k + 1)

inductive Conditional : List Token → Expr → Nat → Prop
  | binary {ts : List Token} {e : Expr} {n k : Nat} : Chain 6 ts e n k → Conditional ts e n
  | branches {ts us vs : List Token} {q colon : Token} {c y z : Expr} {n m l k : Nat} : Chain 6 ts c n k →
      q.kind = .question → Conditional us y m → colon.kind = .colon → Conditional vs z l →
      Conditional (ts ++ q :: (us ++ colon :: vs)) (.conditional c y z q.location) (max n (max (1 + m) (1 + l)))

inductive Arguments : List Token → List Expr → Nat → Prop
  | last {ts : List Token} {e : Expr} {n : Nat} : Conditional ts e n → Arguments ts [e] n
  | more {ts us : List Token} {comma : Token} {e : Expr} {es : List Expr} {n m : Nat} : Conditional ts e n →
      comma.kind = .comma → Arguments us es m → Arguments (ts ++ comma :: us) (e :: es) (max n m)

end

end Grammar

end RecordLogic
