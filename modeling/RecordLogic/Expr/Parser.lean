import RecordLogic.Expr.Scanner
import RecordLogic.Expr.Tree

/-!
# Parsing

From the loosest: conditionals, six levels of binary operators that lean to the left, the two unary
operators, and operands. Nesting is paid from a budget, and what a part of the tree has paid comes back
when the part is complete. Each part takes at least one token.
-/

namespace RecordLogic

namespace Parser

structure Parsed (α : Type) (tokens : List Token) where
  value : α
  rest : List Token
  shorter : rest.length < tokens.length

theorem Parsed.tail_shorter {tokens ts : List Token} {t : Token} (p : Parsed α tokens) (h : p.rest = t :: ts) :
    ts.length < tokens.length := by
  have := p.shorter
  simp only [h, List.length_cons] at this
  omega

/-- A mistake, and the tokens and the budget that were left when it was met. -/
structure Failure where
  mistake : Mistake
  rest : List Token
  budget : Nat

/-- Where the next token stands; after the last one, where the expression ends. -/
def here (stop : Location) (tokens : List Token) : Location := (tokens.head?.map Token.location).getD stop

def unexpected (stop : Location) (expected : Expected) (budget : Nat) (tokens : List Token) : Failure :=
  match tokens with
  | [] => ⟨⟨.unexpectedEnd expected, stop⟩, tokens, budget⟩
  | t :: _ => ⟨⟨.unexpectedToken expected t.raw, t.location⟩, tokens, budget⟩

/-- The budget was spent when one level more was asked for. -/
def tooDeep (stop : Location) (tokens : List Token) : Failure :=
  ⟨⟨.nestedTooDeep, here stop tokens⟩, tokens, 0⟩

/-- The tokens after one of this kind. -/
def expect (stop : Location) (kind : Token.Kind) (budget : Nat) (tokens : List Token) :
    Except Failure (Parsed Unit tokens) :=
  match tokens with
  | t :: ts => if t.kind = kind then .ok ⟨(), ts, Nat.lt_succ_self _⟩
    else .error (unexpected stop (.kind kind) budget (t :: ts))
  | [] => .error (unexpected stop (.kind kind) budget [])

namespace Parsed

variable {α β : Type} {tokens : List Token}

/-- A part that begins with the part `p`. -/
def after (p : Parsed α tokens) (q : Parsed β p.rest) : Parsed β tokens :=
  ⟨q.value, q.rest, Nat.lt_trans q.shorter p.shorter⟩

def map (f : α → β) (p : Parsed α tokens) : Parsed β tokens := ⟨f p.value, p.rest, p.shorter⟩

/-- A part behind one token. -/
def behind {ts : List Token} (t : Token) (p : Parsed α ts) : Parsed α (t :: ts) :=
  ⟨p.value, p.rest, Nat.lt_succ_of_lt p.shorter⟩

end Parsed

def unaryOp? : Token.Kind → Option UnaryOp
  | .not => some .not
  | .minus => some .negate
  | _ => none

mutual

/-- A condition, and after a question mark its two branches. -/
def conditional (stop : Location) (budget : Nat) (tokens : List Token) : Except Failure (Parsed Expr tokens) := do
  let c ← binary stop 6 budget tokens
  match hc : c.rest with
  | [] => return c
  | t :: ts =>
    if t.kind = .question then
      match budget with
      | 0 => throw (tooDeep stop ts)
      | budget + 1 =>
        have h₁ := c.tail_shorter hc
        let y ← conditional stop budget ts
        let colon ← expect stop .colon budget y.rest
        have h₂ : colon.rest.length < tokens.length :=
          Nat.lt_trans colon.shorter (Nat.lt_trans y.shorter h₁)
        let n ← conditional stop budget colon.rest
        return ⟨.conditional c.value y.value n.value t.location, n.rest, Nat.lt_trans n.shorter h₂⟩
    else return c
termination_by (tokens.length, 10)

/-- An operand of the level above, followed by operators of the level at `6 - rank` and their operands. -/
def binary (stop : Location) (rank budget : Nat) (tokens : List Token) : Except Failure (Parsed Expr tokens) :=
  match rank with
  | 0 => unary stop budget tokens
  | rank + 1 => do
    let left ← binary stop rank budget tokens
    have := left.shorter
    let all ← chain stop rank budget left.value left.rest
    return ⟨all.1, all.2.1, Nat.lt_of_le_of_lt all.2.2 left.shorter⟩
termination_by (tokens.length, rank + 2)

/-- Operators of one level, each taking the tree so far as its left operand. -/
def chain (stop : Location) (rank budget : Nat) (left : Expr) (tokens : List Token) :
    Except Failure (Expr × { rest : List Token // rest.length ≤ tokens.length }) :=
  match tokens with
  | [] => .ok (left, ⟨[], Nat.le_refl _⟩)
  | t :: ts =>
    match BinaryOp.atLevel? (5 - rank) t.kind with
    | none => .ok (left, ⟨t :: ts, Nat.le_refl _⟩)
    | some op =>
      match budget with
      | 0 => .error (tooDeep stop ts)
      | budget + 1 => do
        let right ← binary stop rank budget ts
        have := Nat.lt_succ_of_lt right.shorter
        let all ← chain stop rank budget (.binary op left right.value t.location) right.rest
        return (all.1, ⟨all.2.1, Nat.le_of_lt (Nat.lt_of_le_of_lt all.2.2 (Nat.lt_succ_of_lt right.shorter))⟩)
termination_by (tokens.length, rank + 3)

def unary (stop : Location) (budget : Nat) (tokens : List Token) : Except Failure (Parsed Expr tokens) :=
  match tokens with
  | [] => .error (unexpected stop .operand budget [])
  | t :: ts =>
    match unaryOp? t.kind with
    | none => operand stop budget (t :: ts)
    | some op =>
      match budget with
      | 0 => .error (tooDeep stop ts)
      | budget + 1 => do
        let e ← unary stop budget ts
        return ⟨.unary op e.value t.location, e.rest, Nat.lt_succ_of_lt e.shorter⟩
termination_by (tokens.length, 1)

/-- A literal, a field, a call, or an expression in parentheses. -/
def operand (stop : Location) (budget : Nat) (tokens : List Token) : Except Failure (Parsed Expr tokens) :=
  match tokens with
  | [] => .error (unexpected stop .operand budget [])
  | t :: ts =>
    match t.kind with
    | .bool | .number | .string | .null =>
      .ok ⟨.literal (t.literal.getD .null) t.location, ts, Nat.lt_succ_self _⟩
    | .name => .ok ⟨.field (Text.segments t.raw) t.location, ts, Nat.lt_succ_self _⟩
    | .function => do
      let opened ← expect stop .openParen budget ts
      match budget with
      | 0 => throw (tooDeep stop opened.rest)
      | budget + 1 =>
        have := opened.shorter
        let args ← arguments stop budget opened.rest
        return ⟨.call t.raw args.value t.location, args.rest,
          Nat.lt_succ_of_lt (Nat.lt_trans args.shorter opened.shorter)⟩
    | .openParen =>
      match budget with
      | 0 => .error (tooDeep stop ts)
      | budget + 1 => do
        let e ← conditional stop budget ts
        let closed ← expect stop .closeParen budget e.rest
        return ⟨e.value, closed.rest, Nat.lt_succ_of_lt (Nat.lt_trans closed.shorter e.shorter)⟩
    | _ => .error (unexpected stop .operand budget (t :: ts))
termination_by (tokens.length, 0)

/-- Arguments between commas, if any, and the parenthesis that closes them. -/
def arguments (stop : Location) (budget : Nat) (tokens : List Token) :
    Except Failure (Parsed (List Expr) tokens) :=
  match tokens with
  | t :: ts =>
    if t.kind = .closeParen then .ok ⟨[], ts, Nat.lt_succ_self _⟩ else moreArguments stop budget (t :: ts)
  | [] => moreArguments stop budget []
termination_by (tokens.length, 12)

def moreArguments (stop : Location) (budget : Nat) (tokens : List Token) :
    Except Failure (Parsed (List Expr) tokens) := do
  let e ← conditional stop budget tokens
  match he : e.rest with
  | t :: ts =>
    have : ts.length < tokens.length := by
      have := e.shorter; simp only [he, List.length_cons] at this; omega
    if t.kind = .comma then
      let more ← moreArguments stop budget ts
      return ⟨e.value :: more.value, more.rest, Nat.lt_trans more.shorter this⟩
    else if t.kind = .closeParen then return ⟨[e.value], ts, this⟩
    else throw (unexpected stop .nextArgument budget e.rest)
  | [] => throw (unexpected stop .nextArgument budget e.rest)
termination_by (tokens.length, 11)

end

end Parser

/-- A parser over tokens before the end of an expression, with the nesting that it may still spend. -/
structure Parser where
  source : String
  tokens : List Token
  stop : Location
  budget : Nat

namespace Parser

/-- A parser over tokens that were taken from `source`. They end at the first mark of the end, or else where
the source does. -/
def ofTokens (tokens : List Token) (source : String) : Parser :=
  let ends := (tokens.find? (·.kind = .stop)).map Token.location
  ⟨source, tokens.takeWhile (·.kind ≠ .stop), ends.getD (.endOf source), nestingLimit⟩

/-- Reads one expression. A mistake leaves the parser where it was met. -/
def expression (p : Parser) : Except Mistake Expr × Parser :=
  match conditional p.stop p.budget p.tokens with
  | .ok e => (.ok e.value, { p with tokens := e.rest })
  | .error f => (.error f.mistake, { p with tokens := f.rest, budget := f.budget })

def whole (p : Parser) : Except Mistake Expr × Parser :=
  match p.expression with
  | (.ok e, q) =>
    if q.tokens.isEmpty then (.ok e, q)
    else (.error (unexpected q.stop (.kind .stop) q.budget q.tokens).mistake, q)
  | failed => failed

end Parser

def parse (source : String) : Except Mistake Expr := do
  let tokens ← tokenize source
  ((Parser.ofTokens tokens source).whole).1

end RecordLogic
