import RecordLogic.Text.Split

/-!
# Tokens

Where a character stands, what kinds of words an expression has, and the literals they carry.
-/

namespace RecordLogic

/-- Line and column, both counted from 1. -/
structure Location where
  line : Nat
  column : Nat
  deriving DecidableEq, Repr

namespace Location

def start : Location := ⟨1, 1⟩

def step (l : Location) (c : Char) : Location :=
  if c = '\n' then ⟨l.line + 1, 1⟩ else ⟨l.line, l.column + 1⟩

/-- Where one stands after the characters. -/
def past (l : Location) (cs : List Char) : Location := cs.foldl step l

theorem past_append (l : Location) (as bs : List Char) : l.past (as ++ bs) = (l.past as).past bs :=
  List.foldl_append

/-- Where a text ends: its line breaks counted, and the characters of its last line. -/
def endOf (source : String) : Location :=
  ⟨source.toList.count '\n' + 1, ((Text.split '\n' source).getLast?.getD "").length + 1⟩

def text (l : Location) : String := s!"({l.line}, {l.column})"

end Location

/-- A literal. A number keeps its digits, since a decimal that it meets may need all of them. -/
inductive Literal where
  | bool (b : Bool)
  | number (value : Float) (raw : String)
  | string (s : String)
  | null

/-- Numbers without a fraction and without a power of ten. -/
def Literal.isIntegral : Literal → Bool
  | .number _ raw => raw.toList.all Text.isDigit
  | _ => false

inductive Token.Kind where
  | bool | number | string | null
  | name | function
  | and | or | not
  | equal | notEqual | less | lessEqual | greater | greaterEqual
  | plus | minus | star | slash | percent
  | question | colon
  | openParen | closeParen | comma
  | stop
  deriving DecidableEq, Repr

namespace Token.Kind

def label : Kind → String
  | .bool => "bool"
  | .number => "number"
  | .string => "string"
  | .null => "\"null\""
  | .name => "property"
  | .function => "func"
  | .and => "\"&&\""
  | .or => "\"||\""
  | .not => "\"!\""
  | .equal => "\"==\""
  | .notEqual => "\"!=\""
  | .less => "\"<\""
  | .lessEqual => "\"<=\""
  | .greater => "\">\""
  | .greaterEqual => "\">=\""
  | .plus => "\"+\""
  | .minus => "\"-\""
  | .star => "\"*\""
  | .slash => "\"/\""
  | .percent => "\"%\""
  | .question => "\"?\""
  | .colon => "\":\""
  | .openParen => "\"(\""
  | .closeParen => "\")\""
  | .comma => "\",\""
  | .stop => "end of expression"

/-- The short name under which a listing of tokens shows the kind. -/
def tag : Kind → String
  | .bool => "Bool"
  | .number => "Number"
  | .string => "String"
  | .null => "Null"
  | .name => "Identifier"
  | .function => "Function"
  | .and => "And"
  | .or => "Or"
  | .not => "Not"
  | .equal => "EqEq"
  | .notEqual => "NotEq"
  | .less => "Lt"
  | .lessEqual => "LtEq"
  | .greater => "Gt"
  | .greaterEqual => "GtEq"
  | .plus => "Plus"
  | .minus => "Minus"
  | .star => "Star"
  | .slash => "Slash"
  | .percent => "Percent"
  | .question => "Question"
  | .colon => "Colon"
  | .openParen => "LParen"
  | .closeParen => "RParen"
  | .comma => "Comma"
  | .stop => "Eof"

def all : List Kind :=
  [.bool, .number, .string, .null, .name, .function, .and, .or, .not, .equal, .notEqual, .less, .lessEqual,
    .greater, .greaterEqual, .plus, .minus, .star, .slash, .percent, .question, .colon, .openParen, .closeParen,
    .comma, .stop]

end Token.Kind

/-- A word of an expression with its text as written. -/
structure Token where
  kind : Token.Kind
  literal : Option Literal
  raw : String
  location : Location

def Token.text (t : Token) : String :=
  let raw := t.raw
  let tag := t.kind.tag
  let line := t.location.line
  let column := t.location.column
  s!"\"{raw}\" {tag} ({line}, {column})"

end RecordLogic
