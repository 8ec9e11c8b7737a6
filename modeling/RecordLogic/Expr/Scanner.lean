import RecordLogic.Expr.Fault
import RecordLogic.Number.Binary

/-!
# Scanning

A scanner stands at a place in a text and takes the next token there. A fault leaves it behind what was
taken until the fault showed.
-/

namespace RecordLogic

open Text Number

/-- A place in a text: what is left, and where that begins. -/
structure Scanner where
  rest : List Char
  location : Location

namespace Scanner

def ofText (s : String) : Scanner := ⟨s.toList, .start⟩

/-- What the characters at a place begin with. -/
inductive Munch where
  | token (kind : Token.Kind) (literal : Option Literal) (raw rest : List Char)
  | fault (fault : Fault) (taken rest : List Char)

/-- The operator or punctuation that begins here, the longer one first. -/
def symbol? : List Char → Option (Token.Kind × List Char × List Char)
  | '&' :: '&' :: r => some (.and, ['&', '&'], r)
  | '|' :: '|' :: r => some (.or, ['|', '|'], r)
  | '=' :: '=' :: r => some (.equal, ['=', '='], r)
  | '!' :: '=' :: r => some (.notEqual, ['!', '='], r)
  | '<' :: '=' :: r => some (.lessEqual, ['<', '='], r)
  | '>' :: '=' :: r => some (.greaterEqual, ['>', '='], r)
  | '<' :: r => some (.less, ['<'], r)
  | '>' :: r => some (.greater, ['>'], r)
  | '!' :: r => some (.not, ['!'], r)
  | '+' :: r => some (.plus, ['+'], r)
  | '-' :: r => some (.minus, ['-'], r)
  | '*' :: r => some (.star, ['*'], r)
  | '/' :: r => some (.slash, ['/'], r)
  | '%' :: r => some (.percent, ['%'], r)
  | '?' :: r => some (.question, ['?'], r)
  | ':' :: r => some (.colon, [':'], r)
  | '(' :: r => some (.openParen, ['('], r)
  | ')' :: r => some (.closeParen, [')'], r)
  | ',' :: r => some (.comma, [','], r)
  | _ => none

def startsName (c : Char) : Bool := isLetter c || c == '_'

def continuesName (c : Char) : Bool := isAlphanumeric c || c == '_'

/-- Segments between dots; a dot belongs to the name only before another segment. -/
def name : List Char → List Char × List Char
  | [] => ([], [])
  | c :: cs =>
    if continuesName c || (c == '.' && cs.head?.any startsName) then
      let (taken, rest) := name cs
      (c :: taken, rest)
    else ([], c :: cs)

def opensCall (cs : List Char) : Bool := (cs.dropWhile isBlank).head? == some '('

/-- A name as a token; three names are literals, and one before a parenthesis is a function. -/
def word (raw rest : List Char) : Munch :=
  if raw = "true".toList then .token .bool (some (.bool true)) raw rest
  else if raw = "false".toList then .token .bool (some (.bool false)) raw rest
  else if raw = "null".toList then .token .null (some .null) raw rest
  else if opensCall rest then .token .function none raw rest
  else .token .name none raw rest

/-- The content up to the next quote, nothing in it being special. -/
def string (cs : List Char) : Munch :=
  let content := cs.takeWhile (· != '\'')
  match cs.dropWhile (· != '\'') with
  | _ :: rest => .token .string (some (.string (String.ofList content))) ('\'' :: content ++ ['\'']) rest
  | [] => .fault .unterminatedString ('\'' :: content) []

/-- A part of a numeral: what is taken, what is left, and whether the digits it needs are there. -/
structure Part where
  taken : List Char
  rest : List Char
  complete : Bool

def digitsAfter (mark : List Char) (cs : List Char) : Part :=
  let ds := cs.takeWhile isDigit
  ⟨mark ++ ds, cs.dropWhile isDigit, !ds.isEmpty⟩

def fraction : List Char → Part
  | '.' :: cs => digitsAfter ['.'] cs
  | cs => ⟨[], cs, true⟩

def isSign (c : Char) : Bool := c == '+' || c == '-'

def power : List Char → Part
  | c :: cs =>
    if c = 'e' ∨ c = 'E' then
      match cs with
      | s :: r => if isSign s then digitsAfter [c, s] r else digitsAfter [c] cs
      | [] => digitsAfter [c] []
    else ⟨[], c :: cs, true⟩
  | [] => ⟨[], [], true⟩

/-- Digits, a fraction and a power of ten, as far as they go. -/
def numeral (cs : List Char) : Part :=
  let whole := cs.takeWhile isDigit
  let f := fraction (cs.dropWhile isDigit)
  if f.complete then
    let p := power f.rest
    ⟨whole ++ f.taken ++ p.taken, p.rest, p.complete⟩
  else ⟨whole ++ f.taken, f.rest, false⟩

def numeralValue (cs : List Char) : Float :=
  let whole := cs.takeWhile isDigit
  let f := fraction (cs.dropWhile isDigit)
  let p := power f.rest
  let places := f.taken.drop 1
  let exponent : Int :=
    match p.taken.drop 1 with
    | '-' :: ds => -(ofDigits ds : Int)
    | '+' :: ds => ofDigits ds
    | ds => ofDigits ds
  ofDecimal false (ofDigits (whole ++ places)) (exponent - places.length)

def number (cs : List Char) : Munch :=
  let n := numeral cs
  let malformed (text : List Char) : Munch := .fault (.malformedNumber (String.ofList text)) n.taken n.rest
  if n.complete then
    match n.rest.head?.filter fun c => continuesName c || c == '.' with
    | some c => malformed (n.taken ++ [c])
    | none =>
      let value := numeralValue n.taken
      let raw := String.ofList n.taken
      if value.isFinite then .token .number (some (.number value raw)) n.taken n.rest
      else .fault (.numberOutOfRange raw) n.taken n.rest
  else malformed n.taken

def munch (c : Char) (cs : List Char) : Munch :=
  match symbol? (c :: cs) with
  | some (kind, raw, rest) => .token kind none raw rest
  | none =>
    if c = '\'' then string cs
    else if isDigit c then number (c :: cs)
    else if startsName c then
      let (raw, rest) := name (c :: cs)
      word raw rest
    else if c = '=' then .fault .loneEquals [] (c :: cs)
    else .fault (.unexpectedCharacter c) [] (c :: cs)

def skipBlanks (s : Scanner) : Scanner :=
  ⟨s.rest.dropWhile isBlank, s.location.past (s.rest.takeWhile isBlank)⟩

/-- The next token, after any blanks. At the end of the text the last token comes again and again. -/
def next (s : Scanner) : Except Mistake Token × Scanner :=
  let s := s.skipBlanks
  match s.rest with
  | [] => (.ok ⟨.stop, none, "", s.location⟩, s)
  | c :: cs =>
    match munch c cs with
    | .token kind literal raw rest =>
      (.ok ⟨kind, literal, String.ofList raw, s.location⟩, ⟨rest, s.location.past raw⟩)
    | .fault fault taken rest => (.error ⟨fault, s.location⟩, ⟨rest, s.location.past taken⟩)

/-- The tokens up to the end. Each takes a character, so as many steps are enough. -/
def tokensWithin : Nat → Scanner → Except Mistake (List Token)
  | 0, _ => .ok []
  | fuel + 1, s =>
    match s.next with
    | (.error m, _) => .error m
    | (.ok t, s') =>
      if t.kind = .stop then .ok [t]
      else match tokensWithin fuel s' with
        | .error m => .error m
        | .ok ts => .ok (t :: ts)

end Scanner

def tokenize (source : String) : Except Mistake (List Token) :=
  (Scanner.ofText source).tokensWithin (source.toList.length + 1)

end RecordLogic
