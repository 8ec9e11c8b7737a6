import RecordLogic.Number.Shortest

/-!
# Json values

Numbers are integers of 64 bits, signed or not, or finite doubles. The members of an object are in the
order of their names, each name once.
-/

namespace RecordLogic

inductive Json where
  | null
  | bool (b : Bool)
  | integer (n : Int)
  | float (f : Float)
  | string (s : String)
  | array (items : List Json)
  | object (members : List (String × Json))

namespace Json

open Number

/-- A member under a name; a name that is there already gets the new value. -/
def insert (name : String) (value : Json) : List (String × Json) → List (String × Json)
  | [] => [(name, value)]
  | (n, v) :: rest =>
    if name = n then (n, value) :: rest
    else if name < n then (name, value) :: (n, v) :: rest
    else (n, v) :: insert name value rest

def find? (name : String) (members : List (String × Json)) : Option Json :=
  (members.find? (·.1 == name)).map (·.2)

def get? (j : Json) (name : String) : Option Json :=
  match j with
  | .object members => find? name members
  | _ => none

def asString? : Json → Option String
  | .string s => some s
  | _ => none

def asBool? : Json → Option Bool
  | .bool b => some b
  | _ => none

def asArray? : Json → Option (List Json)
  | .array items => some items
  | _ => none

def asObject? : Json → Option (List (String × Json))
  | .object members => some members
  | _ => none

/-- An integer that 64 bits with a sign hold. -/
def asInt64? : Json → Option Int
  | .integer n => Number.int64? n
  | _ => none

/-- Doubles between a hundred-thousandth and ten thousand million million are written with all digits in
place and at least one behind the point, all others with a power of ten. -/
def floatText (f : Float) : List Char :=
  match Reading.of f with
  | .finite negative 0 _ => signed negative ['0', '.', '0']
  | .finite negative m e =>
    let x := shortest .even m e
    let power : Int := x.exponent + (digits x.digits).length - 1
    signed negative <|
      if power < -5 ∨ 15 < power then x.scientific
      else if 0 ≤ x.exponent then x.positional ++ ['.', '0']
      else x.positional
  | _ => "null".toList

def hexDigit (n : Nat) : Char := if n < 10 then Char.ofNat (48 + n) else Char.ofNat (87 + n)

/-- A character inside quotes: quotes, backslashes and control characters are escaped. -/
def escaped (c : Char) : List Char :=
  if c = '"' then ['\\', '"']
  else if c = '\\' then ['\\', '\\']
  else if c = '\n' then ['\\', 'n']
  else if c = '\r' then ['\\', 'r']
  else if c = '\t' then ['\\', 't']
  else if c.toNat = 8 then ['\\', 'b']
  else if c.toNat = 12 then ['\\', 'f']
  else if c.toNat < 32 then ['\\', 'u', '0', '0', hexDigit (c.toNat / 16), hexDigit (c.toNat % 16)]
  else [c]

def quoted (s : String) : List Char := '"' :: s.toList.flatMap escaped ++ ['"']

mutual

def chars : Json → List Char
  | .null => "null".toList
  | .bool b => (if b then "true" else "false").toList
  | .integer n => signed (n < 0) (digits n.natAbs)
  | .float f => floatText f
  | .string s => quoted s
  | .array items => '[' :: itemChars items ++ [']']
  | .object members => '\x7b' :: memberChars members ++ ['\x7d']

def itemChars : List Json → List Char
  | [] => []
  | [j] => j.chars
  | j :: js => j.chars ++ ',' :: itemChars js

def memberChars : List (String × Json) → List Char
  | [] => []
  | [(name, j)] => quoted name ++ ':' :: j.chars
  | (name, j) :: rest => quoted name ++ ':' :: j.chars ++ ',' :: memberChars rest

end

def text (j : Json) : String := String.ofList j.chars

end Json

end RecordLogic
