import RecordLogic.Json.Basic
import RecordLogic.Text.Letter

/-!
# Json read from text

Every second step takes at least one character, so the length of the text bounds the steps. Arrays and objects
nest up to a limit. Of the digits of a number no more than 64 bits of coefficient count, and the power
of ten is applied in doubles.
-/

namespace RecordLogic.Json

open Number

/-- One more than the depth to which arrays and objects nest. -/
def nestingLimit : Nat := 128

def isBlank (c : Char) : Bool := c == ' ' || c == '\n' || c == '\t' || c == '\r'

def skip (cs : List Char) : List Char := cs.dropWhile isBlank

/-- The coefficient that a run of digits builds onto `n` until 64 bits are full, and the digits left over. -/
def collect (n : Nat) : List Char → Nat × List Char
  | [] => (n, [])
  | c :: cs =>
    let n' := 10 * n + (c.toNat - 48)
    if n' < twoTo 64 then collect n' cs else (n, c :: cs)

/-- A coefficient times a power of ten in doubles. A power too large for a double is no number. -/
def scale (negative : Bool) (n : Nat) (e : Int) : Option Float :=
  let f := ofInt n
  let done (f : Float) : Option Float := if f.isFinite then some (if negative then -f else f) else none
  if 308 < e then (if n = 0 then done f else none)
  else if 0 ≤ e then done (f * ofRatio false (tenTo e.toNat) 1)
  else if -308 ≤ e then done (f / ofRatio false (tenTo (-e).toNat) 1)
  else if -616 ≤ e then done (f / ofRatio false (tenTo 308) 1 / ofRatio false (tenTo (-e - 308).toNat) 1)
  else done 0.0

/-- The power of ten after its mark, if there is one. -/
def power? : List Char → Option (Int × List Char)
  | c :: cs =>
    if c = 'e' ∨ c = 'E' then
      let (negative, cs) := match cs with
        | '-' :: cs => (true, cs)
        | '+' :: cs => (false, cs)
        | cs => (false, cs)
      let ds := cs.takeWhile Text.isDigit
      if ds.isEmpty then none
      else
        let n : Int := ofDigits ds
        some (if negative then -n else n, cs.dropWhile Text.isDigit)
    else some (0, c :: cs)
  | [] => some (0, [])

def hasPower (cs : List Char) : Bool := cs.head? == some 'e' || cs.head? == some 'E'

/-- A number under a sign already read. -/
def magnitude? (negative : Bool) (cs : List Char) : Option (Json × List Char) := do
  let ds := cs.takeWhile Text.isDigit
  let rest := cs.dropWhile Text.isDigit
  if ds.isEmpty ∨ (ds.head? = some '0' ∧ 1 < ds.length) then none
  else
    let (n, excess) := collect 0 ds
    match rest with
    | '.' :: more =>
      let fs := more.takeWhile Text.isDigit
      if fs.isEmpty then none
      else
        let (m, left) := if excess.isEmpty then collect n fs else (n, fs)
        let places : Int := (fs.length - left.length : Nat)
        let (e, rest) ← power? (more.dropWhile Text.isDigit)
        return (.float (← scale negative m (excess.length - places + e)), rest)
    | _ =>
      if hasPower rest ∨ !excess.isEmpty then
        let (e, rest) ← power? rest
        return (.float (← scale negative n (excess.length + e)), rest)
      else if !negative then return (.integer n, rest)
      else if n = 0 ∨ twoTo 63 < n then return (.float (-(ofInt n)), rest)
      else return (.integer (-(n : Int)), rest)

def number? : List Char → Option (Json × List Char)
  | '-' :: cs => magnitude? true cs
  | cs => magnitude? false cs

def hexValue? (c : Char) : Option Nat :=
  if '0' ≤ c ∧ c ≤ '9' then some (c.toNat - 48)
  else if 'a' ≤ c ∧ c ≤ 'f' then some (c.toNat - 87)
  else if 'A' ≤ c ∧ c ≤ 'F' then some (c.toNat - 55)
  else none

/-- Four hexadecimal digits. -/
def unit? : List Char → Option (Nat × List Char)
  | a :: b :: c :: d :: cs => do
    let n := ((← hexValue? a) * 16 + (← hexValue? b)) * 256 + (← hexValue? c) * 16 + (← hexValue? d)
    return (n, cs)
  | _ => none

/-- The character of one escaped unit, or of two that stand for one beyond the first plane. -/
def unitChar? (cs : List Char) : Option (Char × List Char) := do
  let (n, rest) ← unit? cs
  if 0xDC00 ≤ n ∧ n < 0xE000 then none
  else if 0xD800 ≤ n ∧ n < 0xDC00 then
    match rest with
    | '\\' :: 'u' :: rest =>
      let (m, rest) ← unit? rest
      if 0xDC00 ≤ m ∧ m < 0xE000 then
        return (Char.ofNat (0x10000 + (n - 0xD800) * 0x400 + (m - 0xDC00)), rest)
      else none
    | _ => none
  else return (Char.ofNat n, rest)

def simpleEscape? (c : Char) : Option Char :=
  if c = '"' ∨ c = '\\' ∨ c = '/' then some c
  else if c = 'n' then some '\n'
  else if c = 'r' then some '\r'
  else if c = 't' then some '\t'
  else if c = 'b' then some (Char.ofNat 8)
  else if c = 'f' then some (Char.ofNat 12)
  else none

/-- The characters up to the closing quote, those read so far being in reverse. -/
def quoted? (fuel : Nat) (seen : List Char) (cs : List Char) : Option (String × List Char) :=
  match fuel, cs with
  | 0, _ => none
  | _, [] => none
  | fuel + 1, c :: cs =>
    if c = '"' then some (String.ofList seen.reverse, cs)
    else if c.toNat < 32 then none
    else if c = '\\' then
      match cs with
      | 'u' :: cs => (unitChar? cs).bind fun (d, rest) => quoted? fuel (d :: seen) rest
      | e :: cs => (simpleEscape? e).bind fun d => quoted? fuel (d :: seen) cs
      | [] => none
    else quoted? fuel (c :: seen) cs

def string? (cs : List Char) : Option (String × List Char) := quoted? (cs.length + 1) [] cs

def word? (word : String) (value : Json) (cs : List Char) : Option (Json × List Char) :=
  if word.toList.isPrefixOf cs then some (value, cs.drop word.length) else none

mutual

def value? (fuel depth : Nat) (cs : List Char) : Option (Json × List Char) :=
  match fuel with
  | 0 => none
  | fuel + 1 =>
    match skip cs with
    | [] => none
    | '"' :: cs => (string? cs).map fun (s, rest) => (.string s, rest)
    | '[' :: cs =>
      if depth ≤ 1 then none
      else match skip cs with
        | ']' :: rest => some (.array [], rest)
        | cs => items? fuel (depth - 1) [] cs
    | '\x7b' :: cs =>
      if depth ≤ 1 then none
      else match skip cs with
        | '\x7d' :: rest => some (.object [], rest)
        | cs => members? fuel (depth - 1) [] cs
    | 't' :: cs => word? "true" (.bool true) ('t' :: cs)
    | 'f' :: cs => word? "false" (.bool false) ('f' :: cs)
    | 'n' :: cs => word? "null" .null ('n' :: cs)
    | cs => number? cs

def items? (fuel depth : Nat) (seen : List Json) (cs : List Char) : Option (Json × List Char) :=
  match fuel with
  | 0 => none
  | fuel + 1 => do
    let (j, rest) ← value? fuel depth cs
    match skip rest with
    | ',' :: rest => items? fuel depth (j :: seen) rest
    | ']' :: rest => some (.array (j :: seen).reverse, rest)
    | _ => none

def members? (fuel depth : Nat) (seen : List (String × Json)) (cs : List Char) : Option (Json × List Char) :=
  match fuel with
  | 0 => none
  | fuel + 1 =>
    match skip cs with
    | '"' :: cs => do
      let (name, rest) ← string? cs
      match skip rest with
      | ':' :: rest =>
        let (j, rest) ← value? fuel depth rest
        let seen := insert name j seen
        match skip rest with
        | ',' :: rest => members? fuel depth seen rest
        | '\x7d' :: rest => some (.object seen, rest)
        | _ => none
      | _ => none
    | _ => none

end

def read? (text : String) : Option Json :=
  let cs := text.toList
  match value? (2 * cs.length + 2) nestingLimit cs with
  | some (j, rest) => if (skip rest).isEmpty then some j else none
  | none => none

end RecordLogic.Json
