import RecordLogic.Text.Border
import RecordLogic.Text.Shift

/-!
# Characters

Blanks, letters and digits as names are read, and small forms as texts are compared.
-/

namespace RecordLogic.Text

/-- Membership in the set whose borders rise: each border switches between outside and inside. -/
def inRuns : List Nat → Nat → Bool
  | [], _ => false
  | b :: bs, n => b ≤ n && !inRuns bs n

/-- White space of any script. -/
def isBlank (c : Char) : Bool :=
  inRuns [9, 14, 32, 33, 133, 134, 160, 161, 5760, 5761, 8192, 8203, 8232, 8234, 8239, 8240, 8287, 8288,
    12288, 12289] c.toNat

def isLetter (c : Char) : Bool := inRuns Border.alphabetic c.toNat

def isAlphanumeric (c : Char) : Bool := isLetter c || inRuns Border.numeric c.toNat

def isCased (c : Char) : Bool := inRuns Border.cased c.toNat

def isCaseIgnorable (c : Char) : Bool := inRuns Border.caseIgnorable c.toNat

def isDigit (c : Char) : Bool := '0' ≤ c && c ≤ '9'

/-- Whether the first character that is not passed over has case. -/
def meetsCased (cs : List Char) : Bool :=
  match cs.dropWhile isCaseIgnorable with
  | [] => false
  | c :: _ => isCased c

/-- The small form of one character. A capital sigma that ends a word becomes the final sigma, so the
characters `before` it (nearest first) and `after` it count; one capital has a small form of two characters. -/
def lowerChar (before : List Char) (c : Char) (after : List Char) : List Char :=
  if c.toNat = 0x3A3 then [if meetsCased before && !meetsCased after then 'ς' else 'σ']
  else if c.toNat = 0x130 then ['i', Char.ofNat 0x307]
  else [Char.ofNat (Shift.apply Shift.lowering c.toNat)]

def lowerFrom (before : List Char) : List Char → List Char
  | [] => []
  | c :: cs => lowerChar before c cs ++ lowerFrom (c :: before) cs

/-- The text in small letters. -/
def lower (cs : List Char) : List Char := lowerFrom [] cs

end RecordLogic.Text
