import RecordLogic.Text.Letter
import RecordLogic.Text.Category

/-!
# Sets of characters

Ranges and runs, and what set operations and case folding make of them.
-/

namespace RecordLogic

open Text

inductive CharSet where
  | range (first last : Nat)
  | runs (borders : List Nat)
  | union (a b : CharSet)
  | inter (a b : CharSet)
  | diff (a b : CharSet)
  | symmDiff (a b : CharSet)
  | negate (a : CharSet)
  | fold (a : CharSet)

namespace CharSet

/-- All characters that agree with `n` up to case, `n` among them. -/
def caseVariants (n : Nat) : List Nat :=
  let f := Shift.apply Shift.folding n
  n :: f :: Shift.sources Shift.folding f

def mem : CharSet → Nat → Bool
  | .range first last, n => first ≤ n && n ≤ last
  | .runs borders, n => inRuns borders n
  | .union a b, n => a.mem n || b.mem n
  | .inter a b, n => a.mem n && b.mem n
  | .diff a b, n => a.mem n && !b.mem n
  | .symmDiff a b, n => a.mem n != b.mem n
  | .negate a, n => !a.mem n
  | .fold a, n => (caseVariants n).any a.mem

def none : CharSet := .runs []

def char (c : Char) : CharSet := .range c.toNat c.toNat

def between (a b : Char) : CharSet := .range a.toNat b.toNat

def unionOf : List CharSet → CharSet
  | [] => none
  | [s] => s
  | s :: ss => .union s (unionOf ss)

def ofText (s : String) : CharSet := unionOf (s.toList.map char)

def asciiDigit : CharSet := between '0' '9'

def asciiLower : CharSet := between 'a' 'z'

def asciiUpper : CharSet := between 'A' 'Z'

def asciiLetter : CharSet := .union asciiUpper asciiLower

def asciiAlphanumeric : CharSet := .union asciiDigit asciiLetter

def asciiWord : CharSet := .union asciiAlphanumeric (char '_')

/-- The blanks among the first 128 characters. -/
def asciiBlank : CharSet := .union (.range 9 13) (char ' ')

def digit : CharSet := .runs Category.decimalDigit

def blank : CharSet :=
  unionOf [.range 9 13, .range 32 32, .range 133 133, .range 160 160, .range 5760 5760, .range 8192 8202,
    .range 8232 8233, .range 8239 8239, .range 8287 8287, .range 12288 12288]

/-- Letters, marks, digits, joining punctuation and joiners. -/
def word : CharSet :=
  unionOf [.runs Border.alphabetic, .runs Category.mark, .runs Category.decimalDigit, .runs Category.connector,
    .runs Category.joiner]

def any : CharSet := .range 0 0x10FFFF

/-- Names of sets in brackets and colons. -/
def posix? (name : String) : Option CharSet :=
  match name with
  | "alnum" => some asciiAlphanumeric
  | "alpha" => some asciiLetter
  | "ascii" => some (.range 0 127)
  | "blank" => some (ofText "\t ")
  | "cntrl" => some (.union (.range 0 31) (.range 127 127))
  | "digit" => some asciiDigit
  | "graph" => some (between '!' '~')
  | "lower" => some asciiLower
  | "print" => some (between ' ' '~')
  | "punct" => some (unionOf [between '!' '/', between ':' '@', between '[' (Char.ofNat 96), .range 123 126])
  | "space" => some asciiBlank
  | "upper" => some asciiUpper
  | "word" => some asciiWord
  | "xdigit" => some (unionOf [asciiDigit, between 'A' 'F', between 'a' 'f'])
  | _ => .none

/-- Names of properties, in small letters and without blanks, hyphens and underscores. -/
def property? (name : String) : Option CharSet :=
  match name with
  | "l" | "letter" => some (.runs Category.letter)
  | "lu" | "uppercaseletter" => some (.runs Category.upper)
  | "ll" | "lowercaseletter" => some (.runs Category.lower)
  | "m" | "mark" | "combiningmark" => some (.runs Category.mark)
  | "n" | "number" => some (.runs Category.number)
  | "nd" | "decimalnumber" | "digit" => some digit
  | "p" | "punctuation" | "punct" => some (.runs Category.punctuation)
  | "pc" | "connectorpunctuation" => some (.runs Category.connector)
  | "s" | "symbol" => some (.runs Category.symbol)
  | "z" | "separator" => some (.runs Category.separator)
  | "cc" | "control" | "cntrl" => some (.runs Category.control)
  | "alphabetic" | "alpha" => some (.runs Border.alphabetic)
  | "cased" => some (.runs Border.cased)
  | "whitespace" | "wspace" | "space" => some blank
  | "any" => some any
  | "ascii" => some (.range 0 127)
  | "latin" | "latn" => some (.runs Category.latin)
  | "greek" | "grek" => some (.runs Category.greek)
  | "cyrillic" | "cyrl" => some (.runs Category.cyrillic)
  | "han" | "hani" => some (.runs Category.han)
  | _ => .none

end CharSet

end RecordLogic
