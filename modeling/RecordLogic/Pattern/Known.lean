import RecordLogic.Pattern.Basic

/-!
# Known patterns

Digit chains, numbers, addresses for mail, telephone numbers and addresses of resources.
-/

namespace RecordLogic.Pattern

def digits : Pattern := some (.set .asciiDigit)

def digitChain : Pattern := whole digits

/-- A power of ten after its mark. -/
def powerOfTen : Pattern := all [.set (.ofText "eE"), optional (.set (.ofText "+-")), digits]

/-- A sign, and digits with a power of ten, or with a point before the last of them and perhaps a power. -/
def number : Pattern :=
  whole <| all [optional (.set (.ofText "+-")), either [
    digits,
    all [digits, powerOfTen],
    all [many (.set .asciiDigit), char '.', digits, optional powerOfTen]]]

/-- A label of a domain: up to 63 letters, digits and hyphens, with no hyphen at either end. -/
def label : Pattern :=
  let inner : CharSet := .union .asciiAlphanumeric (.char '-')
  all [.set .asciiAlphanumeric,
    optional (all [.times (.set inner) 0 (Option.some 61), .set .asciiAlphanumeric])]

def email : Pattern :=
  let mailbox : CharSet := .union .asciiAlphanumeric (.ofText ".!#$%&'*+/=?^_`\x7b|\x7d~-")
  whole <| all [some (.set mailbox), char '@', label, many (all [char '.', label])]

def anyDigits : Pattern := some (.set .digit)

/-- What may stand between groups of digits. -/
def gap : Pattern := optional (.set (.union .blank (.ofText "-.")))

/-- Digits, and perhaps more behind a gap, in parentheses. -/
def parenthesized (before : Pattern) : Pattern :=
  all [char '(', before, anyDigits, optional (all [gap, anyDigits]), char ')']

def phone : Pattern :=
  let space := optional (.set .blank)
  let mark := either [char 'x', all [literal "ext", optional (char '.')]]
  whole <| all [
    optional (all [char '+', space]),
    either [parenthesized (optional (char '+')), anyDigits],
    many (all [gap, either [parenthesized .empty, anyDigits]]),
    optional (all [space, mark, space, anyDigits])]

/-- A letter in either case. -/
def folded (s : String) : Pattern := all (s.toList.map fun c => .set (.fold (.char c)))

def url : Pattern :=
  whole <| all [
    either [all [folded "http", optional (folded "s")], folded "ftp"],
    literal "://",
    .set (.negate (.union .blank (.ofText "/$.?#"))),
    many (.set (.negate .blank))]

end RecordLogic.Pattern
