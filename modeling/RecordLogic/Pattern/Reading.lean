import RecordLogic.Pattern.Basic
import RecordLogic.Number.Digits

/-!
# Patterns read from text

Characters, sets in brackets, anchors, groups, alternatives and repetitions, with flags that change how
the rest of a group is read. Whatever refers back to a group or looks around a place is no pattern.
-/

namespace RecordLogic.Pattern

open Text Number

/-- How the rest of a group is read. -/
structure Flags where
  ignoreCase : Bool
  multiLine : Bool
  dotAll : Bool
  verbose : Bool
  swapGreed : Bool
  unicode : Bool
  deriving DecidableEq, Repr

def Flags.plain : Flags := ⟨false, false, false, false, false, true⟩

def Flags.set? (f : Flags) (flag : Char) (on : Bool) : Option Flags :=
  match flag with
  | 'i' => Option.some { f with ignoreCase := on }
  | 'm' => Option.some { f with multiLine := on }
  | 's' => Option.some { f with dotAll := on }
  | 'x' => Option.some { f with verbose := on }
  | 'U' => Option.some { f with swapGreed := on }
  | 'u' => Option.some { f with unicode := on }
  | _ => none

/-- Blanks and comments, which count for nothing in verbose patterns. -/
def skipVerbose : Nat → List Char → List Char
  | 0, cs => cs
  | fuel + 1, cs =>
    match cs with
    | c :: rest =>
      if isBlank c then skipVerbose fuel rest
      else if c = '#' then skipVerbose fuel (rest.dropWhile (· != '\n'))
      else cs
    | [] => []

def skip (f : Flags) (cs : List Char) : List Char := if f.verbose then skipVerbose (cs.length + 1) cs else cs

def hexValue? (c : Char) : Option Nat :=
  if '0' ≤ c ∧ c ≤ '9' then Option.some (c.toNat - 48)
  else if 'a' ≤ c ∧ c ≤ 'f' then Option.some (c.toNat - 87)
  else if 'A' ≤ c ∧ c ≤ 'F' then Option.some (c.toNat - 55)
  else none

def charOfHex? (cs : List Char) : Option Char := do
  if cs.isEmpty then none
  else
    let n ← cs.foldlM (fun n c => (hexValue? c).map (16 * n + ·)) 0
    if n < 0xD800 ∨ (0xDFFF < n ∧ n < 0x110000) then Option.some (Char.ofNat n) else none

/-- A character by its code: so many hexadecimal digits, or any number of them in braces. -/
def coded? (width : Nat) : List Char → Option (Char × List Char)
  | '\x7b' :: cs => do
    let c ← charOfHex? (cs.takeWhile (· != '\x7d'))
    match cs.dropWhile (· != '\x7d') with
    | _ :: rest => Option.some (c, rest)
    | [] => none
  | cs => do
    if cs.length < width then none
    else Option.some ((← charOfHex? (cs.take width)), cs.drop width)

inductive Escape where
  | char (c : Char)
  | set (s : CharSet)
  | anchor (a : Anchor)

/-- The name of a property without the marks that do not count. -/
def plainName (cs : List Char) : List Char :=
  let cs := (cs.filter fun c => !(isBlank c || c == '-' || c == '_')).map Char.toLower
  if "is".toList.isPrefixOf cs then cs.drop 2 else cs

/-- A property by one letter, or by a name in braces that may say which property it is a value of. -/
def property? (cs : List Char) : Option (CharSet × List Char) := do
  match cs with
  | '\x7b' :: cs =>
    let inside := cs.takeWhile (· != '\x7d')
    let value := match inside.dropWhile fun c => !(c == '=' || c == ':') with
      | _ :: value => value
      | [] => inside
    let s ← CharSet.property? (String.ofList (plainName value))
    match cs.dropWhile (· != '\x7d') with
    | _ :: rest => Option.some (s, rest)
    | [] => none
  | c :: rest => Option.some ((← CharSet.property? (String.ofList (plainName [c]))), rest)
  | [] => none

/-- Classes of digits, blanks and word characters; without Unicode only the first 128 characters count, and then
there is no complement. -/
def perl? (f : Flags) (c : Char) : Option CharSet :=
  let positive (all ascii : CharSet) : Option CharSet := Option.some (if f.unicode then all else ascii)
  let negative (all : CharSet) : Option CharSet := if f.unicode then Option.some (.negate all) else none
  match c with
  | 'd' => positive .digit .asciiDigit
  | 's' => positive .blank .asciiBlank
  | 'w' => positive .word .asciiWord
  | 'D' => negative .digit
  | 'S' => negative .blank
  | 'W' => negative .word
  | _ => none

def isAsciiMark (c : Char) : Bool := c.toNat < 128 && !c.isAlphanum && c != '<' && c != '>'

/-- A word border, or the side of one that is named in braces. -/
def border? (cs : List Char) : Option (Anchor × List Char) :=
  match cs with
  | '\x7b' :: inner =>
    let name := inner.takeWhile fun c => c.isAlpha || c == '-'
    let rest := inner.dropWhile fun c => c.isAlpha || c == '-'
    if name.isEmpty then Option.some (.wordBorder, cs)
    else if name = "start".toList ∧ rest.head? = Option.some '\x7d' then Option.some (.wordStart, rest.drop 1)
    else if name = "end".toList ∧ rest.head? = Option.some '\x7d' then Option.some (.wordStop, rest.drop 1)
    else none
  | cs => Option.some (.wordBorder, cs)

def escape? (f : Flags) (cs : List Char) : Option (Escape × List Char) :=
  match cs with
  | [] => none
  | c :: rest =>
    if isAsciiMark c then Option.some (.char c, rest)
    else
      let char (n : Nat) : Option (Escape × List Char) := Option.some (.char (Char.ofNat n), rest)
      let code (width : Nat) : Option (Escape × List Char) :=
        (coded? width rest).map fun (d, rest) => (.char d, rest)
      match c with
      | 'n' => char 10
      | 't' => char 9
      | 'r' => char 13
      | 'a' => char 7
      | 'f' => char 12
      | 'v' => char 11
      | 'x' => code 2
      | 'u' => code 4
      | 'U' => code 8
      | 'A' => Option.some (.anchor .start, rest)
      | 'z' => Option.some (.anchor .stop, rest)
      | 'b' => (border? rest).map fun (a, rest) => (.anchor a, rest)
      | 'B' => Option.some (.anchor .noWordBorder, rest)
      | '<' => Option.some (.anchor .wordStart, rest)
      | '>' => Option.some (.anchor .wordStop, rest)
      | 'p' => (property? rest).map fun (s, rest) => (.set s, rest)
      | 'P' => (property? rest).map fun (s, rest) => (.set (.negate s), rest)
      | c => (perl? f c).map fun s => (.set s, rest)

def foldIf (f : Flags) (s : CharSet) : CharSet := if f.ignoreCase then .fold s else s

/-- A named set in brackets and colons, as in `[:alpha:]`; a caret before the name complements it. -/
def posix? (cs : List Char) : Option (CharSet × List Char) :=
  match cs with
  | '[' :: ':' :: inner =>
    let (negated, inner) := match inner with
      | '^' :: inner => (true, inner)
      | inner => (false, inner)
    match CharSet.posix? (String.ofList (inner.takeWhile Char.isAlpha)), inner.dropWhile Char.isAlpha with
    | Option.some s, ':' :: ']' :: rest => Option.some (if negated then .negate s else s, rest)
    | _, _ => none
  | _ => none

/-- How the next set is joined to those before it. -/
inductive Join where
  | inter
  | diff
  | symmDiff

/-- The sets joined so far, and the union that is being collected. -/
structure Collected where
  joined : Option (CharSet × Join)
  items : List CharSet

def Collected.close (f : Flags) (k : Collected) : CharSet :=
  let last := foldIf f (CharSet.unionOf k.items.reverse)
  match k.joined with
  | none => last
  | Option.some (s, .inter) => .inter s last
  | Option.some (s, .diff) => .diff s last
  | Option.some (s, .symmDiff) => .symmDiff s last

def Collected.add (k : Collected) (s : CharSet) : Collected := { k with items := s :: k.items }

def Collected.join (f : Flags) (k : Collected) (j : Join) : Collected := ⟨Option.some (k.close f, j), []⟩

/-- One character or one set inside brackets. -/
def setItem? (f : Flags) : List Char → Option (Escape × List Char)
  | '\\' :: cs =>
    match escape? f cs with
    | Option.some (.anchor _, _) => none
    | found => found
  | c :: cs => Option.some (.char c, cs)
  | [] => none

/-- One item inside brackets, or a range of characters. -/
def setRange? (f : Flags) (cs : List Char) : Option (CharSet × List Char) := do
  let (first, rest) ← setItem? f cs
  let alone : Option (CharSet × List Char) := match first with
    | .char c => Option.some (.char c, rest)
    | .set s => Option.some (s, rest)
    | .anchor _ => none
  match skip f rest with
  | '-' :: more =>
    match skip f more with
    | ']' :: _ => alone
    | '-' :: _ => alone
    | more =>
      let (last, rest) ← setItem? f more
      match first, last with
      | .char a, .char b => if a ≤ b then Option.some (.between a b, rest) else none
      | _, _ => none
  | _ => alone

/-- The hyphens that open a set stand for themselves, and so does a bracket in the first place. -/
def setStart (f : Flags) : Nat → Collected → List Char → Collected × List Char
  | 0, k, cs => (k, cs)
  | fuel + 1, k, cs =>
    match skip f cs with
    | '-' :: rest => setStart f fuel (k.add (.char '-')) rest
    | ']' :: rest => if k.items.isEmpty then (k.add (.char ']'), rest) else (k, ']' :: rest)
    | cs => (k, cs)

mutual

def bracket? (fuel : Nat) (f : Flags) (cs : List Char) : Option (CharSet × List Char) :=
  match fuel with
  | 0 => none
  | fuel + 1 =>
    let (negated, cs) := match skip f cs with
      | '^' :: cs => (true, cs)
      | cs => (false, cs)
    let (k, cs) := setStart f (cs.length + 1) ⟨none, []⟩ cs
    match bracketItems? fuel f k cs with
    | none => none
    | Option.some (s, rest) =>
      if !negated then Option.some (s, rest)
      else if f.unicode then Option.some (.negate s, rest)
      else none

def bracketItems? (fuel : Nat) (f : Flags) (k : Collected) (cs : List Char) : Option (CharSet × List Char) :=
  match fuel with
  | 0 => none
  | fuel + 1 =>
    match skip f cs with
    | [] => none
    | ']' :: rest => Option.some (k.close f, rest)
    | '&' :: '&' :: rest => bracketItems? fuel f (k.join f .inter) rest
    | '-' :: '-' :: rest => bracketItems? fuel f (k.join f .diff) rest
    | '~' :: '~' :: rest => bracketItems? fuel f (k.join f .symmDiff) rest
    | '[' :: rest =>
      match posix? ('[' :: rest) with
      | Option.some (s, rest) => bracketItems? fuel f (k.add s) rest
      | none =>
        match bracket? fuel f rest with
        | Option.some (s, rest) => bracketItems? fuel f (k.add s) rest
        | none => none
    | cs =>
      match setRange? f cs with
      | Option.some (s, rest) => bracketItems? fuel f (k.add s) rest
      | none => none

end

/-- The flags up to the mark that ends them, each at most once, those behind a hyphen being switched off. -/
def flags? (f : Flags) (seen : List Char) (on : Bool) : List Char → Option (Flags × Bool × List Char)
  | [] => none
  | c :: cs =>
    if c = ':' ∨ c = ')' then
      if seen.head? = Option.some '-' then none else Option.some (f, !seen.isEmpty, c :: cs)
    else if seen.contains c then none
    else if c = '-' then flags? f (c :: seen) false cs
    else match f.set? c on with
      | Option.some f => flags? f (c :: seen) on cs
      | none => none

def groupName? (cs : List Char) : Option (List Char) :=
  let name := cs.takeWhile (· != '>')
  let start (c : Char) : Bool := c == '_' || isLetter c
  let inner (c : Char) : Bool := c == '_' || c == '.' || c == '[' || c == ']' || isAlphanumeric c
  match name.head?, cs.dropWhile (· != '>') with
  | Option.some c, _ :: rest => if start c && name.all inner then Option.some rest else none
  | _, _ => none

def count? (cs : List Char) : Option (Nat × List Char) :=
  let cs := cs.dropWhile isBlank
  let ds := cs.takeWhile isDigit
  let n := ofDigits ds
  if ds.isEmpty ∨ twoTo 32 ≤ n then none else Option.some (n, (cs.dropWhile isDigit).dropWhile isBlank)

def bounds? (cs : List Char) : Option ((Nat × Option Nat) × List Char) := do
  let (least, rest) ← count? cs
  match rest with
  | '\x7d' :: rest => Option.some ((least, Option.some least), rest)
  | ',' :: '\x7d' :: rest => Option.some ((least, none), rest)
  | ',' :: rest =>
    let (most, rest) ← count? rest
    match rest with
    | '\x7d' :: rest => if least ≤ most then Option.some ((least, Option.some most), rest) else none
    | _ => none
  | _ => none

/-- The question mark that only says how eagerly to repeat. -/
def dropEagerness (cs : List Char) : List Char :=
  match cs with
  | '?' :: cs => cs
  | cs => cs

/-- What a group has read: alternatives complete, and the parts of the one being read. A change of flags is a
part that cannot be repeated. -/
structure Branches where
  done : List Pattern
  parts : List (Option Pattern)

namespace Branches

def close (b : Branches) : List Pattern := all (b.parts.reverse.filterMap id) :: b.done

def pattern (b : Branches) : Pattern := either b.close.reverse

def push (b : Branches) (p : Pattern) : Branches := { b with parts := Option.some p :: b.parts }

def repeat? (b : Branches) (least : Nat) (most : Option Nat) : Option Branches :=
  match b.parts with
  | Option.some p :: rest => Option.some { b with parts := Option.some (.times p least most) :: rest }
  | _ => none

end Branches

def anchorOf (f : Flags) (c : Char) : Anchor :=
  if c = '^' then (if f.multiLine then .lineStart else .start)
  else if f.multiLine then .lineStop
  else .stop

/-- The alternatives of a group up to its end, or up to the end of the text outside all groups. -/
def alternatives? (fuel : Nat) (f : Flags) (inGroup : Bool) (b : Branches) (cs : List Char) :
    Option (Pattern × List Char) :=
  match fuel with
  | 0 => none
  | fuel + 1 =>
    let continueWith (b : Option Branches) (rest : List Char) : Option (Pattern × List Char) :=
      match b with
      | Option.some b => alternatives? fuel f inGroup b rest
      | none => none
    let group (inner : Flags) (rest : List Char) : Option (Pattern × List Char) :=
      match alternatives? fuel inner true ⟨[], []⟩ rest with
      | Option.some (p, rest) => alternatives? fuel f inGroup (b.push p) rest
      | none => none
    match skip f cs with
    | [] => if inGroup then none else Option.some (b.pattern, [])
    | ')' :: rest => if inGroup then Option.some (b.pattern, rest) else none
    | '|' :: rest => alternatives? fuel f inGroup ⟨b.close, []⟩ rest
    | '*' :: rest => continueWith (b.repeat? 0 none) (dropEagerness rest)
    | '+' :: rest => continueWith (b.repeat? 1 none) (dropEagerness rest)
    | '?' :: rest => continueWith (b.repeat? 0 (Option.some 1)) (dropEagerness rest)
    | '\x7b' :: rest =>
      match bounds? rest with
      | Option.some ((least, most), rest) => continueWith (b.repeat? least most) (dropEagerness rest)
      | none => none
    | '[' :: rest =>
      match bracket? fuel f rest with
      | Option.some (s, rest) => alternatives? fuel f inGroup (b.push (.set s)) rest
      | none => none
    | '.' :: rest =>
      if f.unicode then
        alternatives? fuel f inGroup (b.push (.set (if f.dotAll then .any else .negate (.char '\n')))) rest
      else none
    | '\\' :: rest =>
      match escape? f rest with
      | Option.some (.char c, rest) => alternatives? fuel f inGroup (b.push (.set (foldIf f (.char c)))) rest
      | Option.some (.set s, rest) => alternatives? fuel f inGroup (b.push (.set (foldIf f s))) rest
      | Option.some (.anchor a, rest) => alternatives? fuel f inGroup (b.push (.anchor a)) rest
      | none => none
    | '(' :: rest =>
      match skip f rest with
      | '?' :: 'P' :: '<' :: rest => (groupName? rest).bind (group f)
      | '?' :: '<' :: rest => (groupName? rest).bind (group f)
      | '?' :: rest =>
        match flags? f [] true rest with
        | Option.some (inner, _, ':' :: rest) => group inner rest
        | Option.some (inner, true, ')' :: rest) =>
          alternatives? fuel inner inGroup { b with parts := none :: b.parts } rest
        | _ => none
      | rest => group f rest
    | c :: rest =>
      if c = '^' ∨ c = '$' then alternatives? fuel f inGroup (b.push (.anchor (anchorOf f c))) rest
      else alternatives? fuel f inGroup (b.push (.set (foldIf f (.char c)))) rest

def read? (s : String) : Option Pattern :=
  let cs := s.toList
  (alternatives? (2 * cs.length + 2) .plain false ⟨[], []⟩ cs).map (·.1)

end RecordLogic.Pattern
