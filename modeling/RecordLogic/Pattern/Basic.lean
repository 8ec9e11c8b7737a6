import RecordLogic.Pattern.CharSet

/-!
# Patterns

A pattern leads from places in a text to places behind them. All places are followed at once, so a
search takes no more steps than there are places and parts.
-/

namespace RecordLogic

/-- What a place itself can be, with no character taken. -/
inductive Anchor where
  | start
  | stop
  | lineStart
  | lineStop
  | wordBorder
  | noWordBorder
  | wordStart
  | wordStop
  deriving DecidableEq, Repr

inductive Pattern where
  | empty
  | set (s : CharSet)
  | anchor (a : Anchor)
  | seq (p q : Pattern)
  | alt (p q : Pattern)
  | times (p : Pattern) (least : Nat) (most : Option Nat)

namespace Anchor

def isWordAt (text : Array Char) (place : Nat) : Bool := text[place]?.any fun c => CharSet.word.mem c.toNat

def isWordBefore (text : Array Char) (place : Nat) : Bool := place != 0 && isWordAt text (place - 1)

def holds (text : Array Char) (place : Nat) : Anchor → Bool
  | .start => place == 0
  | .stop => place == text.size
  | .lineStart => place == 0 || text[place - 1]? == some '\n'
  | .lineStop => place == text.size || text[place]? == some '\n'
  | .wordBorder => isWordBefore text place != isWordAt text place
  | .noWordBorder => isWordBefore text place == isWordAt text place
  | .wordStart => !isWordBefore text place && isWordAt text place
  | .wordStop => isWordBefore text place && !isWordAt text place

end Anchor

namespace Pattern

/-- Two rising lists of places as one. -/
def merge : List Nat → List Nat → List Nat
  | [], bs => bs
  | as, [] => as
  | a :: as, b :: bs =>
    if a < b then a :: merge as (b :: bs)
    else if b < a then b :: merge (a :: as) bs
    else a :: merge as bs

/-- A step taken a number of times, unless the places stop changing first. -/
def repeatStep (step : List Nat → List Nat) : Nat → List Nat → List Nat
  | 0, places => places
  | n + 1, places =>
    let next := step places
    if next = places then places else repeatStep step n next

/-- The places reached by taking a step up to a number of times. -/
def closure (step : List Nat → List Nat) : Nat → List Nat → List Nat
  | 0, places => places
  | n + 1, places =>
    let next := merge places (step places)
    if next = places then places else closure step n next

/-- The places behind the pattern from any of the places before it, both rising. -/
def advance (text : Array Char) : Pattern → List Nat → List Nat
  | .empty, places => places
  | .set s, places => places.filterMap fun i =>
    match text[i]? with
    | some c => if s.mem c.toNat then some (i + 1) else none
    | none => none
  | .anchor a, places => places.filter fun i => a.holds text i
  | .seq p q, places => q.advance text (p.advance text places)
  | .alt p q, places => merge (p.advance text places) (q.advance text places)
  | .times p least most, places =>
    let reached := repeatStep (p.advance text) least places
    closure (p.advance text) (min ((most.map (· - least)).getD (text.size + 1)) (text.size + 1)) reached

/-- Whether the pattern is met anywhere in the text. -/
def isMatch (p : Pattern) (s : String) : Bool :=
  let text := s.toList.toArray
  !(p.advance text (List.range (text.size + 1))).isEmpty

def char (c : Char) : Pattern := .set (.char c)

def all : List Pattern → Pattern
  | [] => .empty
  | [p] => p
  | p :: ps => .seq p (all ps)

def either : List Pattern → Pattern
  | [] => .set .none
  | [p] => p
  | p :: ps => .alt p (either ps)

def literal (s : String) : Pattern := all (s.toList.map char)

def many (p : Pattern) : Pattern := .times p 0 none

def some (p : Pattern) : Pattern := .times p 1 none

def optional (p : Pattern) : Pattern := .times p 0 (Option.some 1)

def whole (p : Pattern) : Pattern := all [.anchor .start, p, .anchor .stop]

end Pattern

end RecordLogic
