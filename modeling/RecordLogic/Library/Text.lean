import RecordLogic.Library.Argument
import RecordLogic.Pattern.Known
import RecordLogic.Pattern.Reading

/-!
# Functions of text

Lengths and joins, comparisons with and without case, and tests of what a text looks like. Without case
two texts are compared in small letters.
-/

namespace RecordLogic.Library

open Text (lower)

def ordinal : Ordering → Value
  | .lt => .int (-1)
  | .eq => .int 0
  | .gt => .int 1

/-- Order in which an absent text comes before all others. -/
def orderOrNull : Option (List Char) → Option (List Char) → Ordering
  | none, none => .eq
  | none, some _ => .lt
  | some _, none => .gt
  | some a, some b => Text.order a b

def compareOrdinal (args : List Value) : Value := ordinal (orderOrNull (text? args 0) (text? args 1))

def compareIgnoringCase (args : List Value) : Value :=
  ordinal (orderOrNull ((text? args 0).map lower) ((text? args 1).map lower))

/-- A test of two texts, false where one is absent. -/
def test (holds : List Char → List Char → Bool) (args : List Value) : Value :=
  match text? args 0, text? args 1 with
  | some a, some b => .bool (holds a b)
  | _, _ => .bool false

/-- The test of the texts in small letters. -/
def lowered (holds : List Char → List Char → Bool) (a b : List Char) : Bool := holds (lower a) (lower b)

def startsWith (whole part : List Char) : Bool := part.isPrefixOf whole

def endsWith (whole part : List Char) : Bool := Text.isEnd part whole

def contains (whole part : List Char) : Bool := Text.isPart part whole

def length (args : List Value) : Value := .int ((text? args 0).getD []).length

def trimmed (args : List Value) : Value :=
  ((text? args 0).map fun cs => .string (String.ofList (Text.trim cs))).getD .null

/-- All the texts among the arguments joined. -/
def joined (args : List Value) : Value := .string (String.join (args.filterMap Value.asString?))

def isBlankOrNull (args : List Value) : Value := .bool (((text? args 0).getD []).all Text.isBlank)

def meets (p : Pattern) (args : List Value) : Value :=
  .bool ((text? args 0).any fun cs => p.isMatch (String.ofList cs))

/-- Whether the text meets a pattern that is itself a text. A text that is no pattern is never met. -/
def meetsGiven (text pattern : List Char) : Bool :=
  (Pattern.read? (String.ofList pattern)).any (·.isMatch (String.ofList text))

def guid (args : List Value) : Value :=
  (((text? args 0).bind fun cs => Guid.read? (Text.trim cs)).map Value.guid).getD .null

def textFunctions : List Signature :=
  let int : ValueType := .number .i32
  let two : List CoarseType := [.string, .string]
  [⟨"Length", [.string], int, length⟩,
    ⟨"Trim", [.string], .string, trimmed⟩,
    ⟨"Concat", two, .string, joined⟩,
    ⟨"Concat", [.string, .string, .string], .string, joined⟩,
    ⟨"CompareOrdinal", two, int, compareOrdinal⟩,
    ⟨"CompareOrdinalIgnoreCase", two, int, compareIgnoringCase⟩,
    ⟨"StartsWith", two, .bool, test startsWith⟩,
    ⟨"StartsWithIgnoreCase", two, .bool, test (lowered startsWith)⟩,
    ⟨"EndsWith", two, .bool, test endsWith⟩,
    ⟨"EndsWithIgnoreCase", two, .bool, test (lowered endsWith)⟩,
    ⟨"Contains", two, .bool, test contains⟩,
    ⟨"ContainsIgnoreCase", two, .bool, test (lowered contains)⟩,
    ⟨"IsNullOrWhiteSpace", [.string], .bool, isBlankOrNull⟩,
    ⟨"IsDigitChain", [.string], .bool, meets .digitChain⟩,
    ⟨"IsNumber", [.string], .bool, meets .number⟩,
    ⟨"IsEmail", [.string], .bool, meets .email⟩,
    ⟨"IsPhone", [.string], .bool, meets .phone⟩,
    ⟨"IsUrl", [.string], .bool, meets .url⟩,
    ⟨"IsRegexMatch", two, .bool, test meetsGiven⟩,
    ⟨"Guid", [.string], .nullable .guid, guid⟩]

end RecordLogic.Library
