import RecordLogic.Function.Signature
import RecordLogic.Error

/-!
# Registries

The functions that expressions may call, in the order in which they were added. No two have the same name,
whatever its case, and the same parameters.
-/

namespace RecordLogic

/-- Whether two functions could not be told apart by a call. -/
def Signature.clashes (s t : Signature) : Bool := Text.sameLetters s.name t.name && s.params == t.params

structure Registry where
  signatures : List Signature

namespace Registry

def empty : Registry := ⟨[]⟩

/-- One more function, behind the others: the registry that is left, and the error if it was refused. -/
def push (r : Registry) (s : Signature) : Registry × Option Error :=
  if r.signatures.any (·.clashes s) then (r, some (.duplicateSignature s.name s.params))
  else (⟨r.signatures ++ [s]⟩, none)

/-- The functions one by one, up to the first that is refused. -/
def pushAll (r : Registry) : List Signature → Registry × Option Error
  | [] => (r, none)
  | s :: rest =>
    match r.push s with
    | (next, none) => next.pushAll rest
    | refused => refused

/-- These functions in the place of all others. They are gathered in a registry of their own. -/
def replace (r : Registry) (signatures : List Signature) : Registry × Option Error :=
  match empty.pushAll signatures with
  | (replacement, none) => (replacement, none)
  | (_, refused) => (r, refused)

/-- The registry with one more function, unless it is refused. -/
def add (r : Registry) (s : Signature) : Except Error Registry :=
  match r.push s with
  | (next, none) => .ok next
  | (_, some e) => .error e

def overloads (r : Registry) (mode : Text.Case) (name : String) : List Signature :=
  r.signatures.filter fun s => mode.agree s.name name

/-- The first function of the name that accepts the arguments. -/
def resolve? (r : Registry) (mode : Text.Case) (name : String) (args : List (Option CoarseType)) :
    Option Signature :=
  (r.overloads mode name).find? (·.accepts args)

/-- One line for each function, in the order of their texts. -/
def listing (r : Registry) : List String := (r.signatures.map Signature.text).mergeSort (· ≤ ·)

/-- A change that is asked for: one more function, or these functions in the place of all others. -/
inductive Change where
  | add (s : Signature)
  | replace (signatures : List Signature)

/-- The registry that a change leaves, and the error if it failed. -/
def change (r : Registry) : Change → Registry × Option Error
  | .add s => r.push s
  | .replace signatures => r.replace signatures

end Registry

end RecordLogic
