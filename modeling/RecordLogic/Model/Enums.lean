import RecordLogic.Model.Basic

/-!
# Enumerations of a model

The enumerations that fields reach through wrappers, arrays and nested models: each name once, the first
in the order of the fields, each model visited once.
-/

namespace RecordLogic

/-- The enumerations found so far and the identities of the models visited. -/
structure EnumSearch where
  found : List EnumType
  visited : List Nat

namespace EnumSearch

def note (s : EnumSearch) (e : EnumType) : EnumSearch :=
  if s.found.any (·.name == e.name) then s else { s with found := s.found ++ [e] }

mutual

def inType (s : EnumSearch) : ValueType → EnumSearch
  | .enum e => s.note e
  | .array t => s.inType t
  | .nullable t => s.inType t
  | .model m => if s.visited.contains m.id then s else inModel { s with visited := s.visited ++ [m.id] } m
  | _ => s

def inModel (s : EnumSearch) : Model → EnumSearch
  | ⟨_, _, fields⟩ => s.inFields fields

def inFields (s : EnumSearch) : List Field → EnumSearch
  | [] => s
  | f :: fs => (s.inField f).inFields fs

def inField (s : EnumSearch) : Field → EnumSearch
  | ⟨_, t, _⟩ => s.inType t

end

end EnumSearch

def Model.enums (m : Model) : List EnumType := (EnumSearch.inModel ⟨[], [m.id]⟩ m).found

end RecordLogic
