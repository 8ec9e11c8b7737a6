import RecordLogic.Engine.Cache

/-!
# Engines

A registry, a way of matching names, and the cache of what was compiled with them. Every use gives the
engine as it is afterwards.
-/

namespace RecordLogic

structure Engine where
  registry : Registry
  mode : Text.Case
  cache : Cache

namespace Engine

def start (registry : Registry) (mode : Text.Case) : Engine := ⟨registry, mode, .empty⟩

def compile (g : Engine) (m : Model) (source : String) : Except Error CacheEntry × Engine :=
  let (result, cache) := g.cache.get ⟨m, g.registry, g.mode⟩ source
  (result, { g with cache })

def evaluate (g : Engine) (m : Model) (source : String) (r : Record) : Except Error Bool × Engine :=
  match g.compile m source with
  | (.ok e, g) => (.ok (e.predicate.holds r), g)
  | (.error e, g) => (.error e, g)

end Engine

/-- Types whose values are records of one model. -/
class Modelled (α : Type) where
  model : Model
  values : α → List Value

def Modelled.record {α : Type} [Modelled α] (a : α) : Record := ⟨Modelled.model α, Modelled.values a⟩

namespace Engine

def evaluateOn {α : Type} [Modelled α] (g : Engine) (source : String) (a : α) : Except Error Bool × Engine :=
  g.evaluate (Modelled.model α) source (Modelled.record a)

end Engine

end RecordLogic
