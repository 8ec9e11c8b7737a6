import RecordLogic.Function.Signature

/-!
# Traces

A result together with the calls that were made for it, in their order.
-/

namespace RecordLogic

structure Call where
  signature : Signature
  args : List Value

structure Traced (α : Type) where
  value : α
  calls : List Call

namespace Traced

instance : Monad Traced where
  pure a := ⟨a, []⟩
  bind t f :=
    let u := f t.value
    ⟨u.value, t.calls ++ u.calls⟩

def call (s : Signature) (args : List Value) : Traced Value := ⟨s.result args, [⟨s, args⟩]⟩

end Traced

end RecordLogic
