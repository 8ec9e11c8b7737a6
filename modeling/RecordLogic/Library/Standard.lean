import RecordLogic.Library.Collection
import RecordLogic.Library.Text
import RecordLogic.Library.Time
import RecordLogic.Function.Registry

/-!
# The standard library

The functions that every registry has unless it starts empty. Of two functions `Length` the one of texts
comes first, so that it is the one that null goes to.
-/

namespace RecordLogic

/-- The functions of the standard library while the clock shows `now`. -/
def Registry.standard (now : DateTime) : Registry :=
  ⟨Library.timeFunctions now ++ Library.textFunctions ++ Library.collectionFunctions⟩

end RecordLogic
