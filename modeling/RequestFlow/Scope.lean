import RequestFlow.OrderedMap

/-!
# The variables of a step

Six layers of variables are visible to a step. A later layer overrides an earlier one; a name
keeps the place where it first came up.
-/

namespace RequestFlow

/-- The layers of variables, from the weakest to the strongest. -/
structure Layers where
  document : TextMap := .empty
  request : TextMap := .empty
  environment : TextMap := .empty
  workflow : TextMap := .empty
  step : TextMap := .empty
  loop : TextMap := .empty

namespace Layers

/-- The layers as a list. -/
def toList (layers : Layers) : List TextMap :=
  [layers.document, layers.request, layers.environment, layers.workflow, layers.step, layers.loop]

@[simp] theorem toList_mk (document request environment workflow step loop : TextMap) :
    (Layers.mk document request environment workflow step loop).toList =
      [document, request, environment, workflow, step, loop] := rfl

/-- All layers as one map. -/
def merge (layers : Layers) : TextMap := layers.toList.foldl .overlay .empty

end Layers

end RequestFlow
