import RequestFlow.Expression.Value
import RequestFlow.Expression.Basic
import RequestFlow.Workflow.Basic

/-!
# Choosing a branch

The first branch that applies is taken: of a conditional step the first whose condition is true,
of a switch step the first whose value equals that of the subject. The branch for everything else
is taken when none applies. Nothing is evaluated beyond the branch that decides.

The choice is written over any monad, so that an evaluator can be put in whose calls are seen.

* `ConditionalStep.chooseM`, `SwitchStep.chooseM`: the choice with an evaluator in a monad;
* `ConditionalStep.choose`, `SwitchStep.choose`: the choice with the values of expressions.
-/

namespace RequestFlow

/-- What choosing a branch comes to. -/
inductive Choice where
  | branch (label : String) (action : Action)
  /-- No branch applies. -/
  | nothing
  /-- An expression has no value. -/
  | failed (message : String)
deriving DecidableEq, Repr

namespace Choice

/-- The branch for everything else. -/
def otherwise (label : String) : Option Action → Choice
  | none => nothing
  | some action => branch label action

/-- The choice where an expression of a directive has no value. -/
def unevaluated (directive expression : String) (error : EvalError) : Choice :=
  failed (directive ++ " `" ++ expression ++ "`: " ++ error.message)

end Choice

section

variable {m : Type → Type} [Monad m]

/-- The choice among the alternatives of a conditional step, the first with the given number. -/
def chooseAlternative (holds : String → m (Except EvalError Bool)) (otherwise : Option Action) :
    Nat → List ConditionalBranch → m Choice
  | _, [] => pure (.otherwise "else" otherwise)
  | number, branch :: rest => do
    match ← holds branch.condition with
    | .ok true => pure (.branch ("elif " ++ toString number) branch.action)
    | .ok false => chooseAlternative holds otherwise (number + 1) rest
    | .error e => pure (.unevaluated "@elif condition" branch.condition e)

/-- The branch that a conditional step takes. -/
def ConditionalStep.chooseM (step : ConditionalStep)
    (holds : String → m (Except EvalError Bool)) : m Choice :=
  match step.primary with
  | none => chooseAlternative holds step.otherwise 1 step.alternatives
  | some primary => do
    match ← holds primary.condition with
    | .ok true => pure (.branch "then" primary.action)
    | .ok false => chooseAlternative holds step.otherwise 1 step.alternatives
    | .error e => pure (.unevaluated "@if condition" primary.condition e)

/-- The choice among the cases of a switch step. -/
def chooseCase (eval : String → m (Except EvalError Json)) (otherwise : Option Action)
    (subject : Json) : List CaseBranch → m Choice
  | [] => pure (.otherwise "default" otherwise)
  | branch :: rest => do
    match ← eval branch.value with
    | .error e => pure (.unevaluated "@case" branch.value e)
    | .ok candidate =>
      if subject.same candidate then
        pure (.branch ("case " ++ Text.trimmed branch.value) branch.action)
      else chooseCase eval otherwise subject rest

/-- The branch that a switch step takes. -/
def SwitchStep.chooseM (step : SwitchStep) (eval : String → m (Except EvalError Json)) :
    m Choice := do
  match ← eval step.subject with
  | .error e => pure (.unevaluated "@switch" step.subject e)
  | .ok subject => chooseCase eval step.otherwise subject step.cases

end

/-- The branch that a conditional step takes where its conditions are known. -/
def ConditionalStep.choose (step : ConditionalStep) (holds : String → Except EvalError Bool) :
    Choice :=
  Id.run (step.chooseM fun text => pure (holds text))

/-- The branch that a switch step takes where the values of its expressions are known. -/
def SwitchStep.choose (step : SwitchStep) (eval : String → Except EvalError Json) : Choice :=
  Id.run (step.chooseM fun text => pure (eval text))

end RequestFlow
