import RequestFlow.Expression.Basic
import RequestFlow.Run.Basic

/-!
# Sending a request

A step's own variables are templates. They are filled in with everything that is in scope without
them, become variables of the run, and stand over the other layers when the request goes out.

* `Run.scope`: the variables in scope;
* `Run.send`: the run with the request out, or the failure of the step.
-/

namespace RequestFlow

/-- How much a notice matters. -/
inductive Level where
  | info | warn | error
deriving DecidableEq, Repr, Inhabited

/-- A level as it is written. -/
def Level.text : Level → String
  | info => "info"
  | warn => "warn"
  | error => "error"

/-- A line that tells how a run is going. -/
structure Notice where
  level : Level
  text : String
deriving DecidableEq, Repr, Inhabited

/-- What a run goes by: the variables and requests of its document, and the expression language. -/
structure Setting where
  vars : TextMap
  requests : RequestIndex
  evaluator : Evaluator

/-- The setting that a document gives. -/
def Document.setting (document : Document) (evaluator : Evaluator) : Setting :=
  ⟨document.vars, document.requestIndex, evaluator⟩

/-- A request on its way out: its texts are templates, to be filled in with the variables. -/
structure Dispatch where
  token : Nat
  request : Request
  vars : TextMap
  environment : String
  /-- The index of the step. -/
  step : Nat
  label : String
deriving DecidableEq

namespace Run

/-- The variables in scope. -/
def scope (run : Run) (setting : Setting) (request : Option Request) (step loop : TextMap) :
    TextMap :=
  Layers.merge {
    document := setting.vars
    request := (request.map Request.vars).getD .empty
    environment := run.environmentVars
    workflow := run.vars
    step, loop }

/-- The place in a loop as it is shown. -/
def progress (position : Position) : String :=
  if position.total = 0 then ""
  else " [" ++ toString position.iteration ++ "/" ++ toString position.total ++ "]"

/-- A step by its number. -/
def stepNumber (run : Run) (index : Nat) : String :=
  "step " ++ toString (index + 1) ++ "/" ++ toString run.stepCount

/-- The notice that a request goes out. -/
def sendNotice (run : Run) (request : Request) (position : Position) : Notice :=
  ⟨.info, run.stepNumber run.index ++ ": " ++ run.stepLabel ++ progress position ++ " -> " ++
    request.method ++ " " ++ request.name⟩

/-- The notice of a failure; other results have none. -/
def resultNotices (run : Run) (result : Result) : List Notice :=
  if result.isFailure then
    [⟨.warn, run.stepNumber result.step ++ " " ++ result.label ++ " failed: " ++ result.message⟩]
  else []

/-- The run with a request out, and the request. -/
def send (run : Run) (setting : Setting) (token : Nat) (request : Request)
    (stepVars loopVars : TextMap) (position : Position) : Except Result (Run × Dispatch) :=
  match Template.renderMap (run.scope setting (some request) .empty loopVars) stepVars with
  | .error e =>
    .error { run.failure ("step vars: " ++ (EvalError.unknownVariable e.name).message) position with
      request := some request.name }
  | .ok stepLayer =>
    let run := { run with
      vars := run.vars.overlay stepLayer
      pending := some {
        token, step := run.index, label := run.stepLabel, request := request.name, position
        branch := run.branch } }
    .ok (run, {
      token, request, vars := run.scope setting (some request) stepLayer loopVars
      environment := run.environment, step := run.index, label := run.stepLabel })

end Run

end RequestFlow
