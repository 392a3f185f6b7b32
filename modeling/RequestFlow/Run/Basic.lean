import RequestFlow.Scope
import RequestFlow.Run.Verdict

/-!
# Runs

The record of a workflow on its way: what has happened so far, the variables as they stand, the
loop it is in and the one request that is out.

* `Run.start`: a run before its first step;
* `Run.record`: a run with one more result, and whether that result stops it;
* `Run.remaining`: what is left to do, as a pair that every round of the run makes smaller.
-/

namespace RequestFlow

/-- How a run came about. -/
inductive Origin where
  /-- By the name of a workflow. -/
  | workflow
  /-- By the name of a request, over the items of its own loop. -/
  | request
deriving DecidableEq, Repr, Inhabited

/-- An origin as it is written. -/
def Origin.text : Origin → String
  | workflow => "workflow"
  | request => "for_each_request"

/-- A place in a loop, counted from one; zero of zero stands for no loop. -/
structure Position where
  iteration : Nat
  total : Nat
deriving DecidableEq, Repr, Inhabited

/-- The place of what is in no loop. -/
def Position.none : Position := ⟨0, 0⟩

/-- What became of a step, or of one iteration of it. -/
structure Result where
  /-- The index of the step. -/
  step : Nat
  label : String
  request : Option String := none
  status : Status
  statusText : String := status.text
  duration : Duration := .zero
  message : String
  position : Position := .none
  /-- The branch that was taken. -/
  branch : Option String := none
  response : Option Response := none
  tests : List TestResult := []
  error : Option String := none
deriving DecidableEq, Repr

namespace Result

/-- The result of a step that failed before anything was sent. -/
def failed (step : Nat) (label message : String) : Result :=
  { step, label, status := .failed, message, error := some message }

/-- The result of a step that was passed over. -/
def skipped (step : Nat) (label message : String) : Result :=
  { step, label, status := .skipped, message }

/-- The step failed. -/
def isFailure (result : Result) : Bool := result.status == .failed

/-- A canceled step stops the run, a failed one does under the policy to stop. -/
def stops (result : Result) (policy : Policy) : Bool :=
  match result.status with
  | .canceled => true
  | .failed => policy == .stop
  | .succeeded | .skipped => false

end Result

/-- A loop on its way. -/
structure Loop where
  /-- The index of the step that loops. -/
  step : Nat
  /-- The items, as they were when the loop began. -/
  items : List String
  /-- How many items have been begun. -/
  cursor : Nat := 0
  var : String
  /-- Each item is also kept among the variables of the run. -/
  binds : Bool
deriving DecidableEq, Repr, Inhabited

namespace Loop

/-- The number of items. -/
def total (loop : Loop) : Nat := loop.items.length

/-- No item is left. -/
def isExhausted (loop : Loop) : Bool := loop.total ≤ loop.cursor

end Loop

/-- The request that is out, and where its reply belongs. -/
structure Pending where
  token : Nat
  /-- The index of the step. -/
  step : Nat
  label : String
  request : String
  position : Position := .none
  branch : Option String := none
deriving DecidableEq, Repr, Inhabited

/-- A call to stop. -/
structure Cancellation where
  reason : Option String := none
  /-- The index of the step at which the run stopped. -/
  step : Option Nat := none
deriving DecidableEq, Repr, Inhabited

/-- A run of a workflow. -/
structure Run where
  workflow : Workflow
  origin : Origin
  environment : String
  environmentVars : TextMap
  /-- The index of the step that is next or under way. -/
  index : Nat := 0
  results : List Result := []
  /-- The variables of the workflow as they stand. -/
  vars : TextMap
  loop : Option Loop := none
  /-- The branch taken in the step under way. -/
  branch : Option String := none
  cancellation : Option Cancellation := none
  pending : Option Pending := none
  /-- The index of the step whose failure stopped the run. -/
  stoppedAt : Option Nat := none
  finalized : Bool := false
deriving DecidableEq

/-- How many results there are of each status. -/
structure Counts where
  succeeded : Nat
  failed : Nat
  skipped : Nat
  canceled : Nat
deriving DecidableEq, Repr

namespace Counts

/-- The counts of a list of results. -/
def ofResults (results : List Result) : Counts :=
  let count (status : Status) := results.countP fun result => result.status == status
  ⟨count .succeeded, count .failed, count .skipped, count .canceled⟩

/-- The results that are not skips. -/
def attempted (counts : Counts) : Nat := counts.succeeded + counts.failed + counts.canceled

end Counts

namespace Run

/-- A run before its first step. -/
def start (workflow : Workflow) (origin : Origin) (environment : String)
    (environmentVars : TextMap) : Run :=
  { workflow, origin, environment, environmentVars, vars := workflow.initialVariables }

/-- The number of steps. -/
def stepCount (run : Run) : Nat := run.workflow.steps.length

/-- The step that is next or under way. -/
def step? (run : Run) : Option Step := run.workflow.steps[run.index]?

/-- What the step under way is called. -/
def stepLabel (run : Run) : String := (run.step?.map Step.label).getD ""

/-- A request is out. -/
def isInFlight (run : Run) : Bool := run.pending.isSome

/-- The run has been called to stop. -/
def isCanceled (run : Run) : Bool := run.cancellation.isSome

/-- How many results there are of each status. -/
def counts (run : Run) : Counts := .ofResults run.results

/-- The result stops the run. -/
def stopsAt (run : Run) (result : Result) : Bool :=
  result.stops (run.workflow.policyAt result.step)

/-- The run with one more result. -/
def record (run : Run) (result : Result) : Run :=
  { run with
    results := run.results ++ [result]
    stoppedAt :=
      if run.stopsAt result && result.isFailure then some result.step else run.stoppedAt }

/-- The run with the next step under way. -/
def nextStep (run : Run) : Run := { run with index := run.index + 1 }

/-- The run with its loop at an end, and the next step under way. -/
def leaveLoop (run : Run) : Run := { run with loop := none, index := run.index + 1 }

/-- A failure of the step under way. -/
def failure (run : Run) (message : String) (position : Position) : Result :=
  { Result.failed run.index run.stepLabel message with position, branch := run.branch }

/-- A passing over of the step under way. -/
def skip (run : Run) (message : String) (position : Position) : Result :=
  { Result.skipped run.index run.stepLabel message with position, branch := run.branch }

/-! ## What is left to do -/

/-- The steps that are left count twice, one more for a step that has not been entered. -/
def stepsLeft (run : Run) : Nat :=
  let ahead := 2 * (run.stepCount - run.index)
  match run.loop with
  | none => if ahead = 0 then 0 else ahead + 1
  | some _ => max 1 ahead

/-- The items that are left. -/
def itemsLeft (run : Run) : Nat :=
  match run.loop with
  | none => 0
  | some loop => loop.total - loop.cursor

/-- What is left to do: steps, and within a step items. -/
def remaining (run : Run) : Nat × Nat := (run.stepsLeft, run.itemsLeft)

end Run

end RequestFlow
