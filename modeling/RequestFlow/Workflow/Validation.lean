import RequestFlow.Document.Basic

/-!
# Checking a workflow

A workflow is checked against the requests of its document before it runs. The first step that is
not acceptable is told, with what is wrong about it.

* `Step.check`: what is wrong with a step, if something is;
* `Workflow.validate`: what is wrong with a workflow.
-/

namespace RequestFlow

/-- The directives that introduce a branch. -/
inductive BranchDirective where
  | primary | alternative | otherwise | case | fallback
deriving DecidableEq, Repr

/-- A directive as it is written. -/
def BranchDirective.text : BranchDirective → String
  | .primary => "@if"
  | .alternative => "@elif"
  | .otherwise => "@else"
  | .case => "@case"
  | .fallback => "@default"

/-- What is wrong with a step. -/
inductive StepFault where
  | noTarget
  | unknownTarget (name : String)
  | noLoop
  | blankItems
  | blankVariable
  | noPrimary
  | blankCondition (directive : BranchDirective)
  | runAndFail (directive : BranchDirective)
  | unknownRun (directive : BranchDirective) (name : String)
  | blankSubject
  | noCases
deriving DecidableEq, Repr

/-- A fault in words. -/
def StepFault.message : StepFault → String
  | noTarget => "step does not name a request (using=)"
  | unknownTarget name => "unknown request '" ++ name ++ "'"
  | noLoop => "@for-each step is missing its loop spec"
  | blankItems => "@for-each items expression is empty"
  | blankVariable => "@for-each loop variable name is empty"
  | noPrimary => "@if step has no primary branch"
  | blankCondition directive => directive.text ++ " condition is empty"
  | runAndFail directive => directive.text ++ " branch declares both run= and fail="
  | unknownRun directive name => directive.text ++ " branch runs unknown request '" ++ name ++ "'"
  | blankSubject => "@switch expression is empty"
  | noCases => "@switch step has no cases"

/-- What is wrong with a workflow; steps are counted from one. -/
inductive ValidationFault where
  | noSteps (workflow : String)
  | step (workflow : String) (number : Nat) (fault : StepFault)
deriving DecidableEq, Repr

/-- A fault in words. -/
def ValidationFault.message : ValidationFault → String
  | noSteps workflow => "workflow '" ++ workflow ++ "' has no steps"
  | step workflow number fault =>
    "workflow '" ++ workflow ++ "' step " ++ toString number ++ ": " ++ fault.message

/-- The step names a request that there is. -/
def RequestStep.check (requests : RequestIndex) (step : RequestStep) : Except StepFault Unit :=
  if step.targetName = "" then .error .noTarget
  else if requests.contains step.targetName then .ok ()
  else .error (.unknownTarget step.targetName)

/-- The branch does not both run and fail, and runs a request that there is. -/
def Action.check (requests : RequestIndex) (directive : BranchDirective) (action : Action) :
    Except StepFault Unit :=
  match action.target? with
  | none => .ok ()
  | some target =>
    if action.fail.isSome then .error (.runAndFail directive)
    else if requests.contains target then .ok ()
    else .error (.unknownRun directive target)

/-- The loop is there and says what it goes over and by which name. -/
def LoopSpec.check : Option LoopSpec → Except StepFault Unit
  | none => .error .noLoop
  | some spec =>
    if Text.isBlankText spec.items then .error .blankItems
    else if Text.isBlankText spec.var then .error .blankVariable
    else .ok ()

/-- The branch has a condition and an acceptable action. -/
def ConditionalBranch.check (requests : RequestIndex) (directive : BranchDirective)
    (branch : ConditionalBranch) : Except StepFault Unit :=
  if Text.isBlankText branch.condition then .error (.blankCondition directive)
  else branch.action.check requests directive

/-- Every branch is acceptable, in order. -/
def checkEach {α : Type} (check : α → Except StepFault Unit) : List α → Except StepFault Unit
  | [] => .ok ()
  | x :: rest => do
    check x
    checkEach check rest

/-- The step can be run. -/
def Step.check (requests : RequestIndex) : Step → Except StepFault Unit
  | request step => step.check requests
  | forEach step loop => do
    step.check requests
    LoopSpec.check loop
  | conditional step => do
    match step.primary with
    | none => .error .noPrimary
    | some primary =>
      primary.check requests .primary
      checkEach (ConditionalBranch.check requests .alternative) step.alternatives
      checkEach (Action.check requests .otherwise) step.otherwise.toList
  | switch step => do
    if Text.isBlankText step.subject then throw .blankSubject
    if step.cases.isEmpty then throw .noCases
    checkEach (fun branch => branch.action.check requests .case) step.cases
    checkEach (Action.check requests .fallback) step.otherwise.toList

/-- The steps can be run; the first of them has the number given. -/
def checkSteps (requests : RequestIndex) (workflow : String) :
    Nat → List Step → Except ValidationFault Unit
  | _, [] => .ok ()
  | number, step :: rest =>
    match step.check requests with
    | .ok () => checkSteps requests workflow (number + 1) rest
    | .error fault => .error (.step workflow number fault)

/-- The workflow can be run. -/
def Workflow.validate (workflow : Workflow) (requests : RequestIndex) :
    Except ValidationFault Unit :=
  if workflow.steps.isEmpty then .error (.noSteps workflow.name)
  else checkSteps requests workflow.name 1 workflow.steps

end RequestFlow
