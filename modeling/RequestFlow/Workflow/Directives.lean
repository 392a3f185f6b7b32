import RequestFlow.Document.Basic

/-!
# Workflows as directives

A workflow in the form in which it is written as comments, one directive a line. This text is kept
with every run, so that what ran can be seen later. A value stands bare where it can be told from
what surrounds it, and in quotes otherwise, with backslash and quote escaped.
-/

namespace RequestFlow

namespace Directive

/-- A value that needs no quotes. -/
def isBare (cs : List Char) : Bool :=
  !cs.isEmpty && cs.all fun c => !Text.isBlank c && c != '"' && c != '=' && c != '#'

/-- A character inside quotes. -/
def escapeChar (c : Char) : List Char := if c = '"' ∨ c = '\\' then ['\\', c] else [c]

/-- A value, in quotes if it needs them. -/
def quote (value : String) : String :=
  if isBare value.toList then value
  else String.ofList ('"' :: (value.toList.flatMap escapeChar ++ ['"']))

/-- A key with its value. -/
def pair (key value : String) : String := key ++ "=" ++ quote value

/-- A part that is only written when there is something to write. -/
def part {α : Type} (write : α → String) : Option α → String
  | none => ""
  | some value => " " ++ write value

/-- A line of pairs, if there are any. -/
def pairLines (directive : String) (pairs : TextMap) : List String :=
  if pairs.isEmpty then []
  else ["# @" ++ directive ++ " " ++
    " ".intercalate (pairs.entries.map fun entry => pair entry.1 entry.2)]

/-- The name and the policy in a header. -/
def common (name : Option String) (policy : Option Policy) : String :=
  part (pair "name") (Text.nonBlank? name) ++
    part (fun policy => "on-failure=" ++ policy.text) policy

end Directive

open Directive

/-- What a branch does, as parts of a header. -/
def Action.directive (action : Action) : String :=
  part (pair "run") action.run ++ part (pair "fail") action.fail

/-- The lines of a request step, and the line of its request if there is one. -/
def RequestStep.directives (requests : RequestIndex) (step : RequestStep) : List String :=
  ("# @step " ++ pair "using" step.target ++ part (pair "when") step.guard ++
      common step.name step.policy) ::
    pairLines "vars" step.vars ++ pairLines "expect" step.expect ++
    ((requests.get? (Text.trimmed step.target)).map fun request =>
      request.method ++ " " ++ request.url).toList

/-- The line of a loop. -/
def LoopSpec.directive (spec : LoopSpec) : String :=
  "# @for-each " ++ pair "items" spec.items ++ " as=" ++ spec.var

/-- A branch with its condition, as parts of a header. -/
def ConditionalBranch.directive (branch : ConditionalBranch) : String :=
  pair "cond" branch.condition ++ branch.action.directive

/-- The lines of a conditional step. -/
def ConditionalStep.directives (step : ConditionalStep) : List String :=
  ("# @if" ++ part ConditionalBranch.directive step.primary ++ common step.name step.policy) ::
    pairLines "vars" step.vars ++
    step.alternatives.map (fun branch => "# @elif " ++ branch.directive) ++
    step.otherwise.toList.map fun action => "# @else" ++ action.directive

/-- The lines of a switch step. -/
def SwitchStep.directives (step : SwitchStep) : List String :=
  ("# @switch " ++ quote step.subject ++ common step.name step.policy) ::
    pairLines "vars" step.vars ++
    step.cases.map (fun branch => "# @case " ++ quote branch.value ++ branch.action.directive) ++
    step.otherwise.toList.map fun action => "# @default" ++ action.directive

/-- The lines of a step. -/
def Step.directives (requests : RequestIndex) : Step → List String
  | request step => step.directives requests
  | forEach step loop => loop.toList.map LoopSpec.directive ++ step.directives requests
  | conditional step => step.directives
  | switch step => step.directives

/-- The lines in front of the steps. -/
def Workflow.headerDirectives (workflow : Workflow) : List String :=
  ("# @workflow " ++ workflow.name) ::
    (Text.nonBlank? workflow.description).toList.map
      (fun description => "# @description " ++ Text.trimmed description) ++
    (if workflow.tags.isEmpty then [] else ["# @tags " ++ ", ".intercalate workflow.tags]) ++
    (if workflow.policy = .stop then [] else ["# @on-failure " ++ workflow.policy.text]) ++
    workflow.options.entries.map fun entry => "# @option " ++ pair entry.1 entry.2

/-- The lines of a workflow, an empty one before each step. -/
def Workflow.directiveLines (workflow : Workflow) (requests : RequestIndex) : List String :=
  workflow.headerDirectives ++
    workflow.steps.flatMap fun step => "" :: step.directives requests

/-- A workflow as directives. -/
def Workflow.directives (workflow : Workflow) (requests : RequestIndex) : String :=
  "\n".intercalate (workflow.directiveLines requests)

end RequestFlow
