import RequestFlow.Text.Blank
import RequestFlow.OrderedMap

/-!
# Workflows

A workflow is a list of steps. A step runs a request, runs a request once per item of a list, or
chooses one of several branches, each of which runs a request or fails on purpose.

* `Action.target?_eq_some_iff`, `Action.target?_eq_none_iff`: the request that an action runs;
* `Workflow.seeded?_eq_some_iff`: the variables that options are for;
* `Workflow.policyFor_eq_iff`: the policy that holds for a step.
-/

namespace RequestFlow

/-- What a failed step does to the run. -/
inductive Policy where
  | stop
  | proceed
deriving DecidableEq, Repr, Inhabited

/-- A policy as it is written. -/
def Policy.text : Policy → String
  | stop => "stop"
  | proceed => "continue"

/-- A loop: the expression for the items, and the variable that takes each of them. -/
structure LoopSpec where
  items : String
  var : String
deriving DecidableEq, Repr, Inhabited

/-- A step that runs the request it targets. -/
structure RequestStep where
  name : Option String := none
  target : String := ""
  /-- The step is skipped unless this expression is true. -/
  guard : Option String := none
  /-- Variables set when the request is dispatched. -/
  vars : TextMap := .empty
  /-- What the response should be. -/
  expect : TextMap := .empty
  policy : Option Policy := none
deriving DecidableEq

/-- What a branch says to do; saying both is a fault of the author's. -/
structure Action where
  run : Option String := none
  fail : Option String := none
deriving DecidableEq, Repr, Inhabited

/-- A branch taken when its condition is true. -/
structure ConditionalBranch where
  condition : String
  action : Action
deriving DecidableEq, Repr, Inhabited

/-- A branch taken when its value equals that of the switch. -/
structure CaseBranch where
  value : String
  action : Action
deriving DecidableEq, Repr, Inhabited

/-- A step that takes the first branch whose condition is true. -/
structure ConditionalStep where
  name : Option String := none
  primary : Option ConditionalBranch := none
  alternatives : List ConditionalBranch := []
  otherwise : Option Action := none
  vars : TextMap := .empty
  policy : Option Policy := none
deriving DecidableEq

/-- A step that takes the first branch whose value equals that of an expression. -/
structure SwitchStep where
  name : Option String := none
  subject : String := ""
  cases : List CaseBranch := []
  otherwise : Option Action := none
  vars : TextMap := .empty
  policy : Option Policy := none
deriving DecidableEq

/-- A step of a workflow. -/
inductive Step where
  | request (step : RequestStep)
  | conditional (step : ConditionalStep)
  | switch (step : SwitchStep)
  /-- A request step repeated over the items of a loop. -/
  | forEach (step : RequestStep) (loop : Option LoopSpec)
deriving DecidableEq

/-- A named list of steps. -/
structure Workflow where
  name : String
  description : Option String := none
  tags : List String := []
  /-- The policy of the steps that have none. -/
  policy : Policy := .stop
  options : TextMap := .empty
  steps : List Step := []
deriving DecidableEq

/-- What an action comes to. -/
inductive Action.Meaning where
  | run (target : String)
  | fail (message : String)
  | nothing
deriving DecidableEq, Repr

namespace Action

/-- The request an action runs, if it names one. -/
def target? (action : Action) : Option String :=
  (action.run.map Text.trimmed).filter (· ≠ "")

/-- The request is what is written, without the blanks around it, unless that is blank. -/
theorem target?_eq_some_iff {action : Action} {target : String} :
    action.target? = some target ↔ ∃ written, action.run = some written ∧
      Text.isBlankText written = false ∧ Text.trimmed written = target := by
  cases hrun : action.run with
  | none => simp [target?, hrun]
  | some written =>
    have hblank : Text.trimmed written ≠ "" ↔ Text.isBlankText written = false := by
      rw [ne_eq, Text.trimmed_eq_empty_iff, Bool.not_eq_true]
    simp only [target?, hrun, Option.map_some, Option.filter_eq_some_iff, Option.some.injEq,
      decide_eq_true_eq, exists_eq_left', ← hblank]
    exact ⟨fun ⟨heq, hne⟩ => ⟨heq ▸ hne, heq⟩, fun ⟨hne, heq⟩ => ⟨heq, heq ▸ hne⟩⟩

theorem target?_eq_none_iff {action : Action} :
    action.target? = none ↔
      ∀ written, action.run = some written → Text.isBlankText written = true := by
  cases hrun : action.run with
  | none => simp [target?, hrun]
  | some written => simp [target?, hrun, Text.trimmed_eq_empty_iff]

/-- What an action comes to: a failure, even without a message, goes before a request. -/
def meaning (action : Action) : Meaning :=
  match action.fail with
  | some message => .fail message
  | none =>
    match action.target? with
    | some target => .run target
    | none => .nothing

end Action

namespace RequestStep

/-- The name that a step's target stands for. -/
def targetName (step : RequestStep) : String := Text.trimmed step.target

/-- The status line that is expected. -/
def expectedStatus (step : RequestStep) : Option String := step.expect.get? "status"

/-- The status code that is expected, as text. -/
def expectedCode (step : RequestStep) : Option String := step.expect.get? "statuscode"

/-- The step says which status it expects. -/
def expectsStatus (step : RequestStep) : Bool :=
  step.expectedStatus.isSome || step.expectedCode.isSome

end RequestStep

namespace Step

/-- The request part of a step that has one. -/
def requestPart? : Step → Option RequestStep
  | request step => some step
  | forEach step _ => some step
  | _ => none

/-- The name the author wrote, blank or not. -/
def writtenName : Step → Option String
  | request step => step.name
  | conditional step => step.name
  | switch step => step.name
  | forEach step _ => step.name

/-- The name the author gave the step. -/
def name? (step : Step) : Option String := Text.nonBlank? step.writtenName

/-- The directive that introduces the step. -/
def directive : Step → String
  | request _ => "step"
  | conditional _ => "if"
  | switch _ => "switch"
  | forEach .. => "for-each"

/-- What the step is called in reports: by its name, else by its target, else by its directive. -/
def label (step : Step) : String :=
  match step.name? with
  | some name => name
  | none =>
    match step.requestPart?.map RequestStep.target with
    | some target => if target = "" then "@" ++ step.directive else target
    | none => "@" ++ step.directive

/-- The policy the author gave the step. -/
def policy? : Step → Option Policy
  | request step => step.policy
  | conditional step => step.policy
  | switch step => step.policy
  | forEach step _ => step.policy

/-- The variables the step sets. -/
def vars : Step → TextMap
  | request step => step.vars
  | conditional step => step.vars
  | switch step => step.vars
  | forEach step _ => step.vars

/-- The actions of a step's branches, in order. -/
def actions : Step → List Action
  | conditional step =>
    step.primary.toList.map ConditionalBranch.action ++
      step.alternatives.map ConditionalBranch.action ++ step.otherwise.toList
  | switch step => step.cases.map CaseBranch.action ++ step.otherwise.toList
  | _ => []

end Step

namespace Workflow

/-- The name of the variable that an option seeds. -/
def seeded? (option : String) : Option String :=
  let mark := "vars.".toList
  if mark.isPrefixOf option.toList then
    (some (String.ofList (option.toList.drop mark.length))).filter (· ≠ "")
  else none

/-- An option is for a variable if it has the name of it behind a mark, and the name is not
empty. -/
theorem seeded?_eq_some_iff {option name : String} :
    seeded? option = some name ↔ option = "vars." ++ name ∧ name ≠ "" := by
  have happend : ("vars." ++ name).toList = "vars.".toList ++ name.toList := String.toList_append
  unfold seeded?
  dsimp only
  split
  · rename_i hmarked
    obtain ⟨rest, hrest⟩ := List.isPrefixOf_iff_prefix.1 hmarked
    have hoption : option = "vars." ++ name ↔ String.ofList rest = name := by
      rw [← String.toList_inj, happend, ← hrest, List.append_cancel_left_eq, ← String.toList_inj,
        String.toList_ofList]
    simp only [← hrest, List.drop_left, Option.filter_eq_some_iff, Option.some.injEq,
      decide_eq_true_eq, hoption]
  · rename_i hunmarked
    simp only [reduceCtorEq, false_iff, not_and]
    rintro rfl
    exact (hunmarked (List.isPrefixOf_iff_prefix.2 ⟨name.toList, happend.symm⟩)).elim

/-- The variables that the options seed. -/
def initialVariables (workflow : Workflow) : TextMap :=
  .ofList (workflow.options.entries.filterMap fun option =>
    (seeded? option.1).map fun name => (name, option.2))

/-- The policy that holds for a step. -/
def policyFor (workflow : Workflow) (step : Step) : Policy := step.policy?.getD workflow.policy

/-- A step has the policy that is given to it, or else that of the workflow. -/
theorem policyFor_eq_iff {workflow : Workflow} {step : Step} {policy : Policy} :
    workflow.policyFor step = policy ↔
      step.policy? = some policy ∨ step.policy? = none ∧ workflow.policy = policy := by
  cases h : step.policy? <;> simp [policyFor, h]

/-- The policy that holds for the step with an index, or the workflow's own. -/
def policyAt (workflow : Workflow) (index : Nat) : Policy :=
  (workflow.steps[index]?.map workflow.policyFor).getD workflow.policy

theorem policyAt_eq_iff {workflow : Workflow} {index : Nat} {policy : Policy} :
    workflow.policyAt index = policy ↔
      workflow.steps[index]?.bind Step.policy? = some policy ∨
        workflow.steps[index]?.bind Step.policy? = none ∧ workflow.policy = policy := by
  rw [policyAt]
  cases workflow.steps[index]? with
  | none => simp
  | some step => exact policyFor_eq_iff

end Workflow

end RequestFlow
