import RequestFlow.Run.Choice
import RequestFlow.Run.Dispatch

/-!
# Walking through a workflow

What a run comes to, told in one go: a walk takes the steps of a workflow one after the other, and
within a step that loops its items, and has the reply to a request where the request goes out. There
is nothing to suspend and nothing to come back to.

* `Plan.guarded`, `Plan.loop`, `Plan.choice`: the walk over a step, by what the step does;
* `Plan.items`: the walk over the items of a loop;
* `Plan.walk`: the walk over all steps of the workflow.
-/

namespace RequestFlow

/-- What a walk goes by. -/
structure Plan where
  setting : Setting
  workflow : Workflow
  origin : Origin
  environment : String
  environmentVars : TextMap
  /-- The token of the first request. -/
  firstToken : Nat
  /-- The reply to the request with a number, counted from zero. -/
  reply : Nat → Dispatch → Reply

/-- What a walk, or a part of one, comes to. -/
structure Walk where
  /-- The requests that went out, in order. -/
  dispatches : List Dispatch := []
  results : List Result := []
  /-- The variables of the workflow afterwards. -/
  vars : TextMap
  /-- The last of the results ends the walk. -/
  stopped : Bool := false
deriving DecidableEq

/-- A part of a walk and, if nothing stops it, what follows. -/
def Walk.andThen (walk : Walk) (rest : Walk → Walk) : Walk :=
  if walk.stopped then walk
  else
    { rest walk with
      dispatches := walk.dispatches ++ (rest walk).dispatches
      results := walk.results ++ (rest walk).results }

/-- Where a walk is: at a step, and maybe at an item of its loop or on one of its branches. -/
structure Place where
  index : Nat
  step : Step
  position : Position := .none
  branch : Option String := none
  /-- The variable that holds the item. -/
  loopVars : TextMap := .empty
deriving DecidableEq

namespace Place

/-- A failure at a place, on the way to a request or before one is known. -/
def failure (place : Place) (request : Option Request) (message : String) : Result where
  step := place.index
  label := place.step.label
  request := request.map Request.name
  status := .failed
  message := message
  position := place.position
  branch := place.branch
  error := some message

/-- A passing over of a place, on the way to a request or before one is known. -/
def skip (place : Place) (request : Option Request) (message : String) : Result where
  step := place.index
  label := place.step.label
  request := request.map Request.name
  status := .skipped
  message := message
  position := place.position
  branch := place.branch

/-- The result that the reply to a request brings: only a step without branches says what to expect
of it. -/
def answer (place : Place) (request : Request) (reply : Reply) : Result :=
  let verdict := reply.verdict place.step.requestPart? .elapsed
  { step := place.index
    label := place.step.label
    request := some request.name
    status := verdict.status
    statusText := verdict.statusText
    duration := verdict.duration
    message := verdict.message
    position := place.position
    branch := place.branch
    response := reply.response
    tests := reply.tests
    error := verdict.error }

end Place

/-- What is left of a list: what stands next, and the rest. -/
theorem next_of_drop {α : Type} {list rest : List α} {index : Nat} {next : α}
    (h : list.drop index = next :: rest) :
    list[index]? = some next ∧ list.drop (index + 1) = rest := by
  constructor
  · have hhead : (list.drop index)[0]? = some next := by
      rw [h]
      rfl
    rwa [List.getElem?_drop] at hhead
  · rw [← List.tail_drop, h]
    rfl

namespace Plan

/-- The variables in scope, where those of the workflow stand as `vars`. -/
def scope (plan : Plan) (vars : TextMap) (request : Option Request) (step loop : TextMap) :
    TextMap :=
  Layers.merge {
    document := plan.setting.vars
    request := (request.map Request.vars).getD .empty
    environment := plan.environmentVars
    workflow := vars
    step, loop }

/-! ## One result -/

/-- One result at a place; the policy of the step says whether it ends the walk. -/
def settle (plan : Plan) (place : Place) (vars : TextMap) (result : Result) : Walk :=
  { results := [result], vars, stopped := result.stops (plan.workflow.policyFor place.step) }

/-- The request that goes out at a place after `sent` others. -/
def dispatch (plan : Plan) (place : Place) (sent : Nat) (vars layer : TextMap) (request : Request) :
    Dispatch where
  token := plan.firstToken + sent
  request := request
  vars := plan.scope vars (some request) layer place.loopVars
  environment := plan.environment
  step := place.index
  label := place.step.label

/-- A request goes out and its reply comes; the variables of the step, filled in as `layer`, have
become variables of the workflow. -/
def answered (plan : Plan) (place : Place) (sent : Nat) (vars layer : TextMap) (request : Request) :
    Walk :=
  let dispatch := plan.dispatch place sent vars layer request
  { plan.settle place vars (place.answer request (plan.reply sent dispatch)) with
    dispatches := [dispatch] }

/-- Sends a request once the variables of its step are filled in. -/
def send (plan : Plan) (place : Place) (sent : Nat) (vars : TextMap) (request : Request)
    (stepVars : TextMap) : Walk :=
  match Template.renderMap (plan.scope vars (some request) .empty place.loopVars) stepVars with
  | .error e =>
    plan.settle place vars
      (place.failure request ("step vars: " ++ (EvalError.unknownVariable e.name).message))
  | .ok layer => plan.answered place sent (vars.overlay layer) layer request

/-- Sends the request of a step if its guard lets it. -/
def guarded (plan : Plan) (place : Place) (sent : Nat) (vars : TextMap) (request : Request)
    (part : RequestStep) : Walk :=
  match part.guard with
  | none => plan.send place sent vars request part.vars
  | some guard =>
    match plan.setting.evaluator.condition guard
        (plan.scope vars (some request) .empty place.loopVars) with
    | .ok true => plan.send place sent vars request part.vars
    | .ok false =>
      plan.settle place vars (place.skip request ("condition `" ++ guard ++ "` is false"))
    | .error e =>
      plan.settle place vars (place.failure request ("when `" ++ guard ++ "`: " ++ e.message))

/-! ## Loops -/

/-- The walk over the items of a loop that are left, the first of them with a number counted from
one. A run of a workflow keeps each item among its variables. -/
def items (plan : Plan) (place : Place) (request : Request) (part : RequestStep) (var : String)
    (total : Nat) : Nat → Nat → TextMap → List String → Walk
  | _, _, vars, [] => { vars }
  | iteration, sent, vars, item :: rest =>
    let here := { place with
      position := ⟨iteration, total⟩, loopVars := OrderedMap.empty.insert var item }
    let bound := if plan.origin = .workflow then vars.insert var item else vars
    (plan.guarded here sent bound request part).andThen fun walk =>
      plan.items place request part var total (iteration + 1) (sent + walk.dispatches.length)
        walk.vars rest

/-- The walk over a loop: the items are evaluated once. -/
def loop (plan : Plan) (place : Place) (sent : Nat) (vars : TextMap) (request : Request)
    (part : RequestStep) (spec : LoopSpec) : Walk :=
  match (plan.setting.evaluator spec.items (plan.scope vars (some request) .empty .empty)).bind
      Json.items with
  | .error e =>
    plan.settle place vars
      (place.failure request ("for-each items `" ++ spec.items ++ "`: " ++ e.message))
  | .ok [] => plan.settle place vars (place.skip request "for-each produced no items")
  | .ok items =>
    plan.items place request part (Text.trimmed spec.var) items.length 1 sent vars items

/-! ## Steps -/

/-- The walk over a request step, with a loop of its own or that of its request or none. -/
def request (plan : Plan) (place : Place) (sent : Nat) (vars : TextMap) (part : RequestStep)
    (own : Option LoopSpec) : Walk :=
  match plan.setting.requests.get? part.targetName with
  | none =>
    plan.settle place vars (place.failure none ("unknown request '" ++ part.target ++ "'"))
  | some request =>
    match own.or request.loop with
    | some spec => plan.loop place sent vars request part spec
    | none => plan.guarded place sent vars request part

/-- The walk over what a branch says. -/
def action (plan : Plan) (place : Place) (sent : Nat) (vars : TextMap) (label : String)
    (action : Action) (stepVars : TextMap) : Walk :=
  let fail (message : String) : Walk := plan.settle place vars (place.failure none message)
  match action.meaning with
  | .fail message =>
    fail (if Text.isBlankText message then "branch '" ++ label ++ "' forced a failure" else message)
  | .nothing => fail ("branch '" ++ label ++ "' has no run target")
  | .run target =>
    match plan.setting.requests.get? target with
    | none => fail ("branch '" ++ label ++ "' runs unknown request '" ++ target ++ "'")
    | some request => plan.send place sent vars request stepVars

/-- The walk over the branch that was chosen. -/
def choice (plan : Plan) (place : Place) (sent : Nat) (vars stepVars : TextMap) (missed : String) :
    Choice → Walk
  | .failed message => plan.settle place vars (place.failure none message)
  | .nothing => plan.settle place vars (place.skip none missed)
  | .branch label action =>
    plan.action { place with branch := some label } sent vars label action stepVars

/-- The walk over a step. -/
def step (plan : Plan) (place : Place) (sent : Nat) (vars : TextMap) : Walk :=
  match place.step with
  | .request part => plan.request place sent vars part none
  | .forEach part own => plan.request place sent vars part own
  | .conditional step =>
    plan.choice place sent vars step.vars "no @if branch matched" <|
      step.choose fun text =>
        plan.setting.evaluator.condition text (plan.scope vars none .empty .empty)
  | .switch step =>
    plan.choice place sent vars step.vars "no @switch case matched" <|
      step.choose fun text => plan.setting.evaluator text (plan.scope vars none .empty .empty)

/-- The walk over the steps that are left, the first of them with an index. -/
def steps (plan : Plan) : Nat → Nat → TextMap → List Step → Walk
  | _, _, vars, [] => { vars }
  | index, sent, vars, step :: rest =>
    (plan.step { index, step } sent vars).andThen fun walk =>
      plan.steps (index + 1) (sent + walk.dispatches.length) walk.vars rest

/-- The walk over a workflow. -/
def walk (plan : Plan) : Walk := plan.steps 0 0 plan.workflow.initialVariables plan.workflow.steps

end Plan

end RequestFlow
