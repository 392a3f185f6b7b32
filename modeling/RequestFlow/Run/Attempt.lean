import RequestFlow.Run.Choice
import RequestFlow.Run.Dispatch

/-!
# Trying a step

A step either sends a request, or begins a loop, or is settled at once: it is passed over or has
failed. Trying a step never looks at a reply.

* `Run.attempt`: the step under way is tried;
* `Run.iterate`: the next item of the loop is tried.
-/

namespace RequestFlow

/-- What trying a step comes to. -/
inductive Attempt where
  /-- A request is out. -/
  | sent (run : Run) (dispatch : Dispatch) (notice : Notice)
  /-- There is a result already. -/
  | settled (run : Run) (result : Result)
  /-- A loop begins. -/
  | looping (run : Run)

namespace Run

/-- Tries to send a request. -/
def attemptSend (run : Run) (setting : Setting) (token : Nat) (request : Request)
    (stepVars loopVars : TextMap) (position : Position) : Attempt :=
  match run.send setting token request stepVars loopVars position with
  | .ok (sent, dispatch) => .sent sent dispatch (run.sendNotice request position)
  | .error result => .settled run result

/-- The result of a step whose guard does not let it run. -/
def guardResult? (run : Run) (setting : Setting) (request : Request) (guard : Option String)
    (loopVars : TextMap) (position : Position) : Option Result :=
  guard.bind fun guard =>
    let named (result : Result) : Result := { result with request := some request.name }
    match setting.evaluator.condition guard (run.scope setting (some request) .empty loopVars) with
    | .ok true => none
    | .ok false => some (named (run.skip ("condition `" ++ guard ++ "` is false") position))
    | .error e =>
      some (named (run.failure ("when `" ++ guard ++ "`: " ++ e.message) position))

/-- Tries to send a step's request if its guard lets it. -/
def attemptGuarded (run : Run) (setting : Setting) (token : Nat) (request : Request)
    (step : RequestStep) (loopVars : TextMap) (position : Position) : Attempt :=
  match run.guardResult? setting request step.guard loopVars position with
  | some result => .settled run result
  | none => run.attemptSend setting token request step.vars loopVars position

/-- The failure of a step whose request there is not. -/
def unknownTarget (run : Run) (step : RequestStep) (position : Position) : Result :=
  run.failure ("unknown request '" ++ step.target ++ "'") position

/-- Begins a loop over the items as they are now. -/
def attemptLoop (run : Run) (setting : Setting) (request : Request) (spec : LoopSpec) : Attempt :=
  let named (result : Result) : Result := { result with request := some request.name }
  match (setting.evaluator spec.items (run.scope setting (some request) .empty .empty)).bind
      Json.items with
  | .error e =>
    .settled run (named
      (run.failure ("for-each items `" ++ spec.items ++ "`: " ++ e.message) .none))
  | .ok [] => .settled run (named (run.skip "for-each produced no items" .none))
  | .ok items =>
    .looping { run with
      loop := some {
        step := run.index, items, var := Text.trimmed spec.var
        binds := run.origin == .workflow } }

/-- Tries a request step; it loops if it or its request says so. -/
def attemptRequest (run : Run) (setting : Setting) (token : Nat) (step : RequestStep)
    (loop : Option LoopSpec) : Attempt :=
  match setting.requests.get? step.targetName with
  | none => .settled run (run.unknownTarget step .none)
  | some request =>
    match loop.or request.loop with
    | some spec => run.attemptLoop setting request spec
    | none => run.attemptGuarded setting token request step .empty .none

/-- Does what a branch says. -/
def attemptAction (run : Run) (setting : Setting) (token : Nat) (label : String)
    (action : Action) (stepVars : TextMap) : Attempt :=
  let fail (message : String) : Attempt := .settled run (run.failure message .none)
  match action.meaning with
  | .fail message =>
    fail (if Text.isBlankText message then "branch '" ++ label ++ "' forced a failure" else message)
  | .nothing => fail ("branch '" ++ label ++ "' has no run target")
  | .run target =>
    match setting.requests.get? target with
    | none => fail ("branch '" ++ label ++ "' runs unknown request '" ++ target ++ "'")
    | some request => run.attemptSend setting token request stepVars .empty .none

/-- Tries the branch that was chosen. -/
def attemptChoice (run : Run) (setting : Setting) (token : Nat) (stepVars : TextMap)
    (missed : String) : Choice → Attempt
  | .failed message => .settled run (run.failure message .none)
  | .nothing => .settled run (run.skip missed .none)
  | .branch label action =>
    attemptAction { run with branch := some label } setting token label action stepVars

/-- Tries a step. -/
def attempt (run : Run) (setting : Setting) (token : Nat) : Step → Attempt
  | .request step => run.attemptRequest setting token step none
  | .forEach step loop => run.attemptRequest setting token step loop
  | .conditional step =>
    let scope := run.scope setting none .empty .empty
    run.attemptChoice setting token step.vars "no @if branch matched"
      (step.choose fun text => setting.evaluator.condition text scope)
  | .switch step =>
    let scope := run.scope setting none .empty .empty
    run.attemptChoice setting token step.vars "no @switch case matched"
      (step.choose fun text => setting.evaluator text scope)

/-- The run with the next item begun: the loop is one further, and the item is kept among the
variables of the run if the loop binds. -/
def beginItem (run : Run) (loop : Loop) (item : String) : Run :=
  { run with
    loop := some { loop with cursor := loop.cursor + 1 }
    vars := if loop.binds then run.vars.insert loop.var item else run.vars }

/-- Tries the step of a loop for an item. -/
def attemptItem (run : Run) (setting : Setting) (token : Nat) (step : RequestStep)
    (loopVars : TextMap) (position : Position) : Attempt :=
  match setting.requests.get? step.targetName with
  | none => .settled run (run.unknownTarget step position)
  | some request => run.attemptGuarded setting token request step loopVars position

/-- Tries the next item of a loop; none when the loop is at its end. The run is the one to go on
with. -/
def iterate (run : Run) (setting : Setting) (token : Nat) (loop : Loop) : Run × Option Attempt :=
  match loop.items[loop.cursor]? with
  | none => (run, none)
  | some item =>
    let begun := run.beginItem loop item
    match begun.step?.bind Step.requestPart? with
    | none => (begun, none)
    | some step =>
      (begun, some (begun.attemptItem setting token step (OrderedMap.empty.insert loop.var item)
        ⟨loop.cursor + 1, loop.total⟩))

end Run

end RequestFlow
