import RequestFlow.Proofs.Run.Variables
import RequestFlow.Run.Report

/-!
# What a run tells

A run tells of what happens to it: of every request that goes out and of every failure, at the time
when it is recorded. So what is told between two states of a run can be read off them: there is a
line for each failure among the results that have been added, in order, and one for the request
that is out in the end.

* `Event`, `Event.lines`: what happens to runs, and the lines for it;
* `Run.happened`: what has happened between two states of a run;
* `Run.tells_round`, `Run.tells_advance`, `Run.tells_resume`: rounds, the way to the next request
  and replies tell of just that.
-/

namespace RequestFlow

/-- What happens to runs. -/
inductive Event where
  | began (workflow : Workflow)
  /-- A request goes out, for an item of a loop if there is a place in it. -/
  | sent (workflow : Workflow) (dispatch : Dispatch) (place : Option Position)
  | recorded (workflow : Workflow) (result : Result)
  | called (workflow : Workflow) (reason : String)
  | ended (report : Report)

/-- The number of a step among those of its workflow. -/
def Workflow.stepText (workflow : Workflow) (index : Nat) : String :=
  "step " ++ toString (index + 1) ++ "/" ++ toString workflow.steps.length

/-- A place in a loop as it is told. -/
def placeNote : Option Position → String
  | none => ""
  | some place => " [" ++ toString place.iteration ++ "/" ++ toString place.total ++ "]"

/-- The lines for what happens: one each, but of results only the failures have one. -/
def Event.lines : Event → List Notice
  | began workflow =>
    [⟨.info, "running workflow '" ++ workflow.name ++ "' (" ++ toString workflow.steps.length ++
      " steps)"⟩]
  | sent workflow dispatch place =>
    [⟨.info, workflow.stepText dispatch.step ++ ": " ++ dispatch.label ++ placeNote place ++
      " -> " ++ dispatch.request.method ++ " " ++ dispatch.request.name⟩]
  | recorded workflow result =>
    if result.status = .failed then
      [⟨.warn, workflow.stepText result.step ++ " " ++ result.label ++ " failed: " ++
        result.message⟩]
    else []
  | called workflow reason =>
    [⟨.warn, "canceling workflow '" ++ workflow.name ++ "': " ++ reason⟩]
  | ended report => [⟨if report.outcome = .succeeded then .info else .warn, report.summary⟩]

/-- What a round tells. -/
def Round.notices : Round → List Notice
  | next _ notices => notices
  | sent _ _ notices => notices
  | finished _ notices => notices

namespace Run

/-- The place of a run in its loop. -/
def place? (run : Run) : Option Position := run.loop.map fun loop => ⟨loop.cursor, loop.total⟩

/-- What has happened to a run since it had only the results `before`: results have been recorded,
and then a request may have gone out. -/
def happened (run : Run) (before : List Result) (dispatch : Option Dispatch) : List Event :=
  (run.results.drop before.length).map (.recorded run.workflow) ++
    (dispatch.map fun dispatch => .sent run.workflow dispatch run.place?).toList

variable {setting : Setting} {token : Nat} {loopVars : TextMap} {position : Position} {run : Run}

/-! ## What happens -/

theorem happened_self (run : Run) : run.happened run.results none = [] := by simp [happened]

/-- Nothing but results has been added. -/
theorem happened_of_results {before added : List Result} (h : run.results = before ++ added)
    (dispatch : Option Dispatch) :
    run.happened before dispatch = added.map (.recorded run.workflow) ++
      (dispatch.map fun dispatch => .sent run.workflow dispatch run.place?).toList := by
  rw [happened, h, List.drop_left]

/-- What has happened up to a state and what has happened since. -/
theorem happened_trans {before : List Result} {later : Run} (h : before <+: run.results)
    (h' : run.results <+: later.results) (same : later.workflow = run.workflow)
    (dispatch : Option Dispatch) :
    run.happened before none ++ later.happened run.results dispatch =
      later.happened before dispatch := by
  obtain ⟨first, hfirst⟩ := h
  obtain ⟨second, hsecond⟩ := h'
  have hboth : later.results = before ++ (first ++ second) := by
    rw [← hsecond, ← hfirst, List.append_assoc]
  rw [happened_of_results hfirst.symm, happened_of_results hsecond.symm, happened_of_results hboth,
    same]
  simp

/-! ## The lines -/

theorem lines_recorded (run : Run) (result : Result) :
    run.resultNotices result = (Event.recorded run.workflow result).lines := by
  simp only [resultNotices, Event.lines, Result.isFailure, beq_iff_eq]
  rfl

/-- The line of a request that goes out, at a place that is one of a loop if the run is in one. -/
theorem lines_sent {request : Request} {layer : TextMap}
    (here : ∀ loop, run.loop = some loop →
      position = ⟨loop.cursor, loop.total⟩ ∧ loop.total ≠ 0)
    (outside : run.loop = none → position = .none) :
    [run.sendNotice request position] =
      (Event.sent run.workflow (run.outgoing setting token request layer loopVars)
        run.place?).lines := by
  have hnote : progress position = placeNote run.place? := by
    cases hloop : run.loop with
    | none =>
      rw [outside hloop, place?, hloop]
      rfl
    | some loop =>
      obtain ⟨hposition, htotal⟩ := here loop hloop
      rw [hposition, place?, hloop, progress, if_neg htotal]
      rfl
  rw [sendNotice, hnote]
  rfl

end Run

/-! ## Rounds -/

/-- A round of a run with the results `before` tells just of what it does. -/
def Round.Tells (before : List Result) (round : Round) : Prop :=
  round.notices = (round.run.happened before round.dispatch?).flatMap Event.lines

namespace Run

variable {setting : Setting} {token : Nat} {texts loopVars : TextMap} {position : Position}
  {run : Run}

/-- A round that does nothing tells nothing. -/
theorem tells_nothing (run : Run) : (Round.finished run []).Tells run.results :=
  (congrArg (List.flatMap Event.lines) run.happened_self).symm

/-- The line of a result that is recorded. -/
theorem tells_settled (run : Run) (result : Result) :
    ((Attempt.settled run result).round goOn).Tells run.results := by
  obtain ⟨hquiet, hresults, -, -⟩ := round_settled run result
  have hworkflow : ((Attempt.settled run result).round goOn).run.workflow = run.workflow :=
    settled_induction (P := fun later => later.workflow = run.workflow) rfl
      fun _ => workflow_of_basis (basis_goOn _)
  have hnotices : ((Attempt.settled run result).round goOn).notices = run.resultNotices result := by
    simp only [Attempt.round, settle]
    split <;> rfl
  rw [Round.Tells, happened_of_results hresults, hquiet, hworkflow, hnotices, lines_recorded]
  simp

/-- Trying a step tells of the result or of the request that comes of it. -/
theorem tells_attempt {attempt : Attempt}
    (here : ∀ loop, run.loop = some loop →
      position = ⟨loop.cursor, loop.total⟩ ∧ loop.total ≠ 0)
    (outside : run.loop = none → position = .none)
    (tried : attempt.Through setting token texts loopVars position run) :
    (attempt.round goOn).Tells run.results := by
  cases tried with
  | early branch result => exact tells_settled { run with branch } result
  | @looping loop => exact tells_nothing { run with loop := some loop }
  | @sends branch key request =>
    cases hlayer : Template.renderMap
        (Run.scope { run with branch } setting (some request) .empty loopVars) texts with
    | error e =>
      simp only [attemptSend, send, hlayer]
      exact tells_settled { run with branch } _
    | ok layer =>
      have hline := @lines_sent setting token loopVars position
        (Run.waiting { run with branch } token request layer position) request layer here outside
      simp only [attemptSend, send, hlayer, Round.Tells, Attempt.round, Round.notices, Round.run,
        Round.dispatch?, happened, List.drop_length, List.map_nil, List.nil_append,
        Option.map_some, Option.toList_some, List.flatMap_cons, List.flatMap_nil, List.append_nil]
      exact hline

/-- A round tells of the results that it records and of the request that it sends. -/
theorem tells_round (run : Run) (setting : Setting) (token : Nat) :
    (run.round setting token).Tells run.results := by
  cases hcanceled : run.isCanceled with
  | true =>
    rw [round_of_canceled hcanceled]
    exact tells_nothing run
  | false =>
    refine round_cases hcanceled (fun _ _ => tells_nothing run) (fun step hloop _ => ?_)
      (fun loop _ _ => tells_nothing run.leaveLoop)
      (fun loop item _ _ _ => tells_nothing (run.beginItem loop item).leaveLoop)
      fun loop item part _ hitem _ => ?_
    · have tried : (attempt { run with branch := none } setting token step).Through setting token
          step.vars .empty .none { run with branch := none } := through_attempt step
      have hplace : ∀ loop, Run.loop { run with branch := none } = some loop →
          Position.none = ⟨loop.cursor, loop.total⟩ ∧ loop.total ≠ 0 := by
        intro loop hinside
        cases hloop.symm.trans hinside
      have htells := tells_attempt hplace (fun _ => rfl) tried
      exact htells
    · have tried : ((run.beginItem loop item).attemptItem setting token part
          (OrderedMap.empty.insert loop.var item) ⟨loop.cursor + 1, loop.total⟩).Through setting
            token part.vars _ ⟨loop.cursor + 1, loop.total⟩ (run.beginItem loop item) :=
        through_attemptItem part
      have hlt : loop.cursor < loop.total := (List.getElem?_eq_some_iff.1 hitem).1
      have hplace : ∀ begun, (run.beginItem loop item).loop = some begun →
          (⟨loop.cursor + 1, loop.total⟩ : Position) = ⟨begun.cursor, begun.total⟩ ∧
            begun.total ≠ 0 := by
        rintro _ ⟨⟩
        exact ⟨rfl, Nat.ne_of_gt (Nat.lt_of_le_of_lt (Nat.zero_le _) hlt)⟩
      have htells := tells_attempt hplace (by rintro ⟨⟩) tried
      exact htells

end Run

/-! ## From one request to the next -/

/-- A transition of a run with the results `before` tells just of what has happened. -/
def Transition.Tells (before : List Result) (transition : Transition) : Prop :=
  transition.notices =
    (transition.run.happened before transition.dispatch).flatMap Event.lines

namespace Run

variable {setting : Setting} {token : Nat} {run : Run}

/-- What is told of one part after the other is told of both. -/
theorem tells_announce {before : List Result} {notices : List Notice} {transition : Transition}
    (first : notices = (run.happened before none).flatMap Event.lines)
    (h : before <+: run.results) (h' : run.results <+: transition.run.results)
    (same : transition.run.workflow = run.workflow) (second : transition.Tells run.results) :
    (transition.announce notices).Tells before := by
  show notices ++ transition.notices = _
  rw [first, second, ← List.flatMap_append, happened_trans h h' same]
  rfl

/-- On its way to the next request a run tells of the results that are recorded and of the request.
-/
theorem tells_advance (run : Run) (setting : Setting) (token : Nat) :
    (run.advance setting token).Tells run.results := by
  fun_induction advance run setting token with
  | case1 run next notices hround ih =>
    have htells := tells_round run setting token
    have hprefix := (precedes_round run setting token).keeps
    rw [hround] at htells hprefix
    exact tells_announce htells hprefix (precedes_advance next setting token).keeps
      (workflow_of_basis (basis_advance next setting token)) ih
  | case2 run sent dispatch notices hround =>
    have htells := tells_round run setting token
    rw [hround] at htells
    exact htells
  | case3 run finished notices hround =>
    have htells := tells_round run setting token
    rw [hround] at htells
    exact htells

/-- So it does over a reply. -/
theorem tells_resume (run : Run) (setting : Setting) (token : Nat) (pending : Pending)
    (reply : Reply) : (run.resume setting token pending reply).Tells run.results := by
  cases hcancellation : run.cancellation with
  | some cancellation =>
    have hresults : (run.resume setting token pending reply).run.results =
        run.results ++ [canceledResult pending reply cancellation.reason] := by
      simp only [resume, hcancellation]
      rfl
    rw [Transition.Tells, happened_of_results hresults]
    simp [resume, hcancellation, Event.lines, canceledResult]
  | none =>
    have hrecorded : (run.record (run.replyResult pending reply)).results =
        run.results ++ [run.replyResult pending reply] := rfl
    have hline : run.resultNotices (run.replyResult pending reply) =
        ((run.record (run.replyResult pending reply)).goOn.happened run.results none).flatMap
          Event.lines := by
      rw [happened_of_results ((results_goOn _).trans hrecorded), lines_recorded,
        workflow_of_basis (basis_goOn _)]
      simp [record]
    rw [resume_eq hcancellation]
    split
    · rw [Transition.Tells, happened_of_results hrecorded, lines_recorded]
      simp [record]
    · refine tells_announce hline ?_ (precedes_advance _ setting token).keeps
        (workflow_of_basis (basis_advance _ setting token)) (tells_advance _ setting token)
      rw [results_goOn]
      exact prefix_record run _

end Run

end RequestFlow
