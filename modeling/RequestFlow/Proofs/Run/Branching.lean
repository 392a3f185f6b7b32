import RequestFlow.Proofs.Run.Branches

/-!
# Steps that branch

The round of a run at a step that branches does what the branch says that the step decides on. A
branch that fails on purpose, has nothing to run or cannot run it gives the step a result without a
request; any other branch sends one request, and the reply to it gives the step its result, which
still has the label of the branch. The expressions that the step evaluates are those, and only
those, on which the round depends: an error of one of them is what comes of the step, whatever the
later ones are.

* `Action.Runs`, `Action.Aimless`: what a branch that does not fail on purpose says to run;
* `Run.Settles`, `Run.Dispatches`: the two things that can come of a step that branches;
* `Run.Takes`: which of them comes of a choice;
* `Run.Branching`, `Run.branch_taken`: a round at a step that branches.
-/

namespace RequestFlow

/-- What is said of a step none of whose branches applies. -/
def Step.missed : Step → String
  | .conditional _ => "no @if branch matched"
  | .switch _ => "no @switch case matched"
  | .request _ | .forEach .. => ""

/-- A branch runs the request whose name is written there, but for the blanks around it. -/
structure Action.Runs (action : Action) (target : String) : Prop where
  plain : action.fail = none
  written : ∃ text, action.run = some text ∧ Text.isBlankText text = false ∧
    Text.trimmed text = target

/-- A branch has nothing to run where no name is written, or blanks are. -/
structure Action.Aimless (action : Action) : Prop where
  plain : action.fail = none
  blank : ∀ text, action.run = some text → Text.isBlankText text = true

namespace Run

/-- The values of expressions at a step that branches. -/
def values (run : Run) (setting : Setting) (text : String) : Except EvalError Json :=
  setting.evaluator text (run.scope setting none .empty .empty)

/-- The run stops at failures of the step under way: the step says so, or it says nothing and the
workflow does. -/
def StopsHere (run : Run) : Prop :=
  run.step?.bind Step.policy? = some .stop ∨
    run.step?.bind Step.policy? = none ∧ run.workflow.policy = .stop

/-- The step under way has a result without a request. The next step follows, unless the result is
a failure and the run stops at failures of the step. -/
structure Settles (run : Run) (status : Status) (branch : Option String) (message : String)
    (round : Round) : Prop where
  quiet : round.dispatch? = none
  recorded : ∃ result, round.run.results = run.results ++ [result] ∧ result.step = run.index ∧
    result.status = status ∧ result.branch = branch ∧ result.message = message
  stopped : status = .failed → run.StopsHere → ∃ notices, round = .finished round.run notices
  goesOn : ¬(status = .failed ∧ run.StopsHere) →
    ∃ notices, round = .next round.run notices ∧ round.run.index = run.index + 1

/-- A result for the request of a branch of the step under way. -/
structure Answers (run : Run) (label : String) (request : Request) (result : Result) : Prop where
  step : result.step = run.index
  branch : result.branch = some label
  request : result.request = some request.name

/-- The reply to the request of a branch gives the step its one result, and no other request of the
step goes out. -/
structure Concludes (run : Run) (label : String) (request : Request) (status : Status)
    (transition : Transition) : Prop where
  result : ∃ result later, transition.run.results = run.results ++ result :: later ∧
    run.Answers label request result ∧ result.status = status ∧
    ∀ other ∈ later, run.index < other.step
  once : ∀ dispatch, transition.dispatch = some dispatch →
    run.index < dispatch.step ∧ run.index < transition.run.index

/-- The request of a branch is out, with no result so far. The reply is judged without the
expectations of a step, and is a cancellation once the run has been called to stop. -/
structure Dispatches (run : Run) (token : Nat) (label : String) (request : Request)
    (round : Round) : Prop where
  dispatch : ∃ dispatch, round.dispatch? = some dispatch ∧ dispatch.token = token ∧
    dispatch.request = request ∧ dispatch.step = run.index
  results : round.run.results = run.results
  awaits : ∃ pending, round.run.pending = some pending ∧ pending.token = token ∧
    ∀ setting next cancellation reply,
      run.Concludes label request
        (if cancellation = none then (reply.verdict none .elapsed).status else .canceled)
        (resume { round.run with cancellation, pending := none } setting next pending reply)

/-- What comes of a choice. -/
inductive Takes (run : Run) (setting : Setting) (token : Nat) (step : Step) :
    Choice → Round → Prop where
  | failed {message : String} {round : Round} (settles : run.Settles .failed none message round) :
      Takes run setting token step (.failed message) round
  | nothing {round : Round} (settles : run.Settles .skipped none step.missed round) :
      Takes run setting token step .nothing round
  | forced {label message : String} {action : Action} {round : Round}
      (fails : action.fail = some message)
      (settles : run.Settles .failed (some label)
        (if Text.isBlankText message then "branch '" ++ label ++ "' forced a failure" else message)
        round) : Takes run setting token step (.branch label action) round
  | targetless {label : String} {action : Action} {round : Round} (aimless : action.Aimless)
      (settles : run.Settles .failed (some label) ("branch '" ++ label ++ "' has no run target")
        round) : Takes run setting token step (.branch label action) round
  | unknown {label target : String} {action : Action} {round : Round} (runs : action.Runs target)
      (absent : setting.requests.get? target = none)
      (settles : run.Settles .failed (some label)
        ("branch '" ++ label ++ "' runs unknown request '" ++ target ++ "'") round) :
      Takes run setting token step (.branch label action) round
  | unfilled {label target : String} {action : Action} {request : Request} {error : UnknownVariable}
      {round : Round} (runs : action.Runs target)
      (known : setting.requests.get? target = some request)
      (absent : Template.renderMap (run.scope setting (some request) .empty .empty) step.vars =
        .error error)
      (settles : run.Settles .failed (some label)
        ("step vars: unknown variable '" ++ error.name ++ "'") round) :
      Takes run setting token step (.branch label action) round
  | sent {label target : String} {action : Action} {request : Request} {layer : TextMap}
      {round : Round} (runs : action.Runs target)
      (known : setting.requests.get? target = some request)
      (filled : Template.renderMap (run.scope setting (some request) .empty .empty) step.vars =
        .ok layer) (sends : run.Dispatches token label request round) :
      Takes run setting token step (.branch label action) round

section

variable {setting : Setting} {token sent : Nat} {run : Run} {step : Step} {label : String}
  {request : Request}

/-! ## Results without a request -/

theorem settles_round {branch : Option String} {result : Result} (outside : run.loop = none)
    (early : result.Early { run with branch } .none) :
    run.Settles result.status branch result.message
      ((Attempt.settled { run with branch } result).round goOn) := by
  have hpolicy : run.workflow.policyAt run.index = .stop ↔ run.StopsHere :=
    Workflow.policyAt_eq_iff
  have hstops : stopsAt { run with branch } result = true ↔
      result.status = .failed ∧ run.StopsHere := by
    rw [← hpolicy, stopsAt, Result.stops, early.step]
    rcases early.status with hstatus | hstatus <;> simp [hstatus]
  have hnext : (record { run with branch } result).goOn.index = run.index + 1 := by
    have hloop : (record { run with branch } result).loop = none := outside
    rw [goOn, hloop]
    rfl
  have hresults : (record { run with branch } result).results = run.results ++ [result] := rfl
  simp only [Attempt.round, settle]
  by_cases hstop : result.status = .failed ∧ run.StopsHere
  · rw [if_pos (hstops.2 hstop)]
    exact ⟨rfl, ⟨result, hresults, early.step, rfl, early.branch, rfl⟩, fun _ _ => ⟨_, rfl⟩,
      fun hnot => absurd hstop hnot⟩
  · rw [if_neg (mt hstops.1 hstop)]
    exact ⟨rfl, ⟨result, (results_goOn _).trans hresults, early.step, rfl, early.branch, rfl⟩,
      fun hfailed hstops => absurd ⟨hfailed, hstops⟩ hstop, fun _ => ⟨_, rfl, hnext⟩⟩

theorem settles_failure {branch : Option String} (outside : run.loop = none) (message : String) :
    run.Settles .failed branch message
      ((Attempt.settled { run with branch } (failure { run with branch } message .none)).round
        goOn) :=
  settles_round outside (early_failure { run with branch } message .none)

/-! ## A request and its reply -/

theorem concludes_record {held : Run} {result : Result} (h : run.Answers label request result)
    (results : held.results = run.results) (notices : List Notice) :
    run.Concludes label request result.status ⟨held.record result, none, notices⟩ :=
  ⟨⟨result, [], results ▸ rfl, h, rfl, by simp⟩, by simp⟩

/-- After the result, what the run advances to is of later steps. -/
theorem concludes_goOn {held : Run} {result : Result} (h : run.Answers label request result)
    (outside : held.loop = none) (index : held.index = run.index)
    (results : held.results = run.results) (notices : List Notice) :
    run.Concludes label request result.status
      (((held.record result).goOn.advance setting token).announce notices) := by
  have hindex : (held.record result).goOn.index = run.index + 1 := by
    have hloop : (held.record result).loop = none := outside
    rw [goOn, hloop, ← index]
    rfl
  have hresults : (held.record result).goOn.results = run.results ++ [result] := by
    rw [results_goOn, ← results]
    rfl
  have hprecedes := precedes_advance (held.record result).goOn setting token
  have hpast := hprecedes.index
  obtain ⟨more, hmore, hlater⟩ := hprecedes.results
  rw [hindex] at hpast hlater
  refine ⟨⟨result, more, ?_, h, rfl, hlater⟩, fun dispatch hdispatch => ⟨?_, hpast⟩⟩
  · rw [hresults, List.append_assoc] at hmore
    exact hmore
  · have hstep := dispatch_advance hdispatch
    rw [hindex] at hstep
    exact hstep

/-- The label of the branch is kept with the request, and comes back with the reply. -/
theorem concludes_resume (run held : Run) (label : String) (request : Request) (reply : Reply)
    (outside : held.loop = none) (index : held.index = run.index)
    (results : held.results = run.results) :
    run.Concludes label request
      (if held.cancellation = none then (reply.verdict none .elapsed).status else .canceled)
      (held.resume setting token (awaited { run with branch := some label } sent request .none)
        reply) := by
  cases hcancellation : held.cancellation with
  | some cancellation =>
    have hresult : run.Answers label request (canceledResult (awaited { run with
        branch := some label } sent request .none) reply cancellation.reason) := ⟨rfl, rfl, rfl⟩
    have hstopped : run.results = Run.results { held with
        cancellation := some { cancellation with step := some run.index } } := results.symm
    simp only [resume, hcancellation, if_neg (Option.some_ne_none cancellation)]
    exact concludes_record hresult hstopped.symm []
  | none =>
    have hresult : run.Answers label request (held.replyResult (awaited { run with
        branch := some label } sent request .none) reply) := ⟨rfl, rfl, rfl⟩
    rw [resume_eq hcancellation, if_pos rfl]
    split
    · exact concludes_record hresult results _
    · exact concludes_goOn hresult outside index results _

theorem dispatches_waiting (outside : run.loop = none) (layer loopVars : TextMap)
    (notice : Notice) :
    let branched : Run := { run with branch := some label }
    run.Dispatches token label request
      ((Attempt.sent (branched.waiting token request layer .none)
        ((branched.waiting token request layer .none).outgoing setting token request layer
          loopVars) notice).round goOn) := by
  intro branched
  refine ⟨⟨_, rfl, rfl, rfl, rfl⟩, rfl, ⟨_, rfl, rfl, fun _ _ cancellation reply => ?_⟩⟩
  exact concludes_resume run { branched.waiting token request layer .none with
    cancellation, pending := none } label request reply outside rfl rfl

/-! ## What comes of a choice -/

theorem takes_attemptAction (outside : run.loop = none) (label : String) (action : Action) :
    run.Takes setting token step (.branch label action)
      ((attemptAction { run with branch := some label } setting token label action
        step.vars).round goOn) := by
  unfold attemptAction Action.meaning
  cases hfail : action.fail with
  | some message => exact .forced hfail (settles_failure outside _)
  | none =>
    cases htarget : action.target? with
    | none =>
      have haimless : action.Aimless := ⟨hfail, Action.target?_eq_none_iff.1 htarget⟩
      exact .targetless haimless (settles_failure outside _)
    | some target =>
      have hruns : action.Runs target := ⟨hfail, Action.target?_eq_some_iff.1 htarget⟩
      dsimp only
      cases hrequest : setting.requests.get? target with
      | none => exact .unknown hruns hrequest (settles_failure outside _)
      | some request =>
        have hscope : scope { run with branch := some label } setting (some request) .empty .empty =
          run.scope setting (some request) .empty .empty := rfl
        dsimp only [attemptSend, send]
        rw [hscope]
        cases hlayer : Template.renderMap (run.scope setting (some request) .empty .empty)
            step.vars with
        | error e =>
          have hearly := early_failure { run with branch := some label }
            ("step vars: unknown variable '" ++ e.name ++ "'") .none
          exact .unfilled hruns hrequest hlayer
            (settles_round outside (early_named hearly (some request.name)))
        | ok layer =>
          exact .sent hruns hrequest hlayer (dispatches_waiting outside layer .empty _)

theorem takes_attemptChoice (outside : run.loop = none) (choice : Choice) :
    run.Takes setting token step choice
      ((attemptChoice { run with branch := none } setting token step.vars step.missed
        choice).round goOn) := by
  cases choice with
  | failed message => exact .failed (settles_failure outside message)
  | nothing =>
    have hearly := early_skip { run with branch := none } step.missed .none
    exact .nothing (settles_round outside hearly)
  | branch label action => exact takes_attemptAction outside label action

/-- A step that branches is tried by its choice. -/
theorem attempt_of_branching (run : Run) (branching : step.requestPart? = none) :
    run.attempt setting token step =
      run.attemptChoice setting token step.vars step.missed
        (step.inquiry.choice (run.values setting)) := by
  cases step with
  | request => cases branching
  | forEach => cases branching
  | conditional step =>
    rw [← step.choose_eq]
    rfl
  | switch step =>
    rw [← step.choose_eq]
    rfl

theorem round_of_branching (h : run.isCanceled = false) (outside : run.loop = none)
    (next : run.step? = some step) (branching : step.requestPart? = none) :
    run.round setting token =
      (attemptChoice { run with branch := none } setting token step.vars step.missed
        (step.inquiry.choice (run.values setting))).round goOn := by
  rw [round_of_step h outside next, attempt_of_branching _ branching]
  rfl

end

/-- A round at a step that branches, which evaluates some expressions and so comes to a choice. -/
structure Branching (run : Run) (setting : Setting) (token : Nat) (step : Step)
    (asked : List String) (choice : Choice) : Prop where
  decides : step.Decides (run.values setting) asked choice
  only : ∀ others other, step.Decides (run.values setting) others other →
    others = asked ∧ other = choice
  /-- The evaluator is called once for each of the expressions, in order, and for no other. -/
  evaluates : step.Evaluates (run.values setting) asked choice
  takes : run.Takes setting token step choice (run.round setting token)
  /-- The round is the same whatever the values of other expressions are. -/
  unasked : ∀ evaluator : Evaluator,
    (∀ text ∈ asked, run.values { setting with evaluator } text = run.values setting text) →
      run.round { setting with evaluator } token = run.round setting token
  /-- Without a value for one of the expressions the step fails with the error, and the expressions
  after it are not evaluated. -/
  failing : ∀ evaluator before text after error, asked = before ++ text :: after →
    (∀ earlier ∈ before, run.values { setting with evaluator } earlier =
      run.values setting earlier) →
    run.values { setting with evaluator } text = .error error →
    ∃ front, step.Decides (run.values { setting with evaluator }) (before ++ [text])
        (.failed (front ++ error.message)) ∧
      run.Settles .failed none (front ++ error.message) (run.round { setting with evaluator } token)

variable {setting : Setting} {token : Nat} {run : Run} {step : Step}

theorem takes_round (h : run.isCanceled = false) (outside : run.loop = none)
    (next : run.step? = some step) (branching : step.requestPart? = none) :
    run.Takes setting token step (step.inquiry.choice (run.values setting))
      (run.round setting token) := by
  rw [round_of_branching h outside next branching]
  exact takes_attemptChoice outside _

/-- A run that enters a step that branches evaluates the expressions of the step up to the one that
decides, and takes the branch that this one decides on: it sends the request of the branch once, or
gives the step a result that says why it does not. -/
theorem branch_taken (h : run.isCanceled = false) (outside : run.loop = none)
    (next : run.step? = some step) (branching : step.requestPart? = none) :
    ∃ asked choice, run.Branching setting token step asked choice := by
  refine ⟨step.inquiry.asked (run.values setting), step.inquiry.choice (run.values setting),
    decides_inquiry branching, fun _ _ => Step.Decides.eq, evaluates_inquiry branching,
    takes_round h outside next branching,
    fun evaluator same => ?_, fun evaluator before text after error split same failing => ?_⟩
  · have hchoice := Inquiry.choice_congr same
    rw [round_of_branching h outside next branching, hchoice,
      round_of_branching h outside next branching]
    rfl
  · -- all that holds of the round holds with the other evaluator too, only that it is cut short
    obtain ⟨hasked, front, hchoice⟩ := (strict_inquiry step).cut split same failing
    have hdecides : step.Decides (run.values { setting with evaluator }) _ _ :=
      decides_inquiry branching
    have htakes : run.Takes { setting with evaluator } token step _ _ :=
      takes_round h outside next branching
    rw [hchoice] at hdecides htakes
    rw [hasked] at hdecides
    cases htakes with
    | failed settles => exact ⟨front, hdecides, settles⟩

/-- For example, a variable says whether the first branch is taken, whose request is then sent, or
the second one, which asks for the opposite and fails. What comes after is not evaluated. -/
theorem branch_taken_ready :
    let go : Request := { name := "go", url := "http://host/go" }
    let step : Step := .conditional {
      primary := some ⟨"ready", { run := some " go " }⟩
      alternatives := [⟨"!ready", { fail := some "" }⟩, ⟨"missing", { run := some "go" }⟩] }
    let run := start { name := "check", steps := [step] } .workflow "" .empty
    let setting (ready : String) : Setting :=
      ⟨.ofList [("ready", ready)], .ofList [("go", go)], evaluate⟩
    run.isCanceled = false ∧ run.loop = none ∧ run.step? = some step ∧ step.requestPart? = none ∧
      run.Branching (setting "true") 0 step ["ready"] (.branch "then" { run := some " go " }) ∧
      run.Dispatches 0 "then" go (run.round (setting "true") 0) ∧
      run.Branching (setting "false") 0 step ["ready", "!ready"]
        (.branch "elif 1" { fail := some "" }) ∧
      run.Settles .failed (some "elif 1") "branch 'elif 1' forced a failure"
        (run.round (setting "false") 0) := by
  intro go step run setting
  have hdecided {ready : String} {asked : List String} {choice : Choice}
      (hasked : step.inquiry.asked (run.values (setting ready)) = asked)
      (hchoice : step.inquiry.choice (run.values (setting ready)) = choice) :
      run.Branching (setting ready) 0 step asked choice := by
    obtain ⟨others, other, h⟩ :
        ∃ asked choice, run.Branching (setting ready) 0 step asked choice :=
      branch_taken rfl rfl rfl rfl
    obtain ⟨rfl, rfl⟩ := h.decides.eq
    rwa [hasked, hchoice] at h
  have hready : run.Branching (setting "true") 0 step ["ready"]
      (.branch "then" { run := some " go " }) := hdecided (by decide +kernel) (by decide +kernel)
  have hunready : run.Branching (setting "false") 0 step ["ready", "!ready"]
      (.branch "elif 1" { fail := some "" }) := hdecided (by decide +kernel) (by decide +kernel)
  refine ⟨rfl, rfl, rfl, rfl, hready, ?_, hunready, ?_⟩
  · have htakes := hready.takes
    generalize run.round (setting "true") 0 = round at htakes
    have hgo : (setting "true").requests.get? "go" = some go := by decide +kernel
    cases htakes with
    | forced fails => cases fails
    | targetless aimless => exact absurd (aimless.blank " go " rfl) (by decide)
    | unknown runs absent =>
      obtain ⟨_, ⟨⟩, -, rfl⟩ := runs.written
      cases hgo.symm.trans absent
    | unfilled runs known absent => cases absent
    | sent runs known filled sends =>
      obtain ⟨_, ⟨⟩, -, rfl⟩ := runs.written
      cases hgo.symm.trans known
      exact sends
  · have htakes := hunready.takes
    generalize run.round (setting "false") 0 = round at htakes
    cases htakes with
    | forced fails settles =>
      cases fails
      exact settles
    | targetless aimless => cases aimless.plain
    | unknown runs => cases runs.plain
    | unfilled runs => cases runs.plain
    | sent runs => cases runs.plain

end Run

end RequestFlow
