import RequestFlow.Proofs.Session.Exchange
import RequestFlow.Proofs.Walk.Basic

/-!
# An exchange goes as a walk

A session suspends at every request and comes back to its run with the reply, its place held by the
index of the step, the cursor of the loop and the request that is out. A walk holds none of them.
Yet an exchange in which nobody cancels sends the requests of a walk and ends with its results.

* `Plan.leads_of_matches`: where trying a step matches a part of a walk, the exchange goes the same
  way, and on to the same place;
* `Plan.leads_items`, `Plan.leads_step`: so it does over the items of a loop and over a step;
* `Plan.tells_walk`: the exchange tells of the walk over the whole workflow.
-/

namespace RequestFlow

namespace Exchange

variable {σ : Type}

/-- The exchange ends with a report: it sent these requests, and the report has these results. -/
structure Tells (exchange : Exchange σ) (dispatches : List Dispatch) (results : List Result) :
    Prop where
  dispatches : exchange.dispatches = dispatches
  completed : ∃ report, exchange.answer = .completed report ∧ report.results = results

/-- The exchange goes as a part of a walk that comes after `sent` requests and earlier results: it
ends where the walk is stopped, and otherwise goes on as `next` from there. -/
structure Leads (exchange : Exchange σ) (walk : Walk) (sent : Nat) (earlier : List Result)
    (next : Nat → TextMap → List Result → Exchange σ) : Prop where
  stopped : walk.stopped = true → exchange.Tells walk.dispatches (earlier ++ walk.results)
  goesOn : walk.stopped = false → exchange =
    (next (sent + walk.dispatches.length) walk.vars (earlier ++ walk.results)).behind
      walk.dispatches

theorem behind_append (exchange : Exchange σ) (first second : List Dispatch) :
    exchange.behind (first ++ second) = (exchange.behind second).behind first := by
  simp only [behind, List.append_assoc]

theorem tells_behind {exchange : Exchange σ} {dispatches : List Dispatch} {results : List Result}
    (h : exchange.Tells dispatches results) (before : List Dispatch) :
    (exchange.behind before).Tells (before ++ dispatches) results :=
  ⟨congrArg (before ++ ·) h.dispatches, h.completed⟩

section AndThen

variable {exchange : Exchange σ} {walk : Walk} {follow : Walk → Walk} {sent : Nat}
  {earlier : List Result} {middle next : Nat → TextMap → List Result → Exchange σ}

/-- Two parts of a walk, one after the other. -/
theorem leads_andThen (h : exchange.Leads walk sent earlier middle)
    (hfollow : (middle (sent + walk.dispatches.length) walk.vars (earlier ++ walk.results)).Leads
      (follow walk) (sent + walk.dispatches.length) (earlier ++ walk.results) next) :
    exchange.Leads (walk.andThen follow) sent earlier next := by
  unfold Walk.andThen
  split
  · rename_i hstopped
    exact ⟨fun _ => h.stopped hstopped, fun hgoes => by simp [hstopped] at hgoes⟩
  · rename_i hgoes
    refine ⟨fun hstopped => ?_, fun hnext => ?_⟩
    · rw [h.goesOn (by simpa using hgoes), ← List.append_assoc]
      exact tells_behind (hfollow.stopped hstopped) _
    · rw [h.goesOn (by simpa using hgoes), hfollow.goesOn hnext, ← behind_append,
        List.length_append, ← Nat.add_assoc, ← List.append_assoc]

/-- The last part of a walk. -/
theorem tells_andThen (h : exchange.Leads walk sent earlier middle)
    (hfollow : (middle (sent + walk.dispatches.length) walk.vars (earlier ++ walk.results)).Tells
      (follow walk).dispatches (earlier ++ walk.results ++ (follow walk).results)) :
    exchange.Tells (walk.andThen follow).dispatches (earlier ++ (walk.andThen follow).results) := by
  unfold Walk.andThen
  split
  · rename_i hstopped
    exact h.stopped hstopped
  · rename_i hgoes
    rw [h.goesOn (by simpa using hgoes), ← List.append_assoc]
    exact tells_behind hfollow _

end AndThen

end Exchange

namespace Plan

/-- The run that a plan is at. -/
def runAt (plan : Plan) (index : Nat) (branch : Option String) (vars : TextMap)
    (earlier : List Result) (loop : Option Loop) : Run where
  workflow := plan.workflow
  origin := plan.origin
  environment := plan.environment
  environmentVars := plan.environmentVars
  index := index
  results := earlier
  vars := vars
  loop := loop
  branch := branch

/-- The exchange from a run on, after `sent` requests. -/
def exchangeFrom {σ : Type} (plan : Plan) (session : Session σ) (sent : Nat) (run : Run) :
    Exchange σ :=
  { session with nextToken := plan.firstToken + sent }.proceed { reply := plan.reply } sent run

end Plan

/-- What trying a step comes to, outside of loops or within one, is a part of a walk: that of one
result at a place. -/
inductive Attempt.Matches (plan : Plan) (place : Place) (sent : Nat) (vars : TextMap)
    (earlier : List Result) (loop : Option Loop) : Attempt → Walk → Prop where
  | settled {result : Result} (step : result.step = place.index) :
      Matches plan place sent vars earlier loop
        (.settled (plan.runAt place.index place.branch vars earlier loop) result)
        (plan.settle place vars result)
  | sent {request : Request} {layer : TextMap} {notice : Notice} :
      Matches plan place sent vars earlier loop
        (.sent
          ((plan.runAt place.index place.branch vars earlier loop).waiting (plan.firstToken + sent)
            request layer place.position)
          (((plan.runAt place.index place.branch vars earlier loop).waiting (plan.firstToken + sent)
            request layer place.position).outgoing plan.setting (plan.firstToken + sent) request
            layer place.loopVars) notice)
        (plan.answered place sent (vars.overlay layer) layer request)

namespace Plan

variable {σ : Type} {plan : Plan} {place : Place} {sent : Nat} {vars : TextMap}
  {earlier : List Result} {loop : Option Loop}

/-! ## Trying a step matches a part of the walk -/

theorem scope_runAt {index : Nat} {branch : Option String} (request : Option Request)
    (stepVars loopVars : TextMap) :
    (plan.runAt index branch vars earlier loop).scope plan.setting request stepVars loopVars =
      plan.scope vars request stepVars loopVars := rfl

section Matching

variable (hstep : plan.workflow.steps[place.index]? = some place.step)
include hstep

theorem stepLabel_runAt (branch : Option String) :
    (plan.runAt place.index branch vars earlier loop).stepLabel = place.step.label := by
  show (plan.workflow.steps[place.index]?.map Step.label).getD "" = _
  rw [hstep]
  rfl

/-- A failure on the way to a request, or before one is known. -/
theorem matches_failure (request : Option Request) (message : String) :
    (Attempt.settled (plan.runAt place.index place.branch vars earlier loop)
      { (plan.runAt place.index place.branch vars earlier loop).failure message place.position with
        request := request.map Request.name }).Matches plan place sent vars earlier loop
      (plan.settle place vars (place.failure request message)) := by
  rw [Run.failure, stepLabel_runAt hstep]
  exact .settled rfl

/-- A passing over on the way to a request, or before one is known. -/
theorem matches_skip (request : Option Request) (message : String) :
    (Attempt.settled (plan.runAt place.index place.branch vars earlier loop)
      { (plan.runAt place.index place.branch vars earlier loop).skip message place.position with
        request := request.map Request.name }).Matches plan place sent vars earlier loop
      (plan.settle place vars (place.skip request message)) := by
  rw [Run.skip, stepLabel_runAt hstep]
  exact .settled rfl

theorem matches_send (request : Request) (stepVars : TextMap) :
    ((plan.runAt place.index place.branch vars earlier loop).attemptSend plan.setting
      (plan.firstToken + sent) request stepVars place.loopVars place.position).Matches plan place
      sent vars earlier loop (plan.send place sent vars request stepVars) := by
  unfold Run.attemptSend Run.send send
  rw [scope_runAt]
  cases Template.renderMap (plan.scope vars (some request) .empty place.loopVars) stepVars with
  | error e => exact matches_failure hstep request _
  | ok layer => exact .sent

theorem matches_guarded (request : Request) (part : RequestStep) :
    ((plan.runAt place.index place.branch vars earlier loop).attemptGuarded plan.setting
      (plan.firstToken + sent) request part place.loopVars place.position).Matches plan place sent
      vars earlier loop (plan.guarded place sent vars request part) := by
  unfold Run.attemptGuarded Run.guardResult? guarded
  cases part.guard with
  | none => exact matches_send hstep request part.vars
  | some guard =>
    simp only [Option.bind_some, scope_runAt]
    cases plan.setting.evaluator.condition guard
        (plan.scope vars (some request) .empty place.loopVars) with
    | error e => exact matches_failure hstep request _
    | ok holds =>
      cases holds with
      | true => exact matches_send hstep request part.vars
      | false => exact matches_skip hstep request _

theorem matches_action (label : String) (action : Action) (stepVars : TextMap)
    (hposition : place.position = .none) (hloopVars : place.loopVars = .empty) :
    ((plan.runAt place.index place.branch vars earlier loop).attemptAction plan.setting
      (plan.firstToken + sent) label action stepVars).Matches plan place sent vars earlier loop
      (plan.action place sent vars label action stepVars) := by
  obtain ⟨index, step, position, branch, loopVars⟩ := place
  obtain rfl : position = .none := hposition
  obtain rfl : loopVars = .empty := hloopVars
  unfold Run.attemptAction Plan.action
  cases action.meaning with
  | fail message => exact matches_failure hstep none _
  | nothing => exact matches_failure hstep none _
  | run target =>
    cases hknown : plan.setting.requests.get? target with
    | none =>
      simp only [hknown]
      exact matches_failure hstep none _
    | some request =>
      simp only [hknown]
      exact matches_send hstep request stepVars

end Matching

/-! ## The exchange over one result -/

theorem stopsAt_runAt {branch : Option String} {result : Result}
    (hstep : plan.workflow.steps[place.index]? = some place.step)
    (hplace : result.step = place.index) :
    (plan.runAt place.index branch vars earlier loop).stopsAt result =
      result.stops (plan.workflow.policyFor place.step) := by
  show result.stops (plan.workflow.policyAt result.step) = _
  rw [hplace, Run.policyAt_of_step hstep]

theorem record_runAt {index : Nat} {branch : Option String} {result : Result}
    (hstop : (plan.runAt index branch vars earlier loop).stopsAt result = false) :
    (plan.runAt index branch vars earlier loop).record result =
      plan.runAt index branch vars (earlier ++ [result]) loop := by
  rw [Run.record, hstop, Bool.false_and, if_neg Bool.false_ne_true]
  rfl

/-- The request that goes out at a place. -/
theorem outgoing_runAt {request : Request} {layer : TextMap}
    (hstep : plan.workflow.steps[place.index]? = some place.step) :
    ((plan.runAt place.index place.branch vars earlier loop).waiting (plan.firstToken + sent)
      request layer place.position).outgoing plan.setting (plan.firstToken + sent) request layer
      place.loopVars = plan.dispatch place sent (vars.overlay layer) layer request := by
  have hlabel : (plan.runAt place.index place.branch vars earlier loop).stepLabel =
      place.step.label := stepLabel_runAt hstep place.branch
  have hwaiting : ((plan.runAt place.index place.branch vars earlier loop).waiting
      (plan.firstToken + sent) request layer place.position).stepLabel = place.step.label := hlabel
  rw [Run.outgoing, hwaiting]
  rfl

/-- The reply to the request that went out at a place. -/
theorem replyResult_runAt {token : Nat} {request : Request}
    (hstep : plan.workflow.steps[place.index]? = some place.step)
    (hplain : place.branch = none ∨ (loop = none ∧ place.step.requestPart? = none))
    (reply : Reply) :
    (plan.runAt place.index place.branch vars earlier loop).replyResult
      ((plan.runAt place.index place.branch vars earlier loop).awaited token request place.position)
      reply = place.answer request reply := by
  have hexpected : (plan.runAt place.index place.branch vars earlier loop).expectation?
      ((plan.runAt place.index place.branch vars earlier loop).awaited token request
        place.position) = place.step.requestPart? := by
    show (if place.branch.isSome then none
      else plan.workflow.steps[place.index]?.bind Step.requestPart?) = _
    rw [hstep]
    rcases hplain with hbranch | ⟨-, hpart⟩
    · rw [hbranch]
      rfl
    · rw [hpart, Option.bind_some, hpart, ite_self]
  rw [Run.replyResult, hexpected, Run.awaited, stepLabel_runAt hstep]
  rfl

section Leading

variable {session : Session σ}

/-- The branch that was taken last is forgotten when the run goes on. -/
theorem exchangeFrom_goOn {index : Nat} {branch : Option String}
    (hplain : branch = none ∨ loop = none) :
    plan.exchangeFrom session sent (plan.runAt index branch vars earlier loop).goOn =
      plan.exchangeFrom session sent (plan.runAt index none vars earlier loop).goOn := by
  rcases hplain with hbranch | hloop
  · rw [hbranch]
  · rw [hloop]
    have hnext : (plan.runAt (index + 1) none vars earlier none).loop = none := rfl
    exact Session.proceed_branch _ _ _ hnext branch

section Result

variable {run : Run} (hsetting : session.setting = plan.setting)
  (hstep : plan.workflow.steps[place.index]? = some place.step)
include hsetting hstep

/-- A result without a request ends the exchange, or the run goes on after it. -/
theorem leads_settled {result : Result} (hplain : place.branch = none ∨ loop = none)
    (hplace : result.step = place.index)
    (hround : run.round plan.setting (plan.firstToken + sent) =
      (plan.runAt place.index place.branch vars earlier loop).settle result Run.goOn) :
    (plan.exchangeFrom session sent run).Leads (plan.settle place vars result) sent earlier
      fun sent vars earlier =>
        plan.exchangeFrom session sent (plan.runAt place.index none vars earlier loop).goOn := by
  rw [← hsetting] at hround
  have hstops : (plan.runAt place.index place.branch vars earlier loop).stopsAt result =
      result.stops (plan.workflow.policyFor place.step) := stopsAt_runAt hstep hplace
  refine ⟨fun hstopped => ?_, fun hgoes => ?_⟩
  · have hstop := hstops.trans hstopped
    rw [Run.settle, if_pos hstop] at hround
    obtain ⟨final, hfinished⟩ := Session.proceed_finished
      { session with nextToken := plan.firstToken + sent } { reply := plan.reply } sent hround rfl
    rw [exchangeFrom, hfinished]
    exact ⟨rfl, _, rfl, rfl⟩
  · have hstop := hstops.trans hgoes
    rw [Run.settle, hstop, if_neg Bool.false_ne_true, record_runAt hstop] at hround
    rw [exchangeFrom, Session.proceed_next
      { session with nextToken := plan.firstToken + sent } _ _ hround]
    exact exchangeFrom_goOn hplain

/-- A request and its reply end the exchange, or the run goes on after them. -/
theorem leads_answered {layer : TextMap} {request : Request} {notices : List Notice}
    (hplain : place.branch = none ∨ (loop = none ∧ place.step.requestPart? = none))
    (hround : run.round plan.setting (plan.firstToken + sent) =
      .sent ((plan.runAt place.index place.branch vars earlier loop).waiting
        (plan.firstToken + sent) request layer place.position)
        (plan.dispatch place sent (vars.overlay layer) layer request) notices) :
    (plan.exchangeFrom session sent run).Leads
      (plan.answered place sent (vars.overlay layer) layer request) sent earlier
      fun sent vars earlier =>
        plan.exchangeFrom session sent (plan.runAt place.index none vars earlier loop).goOn := by
  rw [← hsetting] at hround
  -- The run without the request that was out: only its variables have changed.
  let here := plan.runAt place.index place.branch (vars.overlay layer) earlier loop
  let pending := here.awaited (plan.firstToken + sent) request place.position
  let dispatch := plan.dispatch place sent (vars.overlay layer) layer request
  have hresult : here.replyResult pending (plan.reply sent dispatch) =
      place.answer request (plan.reply sent dispatch) := replyResult_runAt hstep hplain _
  have hstops : here.stopsAt (here.replyResult pending (plan.reply sent dispatch)) =
      (plan.answered place sent (vars.overlay layer) layer request).stopped := by
    rw [hresult]
    exact stopsAt_runAt hstep rfl
  refine ⟨fun hstopped => ?_, fun hgoes => ?_⟩
  · obtain ⟨final, hend⟩ := Session.proceed_stopped
      { session with nextToken := plan.firstToken + sent } { reply := plan.reply } sent hround
      rfl rfl rfl rfl rfl (hstops.trans hstopped)
    rw [exchangeFrom, hend]
    exact ⟨rfl, _, rfl, congrArg (earlier ++ [·]) hresult⟩
  · have hrecord := record_runAt (hstops.trans hgoes)
    rw [hresult] at hrecord
    rw [exchangeFrom, Session.proceed_answered
      { session with nextToken := plan.firstToken + sent } { reply := plan.reply } sent hround
      rfl rfl rfl rfl (hstops.trans hgoes)]
    show (plan.exchangeFrom session (sent + 1)
      (here.record (here.replyResult pending (plan.reply sent dispatch))).goOn).behind
        [dispatch] = _
    rw [hresult, hrecord, exchangeFrom_goOn (hplain.imp_right And.left)]
    rfl

end Result

/-- Where trying a step matches a part of a walk, the exchange goes the same way, and comes to the
next step or item. -/
theorem leads_of_matches (place : Place) {run : Run} {attempt : Attempt} {walk : Walk}
    (hsetting : session.setting = plan.setting)
    (hstep : plan.workflow.steps[place.index]? = some place.step)
    (hplain : place.branch = none ∨ (loop = none ∧ place.step.requestPart? = none))
    (hround : run.round plan.setting (plan.firstToken + sent) = attempt.round Run.goOn)
    (h : attempt.Matches plan place sent vars earlier loop walk) :
    (plan.exchangeFrom session sent run).Leads walk sent earlier fun sent vars earlier =>
      plan.exchangeFrom session sent (plan.runAt place.index none vars earlier loop).goOn := by
  cases h with
  | settled hplace =>
    exact leads_settled hsetting hstep (hplain.imp_right And.left) hplace hround
  | sent =>
    rw [Attempt.round, outgoing_runAt hstep] at hround
    exact leads_answered hsetting hstep hplain hround

/-! ## The exchange over the items of a loop -/

/-- The loop over items of which some have been begun. -/
def loopAt (plan : Plan) (index : Nat) (var : String) (items : List String) (cursor : Nat) :
    Loop where
  step := index
  items := items
  cursor := cursor
  var := var
  binds := plan.origin == .workflow

/-- The exchange from a place between two rounds on. -/
def exchangeAt (plan : Plan) (session : Session σ) (index : Nat) (loop : Option Loop) (sent : Nat)
    (vars : TextMap) (earlier : List Result) : Exchange σ :=
  plan.exchangeFrom session sent (plan.runAt index none vars earlier loop)

variable {request : Request} {part : RequestStep} {var : String} {items : List String}
  {cursor : Nat} {item : String}

/-- A round within a loop tries the step for the next item. -/
theorem round_item (hstep : plan.workflow.steps[place.index]? = some place.step)
    (hpart : place.step.requestPart? = some part)
    (hknown : plan.setting.requests.get? part.targetName = some request)
    (hitem : items[cursor]? = some item) (token : Nat) :
    (plan.runAt place.index none vars earlier
      (some (plan.loopAt place.index var items cursor))).round plan.setting token =
    ((plan.runAt place.index none (if plan.origin = .workflow then vars.insert var item else vars)
      earlier (some (plan.loopAt place.index var items (cursor + 1)))).attemptGuarded plan.setting
        token request part (OrderedMap.empty.insert var item)
        ⟨cursor + 1, items.length⟩).round Run.goOn := by
  have hplace : (plan.runAt place.index none vars earlier
      (some (plan.loopAt place.index var items cursor))).step?.bind Step.requestPart? =
        some part := by
    show plan.workflow.steps[place.index]?.bind Step.requestPart? = some part
    rw [hstep, Option.bind_some, hpart]
  have hbegun : (plan.runAt place.index none vars earlier
      (some (plan.loopAt place.index var items cursor))).beginItem
        (plan.loopAt place.index var items cursor) item =
      plan.runAt place.index none (if plan.origin = .workflow then vars.insert var item else vars)
        earlier (some (plan.loopAt place.index var items (cursor + 1))) := by
    unfold Run.beginItem loopAt
    cases plan.origin <;> rfl
  rw [Run.round_of_item rfl rfl hitem hplace, hbegun, Run.attemptItem, hknown]
  rfl

/-- The exchange over one item. -/
theorem leads_item (hsetting : session.setting = plan.setting)
    (hstep : plan.workflow.steps[place.index]? = some place.step) (hbranch : place.branch = none)
    (hpart : place.step.requestPart? = some part)
    (hknown : plan.setting.requests.get? part.targetName = some request)
    (hitem : items[cursor]? = some item) :
    let here := { place with
      position := ⟨cursor + 1, items.length⟩, loopVars := OrderedMap.empty.insert var item }
    let bound := if plan.origin = .workflow then vars.insert var item else vars
    (plan.exchangeAt session place.index (some (plan.loopAt place.index var items cursor)) sent vars
      earlier).Leads (plan.guarded here sent bound request part) sent earlier
        (plan.exchangeAt session place.index
          (some (plan.loopAt place.index var items (cursor + 1)))) := by
  intro here bound
  have hplace : plan.workflow.steps[here.index]? = some here.step := hstep
  have hhere : here.branch = none := hbranch
  have hmatches : ((plan.runAt here.index none bound earlier
      (some (plan.loopAt place.index var items (cursor + 1)))).attemptGuarded plan.setting
        (plan.firstToken + sent) request part here.loopVars here.position).Matches plan here sent
        bound earlier (some (plan.loopAt place.index var items (cursor + 1)))
        (plan.guarded here sent bound request part) := by
    rw [← hhere]
    exact matches_guarded hplace request part
  exact leads_of_matches here hsetting hplace (.inl hhere)
    (round_item hstep hpart hknown hitem _) hmatches

/-- The exchange over the items that are left of a loop. -/
theorem leads_items (place : Place) (hsetting : session.setting = plan.setting)
    (hstep : plan.workflow.steps[place.index]? = some place.step) (hbranch : place.branch = none)
    (hpart : place.step.requestPart? = some part)
    (hknown : plan.setting.requests.get? part.targetName = some request)
    (rest : List String) (hrest : items.drop cursor = rest) :
    (plan.exchangeAt session place.index (some (plan.loopAt place.index var items cursor)) sent vars
      earlier).Leads (plan.items place request part var items.length (cursor + 1) sent vars rest)
      sent earlier (plan.exchangeAt session (place.index + 1) none) := by
  -- On the items that are left: the cursor says where they stand among all of them.
  induction rest generalizing cursor sent vars earlier with
  | nil =>
    have hround : (plan.runAt place.index none vars earlier
        (some (plan.loopAt place.index var items cursor))).round session.setting
          (plan.firstToken + sent) =
        .next (plan.runAt (place.index + 1) none vars earlier none) [] :=
      Run.round_of_exhausted rfl rfl (List.getElem?_eq_none (List.drop_eq_nil_iff.1 hrest))
    refine ⟨nofun, fun _ => ?_⟩
    rw [exchangeAt, exchangeFrom, Session.proceed_next
      { session with nextToken := plan.firstToken + sent } _ _ hround]
    show _ = (plan.exchangeAt session (place.index + 1) none sent vars (earlier ++ [])).behind []
    rw [List.append_nil]
    rfl
  | cons item rest ih =>
    obtain ⟨hitem, hdrop⟩ := next_of_drop hrest
    rw [Plan.items]
    exact Exchange.leads_andThen (leads_item hsetting hstep hbranch hpart hknown hitem) (ih hdrop)

/-! ## The exchange over a step -/

variable {index : Nat} {step : Step}

/-- A step that is no loop has one result. -/
theorem leads_of_matches_step {attempt : Attempt} {walk : Walk}
    (hsetting : session.setting = plan.setting) (hstep : plan.workflow.steps[index]? = some step)
    (hround : (plan.runAt index none vars earlier none).round plan.setting
      (plan.firstToken + sent) = attempt.round Run.goOn)
    (h : attempt.Matches plan { index, step } sent vars earlier none walk) :
    (plan.exchangeAt session index none sent vars earlier).Leads walk sent earlier
      (plan.exchangeAt session (index + 1) none) :=
  leads_of_matches { index, step } hsetting hstep (.inl rfl) hround h

theorem leads_loop (hsetting : session.setting = plan.setting)
    (hstep : plan.workflow.steps[index]? = some step) (hpart : step.requestPart? = some part)
    (hknown : plan.setting.requests.get? part.targetName = some request) (spec : LoopSpec)
    (hround : (plan.runAt index none vars earlier none).round plan.setting
      (plan.firstToken + sent) =
        ((plan.runAt index none vars earlier none).attemptLoop plan.setting request spec).round
          Run.goOn) :
    (plan.exchangeAt session index none sent vars earlier).Leads
      (plan.loop { index, step } sent vars request part spec) sent earlier
      (plan.exchangeAt session (index + 1) none) := by
  unfold Run.attemptLoop at hround
  unfold Plan.loop
  rw [scope_runAt] at hround
  cases hitems : (plan.setting.evaluator spec.items
      (plan.scope vars (some request) .empty .empty)).bind Json.items with
  | error e =>
    rw [hitems] at hround
    exact leads_of_matches_step hsetting hstep hround (matches_failure hstep request _)
  | ok items =>
    rw [hitems] at hround
    cases items with
    | nil =>
      exact leads_of_matches_step hsetting hstep hround (matches_skip hstep request _)
    | cons item rest =>
      rw [← hsetting] at hround
      have hentered : plan.exchangeAt session index none sent vars earlier =
          plan.exchangeAt session index
            (some (plan.loopAt index (Text.trimmed spec.var) (item :: rest) 0)) sent vars earlier :=
        Session.proceed_next { session with nextToken := plan.firstToken + sent } _ _ hround
      rw [hentered]
      exact leads_items { index, step } hsetting hstep rfl hpart hknown (item :: rest)
        List.drop_zero

theorem leads_request (hsetting : session.setting = plan.setting)
    (hstep : plan.workflow.steps[index]? = some step) (hpart : step.requestPart? = some part)
    (own : Option LoopSpec)
    (hround : (plan.runAt index none vars earlier none).round plan.setting
      (plan.firstToken + sent) =
        ((plan.runAt index none vars earlier none).attemptRequest plan.setting
          (plan.firstToken + sent) part own).round Run.goOn) :
    (plan.exchangeAt session index none sent vars earlier).Leads
      (plan.request { index, step } sent vars part own) sent earlier
      (plan.exchangeAt session (index + 1) none) := by
  unfold Run.attemptRequest at hround
  unfold Plan.request
  cases hknown : plan.setting.requests.get? part.targetName with
  | none =>
    rw [hknown] at hround
    exact leads_of_matches_step hsetting hstep hround (matches_failure hstep none _)
  | some request =>
    rw [hknown] at hround
    cases hspec : own.or request.loop with
    | none =>
      simp only [hspec] at hround ⊢
      exact leads_of_matches_step hsetting hstep hround (matches_guarded hstep request part)
    | some spec =>
      simp only [hspec] at hround ⊢
      exact leads_loop hsetting hstep hpart hknown spec hround

theorem leads_choice (hsetting : session.setting = plan.setting)
    (hstep : plan.workflow.steps[index]? = some step) (hpart : step.requestPart? = none)
    (stepVars : TextMap) (missed : String) (choice : Choice)
    (hround : (plan.runAt index none vars earlier none).round plan.setting
      (plan.firstToken + sent) =
        ((plan.runAt index none vars earlier none).attemptChoice plan.setting
          (plan.firstToken + sent) stepVars missed choice).round Run.goOn) :
    (plan.exchangeAt session index none sent vars earlier).Leads
      (plan.choice { index, step } sent vars stepVars missed choice) sent earlier
      (plan.exchangeAt session (index + 1) none) := by
  cases choice with
  | failed message =>
    exact leads_of_matches_step hsetting hstep hround (matches_failure hstep none _)
  | nothing => exact leads_of_matches_step hsetting hstep hround (matches_skip hstep none _)
  | branch label action =>
    let place : Place := { index, step, branch := some label }
    have hplace : plan.workflow.steps[place.index]? = some place.step := hstep
    exact leads_of_matches place hsetting hplace (.inr ⟨rfl, hpart⟩) hround
      (matches_action hplace label action stepVars rfl rfl)

theorem leads_step (hsetting : session.setting = plan.setting)
    (hstep : plan.workflow.steps[index]? = some step) :
    (plan.exchangeAt session index none sent vars earlier).Leads
      (plan.step { index, step } sent vars) sent earlier
      (plan.exchangeAt session (index + 1) none) := by
  have hround : (plan.runAt index none vars earlier none).round plan.setting
      (plan.firstToken + sent) =
        ((plan.runAt index none vars earlier none).attempt plan.setting (plan.firstToken + sent)
          step).round Run.goOn := Run.round_of_step rfl rfl hstep
  cases step with
  | request part => exact leads_request hsetting hstep rfl none hround
  | forEach part own => exact leads_request hsetting hstep rfl own hround
  | conditional step => exact leads_choice hsetting hstep rfl step.vars _ _ hround
  | switch step => exact leads_choice hsetting hstep rfl step.vars _ _ hround

/-! ## The whole exchange -/

/-- The exchange over the steps that are left. -/
theorem tells_steps (hsetting : session.setting = plan.setting) (rest : List Step)
    (hrest : plan.workflow.steps.drop index = rest) :
    (plan.exchangeAt session index none sent vars earlier).Tells
      (plan.steps index sent vars rest).dispatches
      (earlier ++ (plan.steps index sent vars rest).results) := by
  -- On the steps that are left: the index says where they stand in the workflow.
  induction rest generalizing index sent vars earlier with
  | nil =>
    have hlast : (plan.runAt index none vars earlier none).step? = none :=
      List.getElem?_eq_none (List.drop_eq_nil_iff.1 hrest)
    obtain ⟨final, hend⟩ := Session.proceed_finished
      { session with nextToken := plan.firstToken + sent } { reply := plan.reply } sent
      (Run.round_of_last rfl rfl hlast) rfl
    rw [exchangeAt, exchangeFrom, hend]
    exact ⟨rfl, _, rfl, (List.append_nil earlier).symm⟩
  | cons step rest ih =>
    obtain ⟨hstep, hdrop⟩ := next_of_drop hrest
    exact Exchange.tells_andThen (leads_step hsetting hstep) (ih hdrop)

/-- The exchange over a workflow sends the requests of the walk, and ends with its results. -/
theorem tells_walk (plan : Plan) (hsetting : session.setting = plan.setting)
    (htoken : session.nextToken = plan.firstToken) :
    (session.proceed { reply := plan.reply } 0 (.start plan.workflow plan.origin plan.environment
      plan.environmentVars)).Tells plan.walk.dispatches plan.walk.results := by
  have hsession : { session with nextToken := plan.firstToken + 0 } = session := by
    rw [Nat.add_zero, ← htoken]
  have htells : (plan.exchangeAt session 0 none 0 plan.workflow.initialVariables []).Tells
      plan.walk.dispatches ([] ++ plan.walk.results) := tells_steps hsetting _ List.drop_zero
  rw [exchangeAt, exchangeFrom, hsession] at htells
  exact htells

end Leading

end Plan

namespace Session

variable {σ : Type}

/-- The plan of a run that a session begins. -/
def plan (session : Session σ) (workflow : Workflow) (origin : Origin) (environment : String)
    (environmentVars : TextMap) (reply : Nat → Dispatch → Reply) : Plan where
  setting := session.setting
  workflow := workflow
  origin := origin
  environment := environment
  environmentVars := environmentVars
  firstToken := session.nextToken
  reply := reply

/-- A run that a session begins tells of the walk of its plan. -/
theorem tells_plan (session : Session σ) (workflow : Workflow) (origin : Origin)
    (environment : String) (environmentVars : TextMap) (reply : Nat → Dispatch → Reply) :
    (session.proceed { reply } 0 (.start workflow origin environment environmentVars)).Tells
      (session.plan workflow origin environment environmentVars reply).walk.dispatches
      (session.plan workflow origin environment environmentVars reply).walk.results :=
  (session.plan workflow origin environment environmentVars reply).tells_walk rfl rfl

/-- An accepted start begins the run of its target; answered without a call to cancel, the session
sends the requests of the walk, one after the other, and ends with its results. -/
theorem converse_eq_walk {session : Session σ} {target : Target} {environment : String}
    {command : Command} (h : (Drive.start session target environment).answer = .ok command) :
    ∃ workflow origin vars, session.Accepts target environment workflow origin vars ∧
      ∀ reply : Nat → Dispatch → Reply,
        let exchange :=
          (Drive.start session target environment).session.converse { reply } 0 command
        let walk := (session.plan workflow origin environment vars reply).walk
        exchange.dispatches = walk.dispatches ∧
          ∃ report, exchange.answer = .completed report ∧ report.results = walk.results := by
  obtain ⟨workflow, origin, vars, haccepts, hconverse⟩ := converse_start h
  refine ⟨workflow, origin, vars, haccepts, fun reply => ?_⟩
  have htells := session.tells_plan workflow origin environment vars reply
  rw [hconverse]
  exact ⟨htells.dispatches, htells.completed⟩

/-- The first item of the loop fails and lets the run go on. -/
theorem converse_eq_walk_smoke :
    let reply (number : Nat) (_ : Dispatch) : Reply :=
      if number = 0 then .failed "refused" else .ofResponse { code := 200, status := "200 OK" }
    ∃ command, (Drive.start Smoke.session (.workflow "smoke") "").answer = .ok command ∧
      let exchange :=
        (Drive.start Smoke.session (.workflow "smoke") "").session.converse { reply } 0 command
      exchange.dispatches.map Dispatch.step = [0, 0, 1] ∧
        ∃ report, exchange.answer = .completed report ∧
          report.results.map Result.status = [.failed, .succeeded, .succeeded] := by
  intro reply
  obtain ⟨command, hcommand⟩ := answer_start_of_accepts Smoke.accepts
  obtain ⟨workflow, origin, vars, haccepts, hwalk⟩ := converse_eq_walk hcommand
  obtain ⟨rfl, rfl⟩ : Smoke.workflow = workflow ∧ Origin.workflow = origin := by
    simpa using Smoke.accepts.planned.symm.trans haccepts.planned
  obtain rfl : OrderedMap.empty = vars := by
    simpa using Smoke.accepts.declared.symm.trans haccepts.declared
  obtain ⟨hdispatches, report, hanswer, hresults⟩ := hwalk reply
  refine ⟨command, hcommand, ?_, report, hanswer, ?_⟩
  · rw [hdispatches]
    rfl
  · rw [hresults]
    rfl

end Session

end RequestFlow
