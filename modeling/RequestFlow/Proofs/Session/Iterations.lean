import RequestFlow.Proofs.Session.History
import RequestFlow.Proofs.Session.OneRequest
import RequestFlow.Proofs.Session.Replies
import RequestFlow.Proofs.Session.Variables
import RequestFlow.Proofs.Walk.Iterations

/-!
# Every item of a loop over a request

A loop over a request that is asked for by its name goes through all its items, one request for
each. Its run has no variables, from the start to the end, so each request goes out with what was in
scope at the start and its own item; a reply that is a failure ends nothing; and once the run is
over the store is what it was.

* `Workflow.Bare`, `Run.Scopeless`: workflows that write no variables, and runs that have none;
* `Session.lasting_scopeless`: the run of a loop over a request never has variables;
* `Session.converse_after`: an exchange leaves the session after the caller's replies;
* `Session.store_loop`: the run of a loop over a request leaves nothing in the store;
* `Session.walk_loopWorkflow`: the walk over such a loop;
* `Session.loop_iterates`: all of this, for every accepted start of a loop.
-/

namespace RequestFlow

open Text

/-! ## Runs without variables -/

/-- Neither the workflow nor one of its steps has variables of its own. -/
structure Workflow.Bare (workflow : Workflow) : Prop where
  initial : workflow.initialVariables = .empty
  steps : ∀ step ∈ workflow.steps, step.vars = .empty

theorem Session.bare_loopWorkflow (request : Request) (spec : LoopSpec) :
    (loopWorkflow request spec).Bare where
  initial := rfl
  steps step hstep := by
    rw [List.mem_singleton.1 hstep]
    rfl

/-- What came about by the name of a request is bare. -/
theorem Document.bare_of_planned {document : Document} {target : Target} {workflow : Workflow}
    (h : document.planned? target = some (workflow, .request)) : workflow.Bare := by
  cases target with
  | workflow name =>
    obtain ⟨_, -, heq⟩ := Option.map_eq_some_iff.1 h
    cases heq
  | loop name =>
    obtain ⟨request, -, hloop⟩ := Option.bind_eq_some_iff.1 h
    obtain ⟨spec, -, heq⟩ := Option.map_eq_some_iff.1 hloop
    cases heq
    exact Session.bare_loopWorkflow request spec

namespace Run

variable {setting : Setting} {token : Nat} {run : Run}

/-- A run that came about by the name of a request has no variables. -/
structure Scopeless (run : Run) : Prop where
  binds : run.Binds
  bare : run.origin = .request → run.workflow.Bare
  vars : run.origin = .request → run.vars = .empty

theorem itemVars_of_request (h : run.origin = .request) : run.itemVars = run.vars := by
  have horigin : run.origin ≠ .workflow := by
    rw [h]
    rintro ⟨⟩
  unfold itemVars
  split
  · rfl
  · rw [if_neg horigin]

theorem stepTexts_of_bare (h : run.workflow.Bare) : run.stepTexts = .empty := by
  cases hstep : run.step? with
  | none => rw [stepTexts, hstep]
  | some step =>
    rw [stepTexts_of_step hstep]
    exact h.steps step (List.mem_of_getElem? hstep)

/-- A round of such a run writes nothing. -/
theorem vars_round_of_bare (hbinds : run.Binds) (horigin : run.origin = .request)
    (hbare : run.workflow.Bare) : (run.round setting token).run.vars = run.vars := by
  have hflows : run.Flows setting (run.round setting token) := flows_round hbinds
  have hvars := itemVars_of_request horigin
  generalize run.round setting token = round at hflows
  cases hflows with
  | silent _ vars => exact vars.trans hvars
  | @sent sent dispatch notices key layer _ filled vars =>
    rw [stepTexts_of_bare hbare] at filled
    have hlayer : OrderedMap.empty = layer := Except.ok.inj filled
    rw [hvars, ← hlayer] at vars
    exact vars

theorem Scopeless.of_same {later : Run} (h : run.Scopeless) (hbinds : later.Binds)
    (same : later.basis = run.basis)
    (hvars : run.origin = .request → later.vars = run.vars) : later.Scopeless := by
  simp only [basis, Prod.mk.injEq] at same
  obtain ⟨hworkflow, horigin, -⟩ := same
  refine ⟨hbinds, ?_, ?_⟩
  · rw [hworkflow, horigin]
    exact h.bare
  · rw [horigin]
    exact fun hrequest => (hvars hrequest).trans (h.vars hrequest)

theorem scopeless_round (h : run.Scopeless) : (run.round setting token).run.Scopeless :=
  h.of_same (binds_round h.binds) (basis_round run setting token) fun hrequest =>
    vars_round_of_bare h.binds hrequest (h.bare hrequest)

end Run

namespace Session

variable {σ : Type} {session : Session σ}

/-- No run of a loop over a request ever has variables. -/
theorem lasting_scopeless (session : Session σ) : session.Lasting Run.Scopeless where
  start {target environment workflow origin vars} h := by
    have hbare : origin = .request → workflow.Bare := by
      rintro rfl
      exact Document.bare_of_planned h.planned
    exact ⟨(lasting_binds session).start h, hbare, fun hrequest => (hbare hrequest).initial⟩
  called _ h := ⟨h.binds, h.bare, h.vars⟩
  replied {run _} result _ h := by
    refine h.of_same (Run.binds_replied h.binds result) (Run.basis_goOn (run.taken.record result))
      fun _ => ?_
    unfold Run.goOn
    split <;> rfl
  round _ h := Run.scopeless_round h

theorem scopeless_after (idle : session.run = none) (messages : List Message) :
    (session.after messages).Has Run.Scopeless := by
  refine has_after lasting_scopeless (atRest_of_idle idle) ?_ messages
  intro run hrun
  cases idle.symm.trans hrun

/-- Nor has it any before or after a round. -/
theorem vars_course (idle : session.run = none) (messages : List Message) {message : Message}
    {taken : Run × Round} (htaken : taken ∈ (session.after messages).course message)
    (horigin : taken.1.origin = .request) :
    taken.1.vars = .empty ∧ taken.2.run.vars = .empty := by
  have hrest : (session.after messages).AtRest :=
    after_induction atRest_receive (atRest_of_idle idle) messages
  obtain ⟨hbefore, hround⟩ :=
    (lasting_scopeless _).course hrest (scopeless_after idle messages) htaken
  have hkept := Run.origin_of_basis (Run.basis_round taken.1 (session.after messages).setting
    (session.after messages).nextToken)
  rw [hround]
  exact ⟨hbefore.vars horigin, (Run.scopeless_round hbefore).vars (hkept.trans horigin)⟩

/-! ## Replies and the store -/

/-- Replies as messages, each with the token that it goes by. -/
def replies (given : List (Nat × Reply)) : List Message :=
  given.map fun reply => .respond reply.1 reply.2

/-- The session that an exchange ends with is the one after the replies of the caller. -/
theorem exchange_after {caller : Caller} {number : Nat} {dispatch : Dispatch}
    (hquiet : ∀ number, caller.cancels number = []) :
    ∃ given, (session.exchange caller number dispatch).session = session.after (replies given) := by
  fun_induction exchange session caller number dispatch with
  | case1 session number dispatch next hanswer ih =>
    obtain ⟨given, hgiven⟩ := ih
    refine ⟨(dispatch.token, caller.reply number dispatch) :: given, ?_⟩
    rw [Exchange.behind, hgiven, answered_of_quiet (hquiet number)]
    rfl
  | case2 session number dispatch =>
    refine ⟨[(dispatch.token, caller.reply number dispatch)], ?_⟩
    rw [answered_of_quiet (hquiet number)]
    rfl

theorem converse_after {caller : Caller} (number : Nat) (command : Command)
    (hquiet : ∀ number, caller.cancels number = []) :
    ∃ given, (session.converse caller number command).session = session.after (replies given) := by
  cases command with
  | dispatch dispatch => exact exchange_after hquiet
  | completed report => exact ⟨[], rfl⟩
  | idle => exact ⟨[], rfl⟩

/-- The run of the session, if there is one, came about by the name of a request. -/
def LoopsOnly (session : Session σ) : Prop := session.Has fun run => run.origin = .request

/-- Such a run leaves nothing in the store, also where it ends. -/
theorem store_follow {transition : Transition} (h : transition.run.origin = .request) :
    (session.follow transition).session.store = session.store ∧
      (session.follow transition).session.LoopsOnly := by
  refine ⟨?_, has_follow h⟩
  have hkeep : transition.run.keep session.document session.recorder session.store =
      session.store := by
    rw [Run.keep_eq, Run.kept?_of_request h]
    rfl
  unfold follow
  split
  · rfl
  · simp only [Reaction.announce, finish, Run.finalize]
    cases transition.run.finalized with
    | true => rfl
    | false => exact hkeep

theorem store_respond (h : session.AtRest) (loops : session.LoopsOnly) (token : Nat)
    (reply : Reply) :
    (session.respond token reply).session.store = session.store ∧
      (session.respond token reply).session.LoopsOnly := by
  cases hrun : session.run with
  | none =>
    rw [respond_of_idle_session hrun]
    exact ⟨rfl, loops⟩
  | some run =>
    obtain ⟨pending, hrest⟩ := h run hrun
    by_cases htoken : pending.token = token
    · have horigin := Run.origin_of_basis
        (Run.basis_resume run.taken session.setting session.nextToken pending reply)
      rw [← htoken, respond_of_pending hrun hrest.isPending]
      exact store_follow (horigin.trans (loops run hrun))
    · rw [respond_of_stale hrun hrest.isPending htoken]
      exact ⟨rfl, loops⟩

theorem store_replies (h : session.AtRest) (loops : session.LoopsOnly)
    (given : List (Nat × Reply)) :
    (session.after (replies given)).store = session.store ∧
      (session.after (replies given)).LoopsOnly := by
  induction given generalizing session with
  | nil => exact ⟨rfl, loops⟩
  | cons reply rest ih =>
    obtain ⟨hstore, hloops⟩ := store_respond h loops reply.1 reply.2
    obtain ⟨hlater, hkept⟩ := ih (atRest_respond reply.1 reply.2 h) hloops
    exact ⟨hlater.trans hstore, hkept⟩

/-- After the start of a loop over a request and replies to it the store is what it was. -/
theorem store_loop {target : Target} {environment : String} {workflow : Workflow} {vars : TextMap}
    (accepts : session.Accepts target environment workflow .request vars)
    (given : List (Nat × Reply)) :
    let later := (Drive.start session target environment).session.after (replies given)
    later.store = session.store ∧ later.LoopsOnly := by
  have hrest := atRest_start target environment (atRest_of_idle accepts.idle)
  have horigin : ((Run.start workflow .request environment vars).advance session.setting
      session.nextToken).run.origin = .request := Run.origin_of_basis (Run.basis_advance ..)
  have hstarted := (start_of_accepts accepts : Drive.start session target environment = _)
  rw [hstarted] at hrest ⊢
  obtain ⟨hlater, hkept⟩ := store_replies hrest (store_follow horigin).2 given
  exact ⟨hlater.trans (store_follow horigin).1, hkept⟩

/-! ## The walk over a loop -/

section

variable {name environment : String} {request : Request} {spec : LoopSpec} {vars : TextMap}
  {items : List String}

/-- What is in scope of a request that is looped over, under the variables of an environment; `loop`
is what the loop adds. -/
def loopScope (session : Session σ) (request : Request) (vars loop : TextMap) : TextMap :=
  Layers.merge {
    document := session.document.vars
    request := request.vars
    environment := vars
    workflow := .empty
    step := .empty
    loop }

/-- The request that goes out for the item with a number, counted from zero. -/
def loopDispatch (session : Session σ) (request : Request) (spec : LoopSpec)
    (environment : String) (vars : TextMap) (number : Nat) (item : String) : Dispatch where
  token := session.nextToken + number
  request := request
  vars := session.loopScope request vars (OrderedMap.empty.insert (trimmed spec.var) item)
  environment := environment
  step := 0
  label := request.name

/-- The place of the item with a number, counted from zero, of `total`. -/
def loopPlace (request : Request) (spec : LoopSpec) (total number : Nat) (item : String) : Place :=
  { index := 0, step := .forEach { target := request.name } (some spec) : Place }.item
    (trimmed spec.var) total number item

/-- The walk over a loop that is asked for by the name of its request, where the name has no blanks
around it and there are items. -/
theorem walk_loopWorkflow (session : Session σ) (hname : request.name ≠ "")
    (hknown : session.document.requestIndex.get? (trimmed request.name) = some request)
    (hitems : (session.evaluator spec.items (session.loopScope request vars .empty)).bind
      Json.items = .ok items) (hsome : items ≠ []) (environment : String)
    (reply : Nat → Dispatch → Reply) :
    (session.plan (loopWorkflow request spec) .request environment vars reply).walk =
      { dispatches := items.mapIdx (session.loopDispatch request spec environment vars)
        results := items.mapIdx fun number item =>
          (loopPlace request spec items.length number item).answer request
            (reply number (session.loopDispatch request spec environment vars number item))
        vars := .empty } := by
  let plan := session.plan (loopWorkflow request spec) .request environment vars reply
  let part : RequestStep := { target := request.name }
  let place : Place := { index := 0, step := .forEach part (some spec) }
  have hseparates : plan.Separates place.step part := ⟨by rintro ⟨⟩, rfl, rfl, rfl⟩
  have hlabel : place.step.label = request.name := by
    show (if request.name = "" then _ else _) = _
    rw [if_neg hname]
  have hsent : plan.itemDispatch place 0 .empty request (trimmed spec.var) items.length =
      session.loopDispatch request spec environment vars := by
    funext number item
    simp only [Plan.itemDispatch, Plan.dispatch, Nat.zero_add]
    rw [show (place.item (trimmed spec.var) items.length number item).step.label = _ from hlabel]
    rfl
  have hresults : plan.itemResult place 0 .empty request (trimmed spec.var) items.length =
      fun number item => (loopPlace request spec items.length number item).answer request
        (reply number (session.loopDispatch request spec environment vars number item)) := by
    funext number item
    simp only [Plan.itemResult, hsent, Nat.zero_add]
    rfl
  have hstep : plan.step place 0 .empty =
      plan.items place request part (trimmed spec.var) items.length 1 0 .empty items :=
    Plan.step_of_items rfl hknown rfl hitems hsome
  have hwalk : plan.walk = (plan.step place 0 .empty).andThen fun walk => { vars := walk.vars } :=
    rfl
  show plan.walk = _
  rw [hwalk, hstep, Plan.items_of_separates hseparates, hsent, hresults, Walk.andThen,
    if_neg Bool.false_ne_true]
  simp only [List.append_nil]

/-- What an accepted start of a loop by the name of a request comes down to. -/
theorem accepts_loop {command : Command}
    (accepted : (Drive.start session (.loop name) environment).answer = .ok command)
    (hrequest : session.document.requestIndex.get? name = some request)
    (hloop : request.loop = some spec)
    (hdeclared : session.environmentVariables environment = .ok vars) :
    session.Accepts (.loop name) environment (loopWorkflow request spec) .request vars ∧
      ∀ caller : Caller,
        (Drive.start session (.loop name) environment).session.converse caller 0 command =
          session.proceed caller 0
            (.start (loopWorkflow request spec) .request environment vars) := by
  obtain ⟨workflow, origin, declared, haccepts, hconverse⟩ := converse_start accepted
  have hplanned : session.document.planned? (.loop name) =
      some (loopWorkflow request spec, .request) := by
    rw [Document.planned?, hrequest, Option.bind_some, hloop, Option.map_some]
  cases haccepts.planned.symm.trans hplanned
  cases haccepts.declared.symm.trans hdeclared
  exact ⟨haccepts, hconverse⟩

/-- A request whose loop is accepted has a name. -/
theorem name_ne_of_accepts {origin : Origin}
    (accepts : session.Accepts (.loop name) environment (loopWorkflow request spec) origin vars) :
    request.name ≠ "" := by
  intro hempty
  have hvalid := accepts.valid
  simp only [Workflow.validate, loopWorkflow, checkSteps, hempty] at hvalid
  cases hvalid

/-- A loop that is started by the name of its request, where the name has no blanks around it and
there are items, goes through all of them. Whatever the replies, the requests that go out are those
of the items, in order, each with what was in scope at the start and its item, and the results are
those of the replies to them. After any replies the store is what it was, and the run has no
variables; nor has it any before or after a round. -/
theorem loop_iterates {command : Command}
    (accepted : (Drive.start session (.loop name) environment).answer = .ok command)
    (hname : trimmed name = name)
    (hrequest : session.document.requestIndex.get? name = some request)
    (hloop : request.loop = some spec)
    (hdeclared : session.environmentVariables environment = .ok vars)
    (hitems : (session.evaluator spec.items (session.loopScope request vars .empty)).bind
      Json.items = .ok items) (hsome : items ≠ []) :
    let started := (Drive.start session (.loop name) environment).session
    (∀ reply : Nat → Dispatch → Reply,
      let sent := session.loopDispatch request spec environment vars
      let exchange := started.converse { reply } 0 command
      exchange.dispatches = items.mapIdx sent ∧
      (∃ report, exchange.answer = .completed report ∧
        report.results = items.mapIdx fun number item =>
          (loopPlace request spec items.length number item).answer request
            (reply number (sent number item))) ∧
      exchange.session.store = session.store) ∧
    (∀ given : List (Nat × Reply),
      (started.after (replies given)).store = session.store ∧
      ∀ run, (started.after (replies given)).run = some run →
        run.origin = .request ∧ run.vars = .empty) ∧
    ∀ messages message, ∀ taken ∈ (session.after messages).course message,
      taken.1.origin = .request → taken.1.vars = .empty ∧ taken.2.run.vars = .empty := by
  intro started
  obtain ⟨haccepts, hconverse⟩ := accepts_loop accepted hrequest hloop hdeclared
  refine ⟨fun reply => ?_, fun given => ?_, fun messages message taken => ?_⟩
  · have hsame : request.name = name := Document.name_of_get? hrequest
    have hknown : session.document.requestIndex.get? (trimmed request.name) = some request := by
      rw [hsame, hname, hrequest]
    have hwalk := walk_loopWorkflow session (name_ne_of_accepts haccepts) hknown hitems hsome
      environment reply
    have htells := session.tells_plan (loopWorkflow request spec) .request environment vars reply
    rw [hwalk, ← hconverse] at htells
    have hstore : (started.converse { reply } 0 command).session.store = session.store := by
      obtain ⟨given, hgiven⟩ : ∃ given, (started.converse { reply } 0 command).session =
          started.after (replies given) := converse_after 0 command fun _ => rfl
      rw [hgiven]
      exact (store_loop haccepts given).1
    exact ⟨htells.dispatches, htells.completed, hstore⟩
  · obtain ⟨hstore, hloops⟩ := store_loop haccepts given
    have hscopeless : (started.after (replies given)).Has Run.Scopeless :=
      scopeless_after haccepts.idle (.start (.loop name) environment :: replies given)
    exact ⟨hstore, fun run hrun =>
      ⟨hloops run hrun, (hscopeless run hrun).vars (hloops run hrun)⟩⟩
  · exact vars_course haccepts.idle messages

end

end Session

/-! ## A loop over three items -/

namespace Counted

/-- A loop over three items. -/
def spec : LoopSpec := ⟨"[\"a\",\"b\",\"c\"]", " id "⟩

/-- A request with that loop, and with a variable of the name of the items. -/
def request : Request :=
  { name := "item", url := "http://host/items", vars := .ofList [("id", "none")],
    loop := some spec }

/-- An environment. -/
def environment : TextMap := .ofList [("host", "local")]

/-- A session that keeps every entry that it is given. -/
def session : Session (List Entry) :=
  .new { requests := [request], environments := .ofList [("dev", environment)] } evaluate
    (some fun entry entries => (entries ++ [entry], true)) []

theorem accepts : session.Accepts (.loop "item") "dev" (Session.loopWorkflow request spec) .request
    environment := ⟨rfl, rfl, rfl, rfl⟩

theorem items : (session.evaluator spec.items (session.loopScope request environment .empty)).bind
    Json.items = .ok ["a", "b", "c"] := by
  have hevaluator : session.evaluator = evaluate := rfl
  have hlisting : spec.items = String.ofList (Expression.listing ["a", "b", "c"]) := rfl
  rw [hevaluator, hlisting]
  exact Expression.evaluate_items (by decide) _

end Counted

namespace Session

/-- The first request does not get through, the second one has a bad answer. -/
theorem loop_iterates_counted :
    let reply (number : Nat) (_ : Dispatch) : Reply :=
      if number = 0 then .failed "refused"
      else if number = 1 then .ofResponse { code := 500, status := "500 Internal Server Error" }
      else .ofResponse { code := 200, status := "200 OK" }
    ∃ command, (Drive.start Counted.session (.loop "item") "dev").answer = .ok command ∧
      let exchange :=
        (Drive.start Counted.session (.loop "item") "dev").session.converse { reply } 0 command
      exchange.dispatches.map (fun sent => (sent.vars.get? "host", sent.vars.get? "id")) =
          [(some "local", some "a"), (some "local", some "b"), (some "local", some "c")] ∧
        (∃ report, exchange.answer = .completed report ∧
          report.results.map (fun result => (result.status, result.position)) =
            [(.failed, ⟨1, 3⟩), (.failed, ⟨2, 3⟩), (.succeeded, ⟨3, 3⟩)]) ∧
        exchange.session.store = [] := by
  intro reply
  obtain ⟨command, hcommand⟩ := answer_start_of_accepts Counted.accepts
  have hname : trimmed "item" = "item" := by decide
  have hrequest : Counted.session.document.requestIndex.get? "item" = some Counted.request := rfl
  obtain ⟨hexchange, -⟩ := loop_iterates hcommand hname hrequest rfl Counted.accepts.declared
    Counted.items (by simp)
  obtain ⟨hdispatches, ⟨report, hanswer, hresults⟩, hstore⟩ := hexchange reply
  refine ⟨command, hcommand, ?_, ⟨report, hanswer, ?_⟩, hstore⟩
  · rw [hdispatches]
    rfl
  · rw [hresults]
    rfl

end Session

end RequestFlow
