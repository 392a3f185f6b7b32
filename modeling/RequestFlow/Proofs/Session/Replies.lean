import RequestFlow.Proofs.Session.Cancellation
import RequestFlow.Proofs.Walk.Refinement
import RequestFlow.Proofs.Walk.Replies

/-!
# How far an exchange gets

Replies and calls to cancel decide how far a run gets, and never what it does. Two exchanges from
the same start that differ in their replies send the same requests for as long as both go on. A call
to cancel cuts an exchange at the request that is out, and leaves all that came before as it was.

* `Session.respond_of_awaits`: a reply brings the next request or the report, and results stay;
* `Session.exchange_cut`: an exchange that is canceled, beside the same one that is not;
* `Session.dispatches_of_replies`: what holds of all exchanges after a start.
-/

namespace RequestFlow

/-- An exchange that was canceled at the request after `count` others, beside the whole of it. -/
structure Exchange.Cuts {σ : Type} (cut whole : Exchange σ) (count : Nat) : Prop where
  dispatches : cut.dispatches = whole.dispatches.take (count + 1)
  results : ∃ (report : Report) (kept : List Result) (last : Result),
    cut.answer = .completed report ∧ report.results = kept ++ [last] ∧ last.status = .canceled ∧
      ∀ wholeReport : Report, whole.answer = .completed wholeReport → kept <+: wholeReport.results

namespace Session

variable {σ : Type} {session : Session σ} {dispatch : Dispatch} {run : Run} {caller : Caller}
  {number : Nat}

/-! ## From one request to the next -/

/-- The request is out, and nothing has called its run to stop. -/
structure Awaits (session : Session σ) (dispatch : Dispatch) (run : Run) : Prop where
  active : session.run = some run
  cancellation : run.cancellation = none
  atRest : ∃ pending, dispatch.token = pending.token ∧
    run.AtRest session.document.requestIndex session.nextToken pending

/-- The session wants the next request sent, or tells the end of the run, whose results begin with
`results`. -/
inductive Onward (results : List Result) (reaction : Reaction σ Command) : Prop where
  | sent {next : Dispatch} {run : Run} (answer : reaction.answer = .dispatch next)
      (awaits : reaction.session.Awaits next run) (recorded : results <+: run.results)
  | completed {report : Report} (answer : reaction.answer = .completed report)
      (recorded : results <+: report.results)

theorem onward_follow {transition : Transition} {results : List Result}
    (h : transition.Sound session.document session.nextToken)
    (hresults : results <+: transition.run.results) :
    Onward results (session.follow transition) := by
  cases hdispatch : transition.dispatch with
  | some next =>
    obtain ⟨pending, hrest, htoken, -⟩ := h.atRest next hdispatch
    have hfollow : session.follow transition =
        ⟨{ session with run := some transition.run, nextToken := session.nextToken + 1 },
          .dispatch next, transition.notices⟩ := by
      rw [follow, hdispatch]
    rw [hfollow]
    exact .sent rfl ⟨rfl, h.cancellation next hdispatch, pending, htoken, hrest⟩ hresults
  | none =>
    have hfollow : session.follow transition =
        (session.finish transition.run).announce transition.notices := by
      rw [follow, hdispatch]
    rw [hfollow, finish_of_open session h.finalized]
    exact .completed rfl hresults

/-- The reply to the request that is out brings the next one or the end of the run. -/
theorem respond_of_awaits (h : session.Awaits dispatch run) (reply : Reply) :
    Onward run.results (session.respond dispatch.token reply) := by
  obtain ⟨pending, htoken, hrest⟩ := h.atRest
  rw [htoken, respond_of_pending h.active hrest.isPending]
  exact onward_follow (Run.sound_resume hrest reply) (Run.prefix_resume run.taken _ _ _ _)

/-- An accepted start brings the first request or the end of the run. -/
theorem onward_start (session : Session σ) (workflow : Workflow) (origin : Origin)
    (environment : String) (vars : TextMap) :
    Onward [] (session.follow ((Run.start workflow origin environment vars).advance session.setting
      session.nextToken)) :=
  onward_follow (Run.sound_advance (Run.underWay_start ..)) (List.nil_prefix)

/-! ## Exchanges without a call to cancel -/

theorem answered_of_quiet (h : caller.cancels number = []) (session : Session σ)
    (dispatch : Dispatch) :
    session.answered caller number dispatch =
      session.respond dispatch.token (caller.reply number dispatch) := by
  rw [answered, h]
  rfl

/-- The report at the end of an exchange begins with the results so far. -/
theorem prefix_exchange {report : Report} (hquiet : ∀ number, caller.cancels number = [])
    (h : session.Awaits dispatch run)
    (hend : (session.exchange caller number dispatch).answer = .completed report) :
    run.results <+: report.results := by
  fun_induction exchange session caller number dispatch generalizing run with
  | case1 session number dispatch next hanswer ih =>
    rw [answered_of_quiet (hquiet number)] at hanswer ih hend
    cases respond_of_awaits h (caller.reply number dispatch) with
    | sent answer awaits recorded =>
      cases hanswer.symm.trans answer
      exact recorded.trans (ih awaits hend)
    | completed answer => cases hanswer.symm.trans answer
  | case2 session number dispatch =>
    have hanswer := congrArg Reaction.answer
      (answered_of_quiet (hquiet number) session dispatch)
    cases respond_of_awaits h (caller.reply number dispatch) with
    | sent answer => cases (hanswer.trans answer).symm.trans hend
    | completed answer recorded =>
      cases (hanswer.trans answer).symm.trans hend
      exact recorded

/-! ## Exchanges with one -/

/-- Further calls to cancel change nothing. -/
theorem cancelAll_called {reason : String} (hrun : session.run = some (called run reason))
    (reasons : List (Option String)) : session.cancelAll reasons = session := by
  induction reasons with
  | nil => rfl
  | cons again rest ih =>
    show (session.cancel again).session.cancelAll rest = session
    rw [cancel_of_canceled hrun rfl]
    exact ih

/-- The reply to a request after calls to cancel ends the run with one canceled result more. -/
theorem answered_of_called (h : session.Awaits dispatch run) (hcalls : caller.cancels number ≠ []) :
    ∃ report last, (session.answered caller number dispatch).answer = .completed report ∧
      report.results = run.results ++ [last] ∧ last.status = .canceled := by
  obtain ⟨pending, htoken, hrest⟩ := h.atRest
  obtain ⟨reason, rest, hreasons⟩ := List.exists_cons_of_ne_nil hcalls
  let canceled : Session σ := { session with run := some (called run (firstReason run reason)) }
  have hcanceled : session.cancelAll (reason :: rest) = canceled := by
    show (session.cancel reason).session.cancelAll rest = canceled
    rw [cancel_session h.active hrest reason]
    exact cancelAll_called rfl rest
  have hactive : canceled.run = some (called run (firstReason run reason)) := rfl
  obtain ⟨report, hcut, hanswer, -⟩ := completed_of_called hactive hrest
    (caller.reply number dispatch)
  obtain ⟨last, hresults, hlast, -⟩ := hcut.results
  refine ⟨report, last, ?_, hresults, hlast⟩
  rw [answered, hreasons, hcanceled, htoken]
  exact hanswer

theorem cuts_behind {cut whole : Exchange σ} {count : Nat} (h : cut.Cuts whole count)
    (dispatch : Dispatch) : (cut.behind [dispatch]).Cuts (whole.behind [dispatch]) (count + 1) where
  dispatches := by
    show dispatch :: cut.dispatches = (dispatch :: whole.dispatches).take (count + 1 + 1)
    rw [List.take_succ_cons, h.dispatches]
  results := h.results

/-- An exchange that is canceled while a request is out sends nothing after it, and its results but
for the last are the first ones of the whole exchange. -/
theorem exchange_cut {count : Nat} (h : session.Awaits dispatch run)
    (hquiet : ∀ earlier, earlier < count → caller.cancels (number + earlier) = [])
    (hcalls : caller.cancels (number + count) ≠ [])
    (hlong : count <
      (session.exchange { reply := caller.reply } number dispatch).dispatches.length) :
    (session.exchange caller number dispatch).Cuts
      (session.exchange { reply := caller.reply } number dispatch) count := by
  -- Both exchanges go in step for `count` replies; then the call parts them.
  induction count generalizing session number dispatch run with
  | zero =>
    obtain ⟨report, last, hanswer, hresults, hlast⟩ := answered_of_called h hcalls
    rw [Nat.add_zero] at hanswer
    refine ⟨?_, report, run.results, last, ?_, hresults, hlast, ?_⟩
    · rw [exchange_eq, hanswer, exchange_eq]
      rfl
    · rw [exchange_eq, hanswer]
      rfl
    · intro wholeReport hwhole
      exact prefix_exchange (fun _ => rfl) h hwhole
  | succ count ih =>
    have hnumber : caller.cancels number = [] := hquiet 0 (Nat.succ_pos count)
    have hplain : Caller.cancels { reply := caller.reply } number = [] := rfl
    rw [exchange_eq, answered_of_quiet hplain] at hlong
    rw [exchange_eq, answered_of_quiet hnumber, exchange_eq, answered_of_quiet hplain]
    cases respond_of_awaits h (caller.reply number dispatch) with
    | sent answer awaits =>
      rw [answer] at hlong ⊢
      have hlater : ∀ earlier, earlier < count → caller.cancels (number + 1 + earlier) = [] := by
        intro earlier hearlier
        rw [Nat.add_right_comm]
        exact hquiet (earlier + 1) (by omega)
      have hlast : caller.cancels (number + 1 + count) ≠ [] := by
        rw [Nat.add_right_comm]
        exact hcalls
      exact cuts_behind (ih awaits hlater hlast (Nat.lt_of_succ_lt_succ hlong)) dispatch
    | completed answer =>
      rw [answer] at hlong
      cases Nat.lt_of_succ_lt_succ hlong

/-- The exchange of a run that begins, with a call to cancel and without. -/
theorem proceed_cut {workflow : Workflow} {origin : Origin} {environment : String} {vars : TextMap}
    {count : Nat} (hquiet : ∀ earlier, earlier < count → caller.cancels earlier = [])
    (hcalls : caller.cancels count ≠ [])
    (hlong : count < (session.proceed { reply := caller.reply } 0
      (.start workflow origin environment vars)).dispatches.length) :
    (session.proceed caller 0 (.start workflow origin environment vars)).Cuts
      (session.proceed { reply := caller.reply } 0 (.start workflow origin environment vars))
      count := by
  unfold proceed at hlong ⊢
  dsimp only at hlong ⊢
  cases onward_start session workflow origin environment vars with
  | sent answer awaits =>
    rw [answer] at hlong ⊢
    refine exchange_cut awaits (fun earlier hearlier => ?_) ?_ hlong
    · rw [Nat.zero_add]
      exact hquiet earlier hearlier
    · rw [Nat.zero_add]
      exact hcalls
  | completed answer =>
    rw [answer] at hlong
    cases hlong

/-! ## Two sessions in the same state -/

/-- Two sessions that start the same runs under the same tokens, whatever they keep in their
stores. -/
structure Alike {τ : Type} (first : Session σ) (second : Session τ) : Prop where
  document : first.document = second.document
  evaluator : first.evaluator = second.evaluator
  nextToken : first.nextToken = second.nextToken

namespace Alike

variable {τ : Type} {first : Session σ} {second : Session τ} {target : Target}
  {environment : String} {workflow other : Workflow} {origin otherOrigin : Origin}
  {vars otherVars : TextMap}

/-- A start means the same in both. -/
theorem accepts (h : first.Alike second)
    (hfirst : first.Accepts target environment workflow origin vars)
    (hsecond : second.Accepts target environment other otherOrigin otherVars) :
    other = workflow ∧ otherOrigin = origin ∧ otherVars = vars := by
  have hplanned : some (other, otherOrigin) = some (workflow, origin) := by
    rw [← hsecond.planned, ← hfirst.planned, h.document]
  have henvironment : second.environmentVariables environment =
      first.environmentVariables environment := by
    rw [environmentVariables, environmentVariables, h.document]
  have hdeclared : Except.ok otherVars = (.ok vars : Except StartFault TextMap) := by
    rw [← hsecond.declared, ← hfirst.declared, henvironment]
  cases hplanned
  cases hdeclared
  exact ⟨rfl, rfl, rfl⟩

/-- So does the plan of a run. -/
theorem plan_eq (h : first.Alike second) (reply : Nat → Dispatch → Reply) :
    second.plan workflow origin environment vars reply =
      first.plan workflow origin environment vars reply := by
  have hsetting : second.setting = first.setting := by
    rw [setting, setting, h.document, h.evaluator]
  rw [plan, plan, hsetting, h.nextToken]

end Alike

/-- What a run sends in two sessions in the same state, under different replies. -/
theorem prefix_proceed {τ : Type} {first : Session σ} {second : Session τ}
    (halike : first.Alike second) (workflow : Workflow) (origin : Origin) (environment : String)
    (vars : TextMap) (reply otherReply : Nat → Dispatch → Reply) :
    let one := first.proceed { reply } 0 (.start workflow origin environment vars)
    let other := second.proceed { reply := otherReply } 0 (.start workflow origin environment vars)
    (one.dispatches <+: other.dispatches ∨ other.dispatches <+: one.dispatches) ∧
      ((∀ number dispatch, other.dispatches[number]? = some dispatch →
        workflow.passes dispatch (otherReply number dispatch)) →
        one.dispatches <+: other.dispatches) := by
  intro one other
  let plan := first.plan workflow origin environment vars reply
  have hone : one.dispatches = plan.walk.dispatches :=
    (first.tells_plan workflow origin environment vars reply).dispatches
  have hother : other.dispatches = (plan.answering otherReply).walk.dispatches := by
    have hplan : second.plan workflow origin environment vars otherReply =
        plan.answering otherReply := halike.plan_eq otherReply
    rw [← hplan]
    exact (second.tells_plan workflow origin environment vars otherReply).dispatches
  rw [hone, hother]
  refine ⟨plan.prefix_or_prefix_walk reply otherReply, fun hpasses => ?_⟩
  have heases : (plan.answering otherReply).Eases reply 0
      (plan.answering otherReply).walk.dispatches := by
    intro number dispatch hsent _
    rw [Nat.zero_add]
    exact hpasses number dispatch hsent
  exact Plan.prefix_walk heases

/-- Replies and calls to cancel decide only how far a run gets. Two sessions in the same state that
accept a start send the same requests, one of them maybe more of them, whatever the replies; the one
whose replies are all successes sends no fewer. A call to cancel while a request is out leaves the
requests up to it, and the results before it. -/
theorem dispatches_of_replies {τ : Type} {first : Session σ} {second : Session τ} {target : Target}
    {environment : String} {command otherCommand : Command} (halike : first.Alike second)
    (hfirst : (Drive.start first target environment).answer = .ok command)
    (hsecond : (Drive.start second target environment).answer = .ok otherCommand) :
    ∃ workflow origin vars, first.Accepts target environment workflow origin vars ∧
      (∀ reply otherReply : Nat → Dispatch → Reply,
        let one := (Drive.start first target environment).session.converse { reply } 0 command
        let other := (Drive.start second target environment).session.converse
          { reply := otherReply } 0 otherCommand
        (one.dispatches <+: other.dispatches ∨ other.dispatches <+: one.dispatches) ∧
          ((∀ number dispatch, other.dispatches[number]? = some dispatch →
            workflow.passes dispatch (otherReply number dispatch)) →
            one.dispatches <+: other.dispatches)) ∧
      ∀ (caller : Caller) (count : Nat),
        let whole := (Drive.start first target environment).session.converse
          { reply := caller.reply } 0 command
        let cut := (Drive.start first target environment).session.converse caller 0 command
        (∀ earlier, earlier < count → caller.cancels earlier = []) → caller.cancels count ≠ [] →
          count < whole.dispatches.length →
          cut.dispatches = whole.dispatches.take (count + 1) ∧
            ∃ (report wholeReport : Report) (kept : List Result) (last : Result),
              cut.answer = .completed report ∧ whole.answer = .completed wholeReport ∧
                report.results = kept ++ [last] ∧ last.status = .canceled ∧
                kept <+: wholeReport.results := by
  obtain ⟨workflow, origin, vars, haccepts, hone⟩ := converse_start hfirst
  obtain ⟨workflow₂, origin₂, vars₂, haccepts₂, htwo⟩ := converse_start hsecond
  obtain ⟨rfl, rfl, rfl⟩ := halike.accepts haccepts haccepts₂
  refine ⟨workflow₂, origin₂, vars₂, haccepts, ?_, ?_⟩
  · intro reply otherReply
    rw [hone, htwo]
    exact prefix_proceed halike workflow₂ origin₂ environment vars₂ reply otherReply
  · intro caller count
    rw [hone, hone]
    intro whole cut hquiet hcalls hlong
    have hcuts : cut.Cuts whole count := proceed_cut hquiet hcalls hlong
    obtain ⟨report, kept, last, hanswer, hresults, hlast, hkept⟩ := hcuts.results
    obtain ⟨wholeReport, hend, -⟩ :=
      (first.tells_plan workflow₂ origin₂ environment vars₂ caller.reply).completed
    exact ⟨hcuts.dispatches, report, wholeReport, kept, last, hanswer, hend, hresults, hlast,
      hkept wholeReport hend⟩

/-- Where all replies fail, where none does, and where none does but the run is canceled at the
second item of its loop. -/
theorem dispatches_of_replies_smoke :
    let good : Nat → Dispatch → Reply := fun _ _ => .ofResponse { code := 200, status := "200 OK" }
    let bad : Nat → Dispatch → Reply := fun _ _ => .failed "refused"
    let cancels (number : Nat) : List (Option String) := if number = 1 then [some "enough"] else []
    ∃ command, (Drive.start Smoke.session (.workflow "smoke") "").answer = .ok command ∧
      Smoke.session.Alike Smoke.session ∧
      let started := (Drive.start Smoke.session (.workflow "smoke") "").session
      let whole := started.converse { reply := good } 0 command
      (started.converse { reply := bad } 0 command).dispatches <+: whole.dispatches ∧
        (started.converse { reply := good, cancels } 0 command).dispatches =
          whole.dispatches.take 2 := by
  intro good bad cancels
  obtain ⟨command, hcommand⟩ := answer_start_of_accepts Smoke.accepts
  have halike : Smoke.session.Alike Smoke.session := ⟨rfl, rfl, rfl⟩
  obtain ⟨workflow, origin, vars, haccepts, hreplies, hcancels⟩ :=
    dispatches_of_replies halike hcommand hcommand
  obtain ⟨rfl, rfl, rfl⟩ := halike.accepts Smoke.accepts haccepts
  refine ⟨command, hcommand, halike, ?_, ?_⟩
  · refine (hreplies bad good).2 fun number dispatch _ => ?_
    obtain ⟨token, request, vars, environment, step, label⟩ := dispatch
    rcases step with _ | _ | step <;> rfl
  · refine (hcancels { reply := good, cancels } 1 ?_ (by decide) ?_).1
    · intro earlier hearlier
      obtain rfl : earlier = 0 := by omega
      rfl
    · obtain ⟨workflow, origin, vars, haccepts, hconverse⟩ := converse_start hcommand
      obtain ⟨rfl, rfl, rfl⟩ := halike.accepts Smoke.accepts haccepts
      have hwalk := Smoke.session.tells_plan Smoke.workflow .workflow "" .empty good
      rw [hconverse, hwalk.dispatches]
      decide

end Session

end RequestFlow
