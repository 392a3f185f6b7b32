import RequestFlow.Proofs.Run.Notices
import RequestFlow.Proofs.Session.Shape

/-!
# What a session tells

What happens to the runs of a session can be read off the session before and after each message and
off its answers. The lines that it tells are those for what happens, no more and no fewer; only a
start that is turned down may be told of besides. And what happens is a chronicle: every run begins,
then there are its results, its requests and at most one call to stop, and in the end there is its
report, with just the results that were recorded.

* `Session.log`: what happens while messages are handled;
* `Session.told`: the lines that are told, apart from those of starts that are turned down;
* `Chronicle`: what can happen to one run after the other;
* `Session.told_receive`, `Session.chronicle_receive`: the lines and the chronicle along a message;
* `Session.notices_of_events`: all of this, for every session that can be reached.
-/

namespace RequestFlow

/-! ## What happens -/

/-- The lines of a reaction, apart from those of a start that is turned down. -/
def Reaction.told {σ : Type} (reaction : Reaction σ (Except StartFault Command)) : List Notice :=
  match reaction.answer with
  | .error _ => []
  | .ok _ => reaction.notices

/-- The request that an event sends. -/
def Event.dispatch? : Event → Option Dispatch
  | sent _ dispatch _ => some dispatch
  | _ => none

/-- The report that an event brings. -/
def Event.report? : Event → Option Report
  | ended report => some report
  | _ => none

/-- What has happened to a run of a workflow since it had only the results `before`. -/
def Reaction.happened {σ : Type} (reaction : Reaction σ (Except StartFault Command))
    (workflow : Workflow) (before : List Result) : List Event :=
  (reaction.results.drop before.length).map (.recorded workflow) ++
    ((asked? reaction.answer).map fun dispatch =>
      .sent workflow dispatch (reaction.session.run.bind Run.place?)).toList ++
    ((reported? reaction.answer).map .ended).toList

section

variable {σ : Type} (reaction : Reaction σ (Except StartFault Command)) (workflow : Workflow)
  (before : List Result)

theorem dispatches_happened :
    (reaction.happened workflow before).filterMap Event.dispatch? =
      (asked? reaction.answer).toList := by
  have hrecorded (results : List Result) :
      (results.map (Event.recorded workflow)).filterMap Event.dispatch? = [] :=
    List.filterMap_eq_nil_iff.2 (List.forall_mem_map.2 fun _ _ => rfl)
  rw [Reaction.happened, List.filterMap_append, List.filterMap_append, hrecorded]
  cases asked? reaction.answer <;> cases reported? reaction.answer <;> rfl

theorem reports_happened :
    (reaction.happened workflow before).filterMap Event.report? =
      (reported? reaction.answer).toList := by
  have hrecorded (results : List Result) :
      (results.map (Event.recorded workflow)).filterMap Event.report? = [] :=
    List.filterMap_eq_nil_iff.2 (List.forall_mem_map.2 fun _ _ => rfl)
  rw [Reaction.happened, List.filterMap_append, List.filterMap_append, hrecorded]
  cases asked? reaction.answer <;> cases reported? reaction.answer <;> rfl

end

/-- The reason of a call to stop that is in force only afterwards. -/
def latched? (before after : Option Run) : Option String :=
  if before.all Run.isCanceled then none
  else after.bind fun run => run.cancellation.bind Cancellation.reason

namespace Session

variable {σ : Type}

/-- The message begins a run. -/
def begins (session : Session σ) (message : Message) : Bool :=
  match message with
  | .start .. => (session.receive message).answer.isOk
  | _ => false

/-- What happens while a message is handled: a run begins or is called to stop, then its results are
recorded, and a request goes out or the run ends. -/
def events (session : Session σ) (message : Message) : List Event :=
  (session.subject? message).toList.flatMap fun workflow =>
    (if session.begins message then [.began workflow] else []) ++
      ((latched? session.run (session.receive message).session.run).map
        (.called workflow)).toList ++
      (session.receive message).happened workflow session.results

/-- What happens while messages are handled, one after the other. -/
def log (session : Session σ) : List Message → List (List Event)
  | [] => []
  | message :: rest => session.events message :: (session.receive message).session.log rest

/-- The lines that are told while messages are handled, apart from those of starts that are turned
down. -/
def told (session : Session σ) : List Message → List (List Notice)
  | [] => []
  | message :: rest =>
    (session.receive message).told :: (session.receive message).session.told rest

end Session

/-! ## Chronicles -/

/-- What is known of the run that is active. -/
structure Current where
  workflow : Workflow
  results : List Result
  called : Bool

/-- What can happen to one run after the other, up to a state with a run active or without one. -/
inductive Chronicle : List Event → Option Current → Prop where
  | empty : Chronicle [] none
  | began {log : List Event} (workflow : Workflow) (earlier : Chronicle log none) :
      Chronicle (log ++ [.began workflow]) (some ⟨workflow, [], false⟩)
  | recorded {log : List Event} {current : Current} (result : Result)
      (earlier : Chronicle log (some current)) :
      Chronicle (log ++ [.recorded current.workflow result])
        (some { current with results := current.results ++ [result] })
  | sent {log : List Event} {current : Current} (dispatch : Dispatch) (place : Option Position)
      (earlier : Chronicle log (some current)) :
      Chronicle (log ++ [.sent current.workflow dispatch place]) (some current)
  | called {log : List Event} {workflow : Workflow} {results : List Result} (reason : String)
      (earlier : Chronicle log (some ⟨workflow, results, false⟩)) :
      Chronicle (log ++ [.called workflow reason]) (some ⟨workflow, results, true⟩)
  | ended {log : List Event} {current : Current} (report : Report)
      (same : report.results = current.results) (earlier : Chronicle log (some current)) :
      Chronicle (log ++ [.ended report]) none

/-- Some results one after the other. -/
theorem Chronicle.recordedAll {log : List Event} {current : Current} (added : List Result)
    (h : Chronicle log (some current)) :
    Chronicle (log ++ added.map (.recorded current.workflow))
      (some { current with results := current.results ++ added }) := by
  induction added generalizing log current with
  | nil => simpa using h
  | cons result added ih =>
    have hall := ih (h.recorded result)
    simpa [List.append_assoc] using hall

namespace Session

variable {σ : Type} {session : Session σ}

/-- What is known of the active run of a session. -/
def current? (session : Session σ) : Option Current :=
  session.run.map fun run => ⟨run.workflow, run.results, run.isCanceled⟩

/-- What happens where a transition is taken over. -/
theorem happened_follow {transition : Transition}
    (h : transition.Sound session.document session.nextToken) (notices : List Notice)
    (before : List Result) :
    (((session.follow transition).announce notices).map Except.ok).happened
        transition.run.workflow before =
      transition.run.happened before transition.dispatch ++
        (if transition.dispatch.isSome then []
        else [.ended (transition.run.report session.document)]) := by
  have hresults := results_follow h notices
  rw [Reaction.happened, hresults]
  unfold follow
  cases hdispatch : transition.dispatch with
  | some dispatch =>
    simp [Reaction.announce, Reaction.map, asked?, reported?, Run.happened]
  | none =>
    simp [Reaction.announce, Reaction.map, asked?, reported?, Run.happened,
      finish_of_open session h.finalized]

/-- A transition that tells just of what has happened is told as such, and so is its end. -/
theorem told_follow {transition : Transition} {before : List Result}
    (h : transition.Sound session.document session.nextToken) (notices : List Notice)
    (tells : transition.Tells before) :
    (((session.follow transition).announce notices).map Except.ok).told =
      notices ++ ((((session.follow transition).announce notices).map Except.ok).happened
        transition.run.workflow before).flatMap Event.lines := by
  rw [happened_follow h, List.flatMap_append, ← tells]
  unfold follow
  cases hdispatch : transition.dispatch with
  | some dispatch => simp [Reaction.announce, Reaction.map, Reaction.told]
  | none =>
    simp [Reaction.announce, Reaction.map, Reaction.told, Event.lines,
      finish_of_open session h.finalized, summaryNotice]

/-- What is taken over goes on with the chronicle of its run. A run that has been called to stop sends
no more requests. -/
theorem chronicle_follow {transition : Transition} {before : List Result} {called : Bool}
    {log : List Event} (h : transition.Sound session.document session.nextToken)
    (notices : List Notice) (grows : before <+: transition.run.results)
    (calm : called = true → transition.dispatch = none)
    (earlier : Chronicle log (some ⟨transition.run.workflow, before, called⟩)) :
    Chronicle (log ++ (((session.follow transition).announce notices).map Except.ok).happened
        transition.run.workflow before) (session.follow transition).session.current? := by
  obtain ⟨added, hadded⟩ := grows
  have hrecorded := earlier.recordedAll added
  rw [hadded] at hrecorded
  rw [happened_follow h, Run.happened_of_results hadded.symm]
  cases hdispatch : transition.dispatch with
  | some dispatch =>
    have hcalled : called = false := by
      cases called with
      | false => rfl
      | true => cases hdispatch.symm.trans (calm rfl)
    have hcurrent : (session.follow transition).session.current? =
        some ⟨transition.run.workflow, transition.run.results, called⟩ := by
      simp [follow, hdispatch, current?, Run.isCanceled, h.cancellation dispatch hdispatch, hcalled]
    rw [hcurrent]
    simpa using hrecorded.sent dispatch transition.run.place?
  | none =>
    have hcurrent : (session.follow transition).session.current? = none := by
      simp [follow, hdispatch, current?, Reaction.announce, run_finish]
    rw [hcurrent]
    simpa using hrecorded.ended (transition.run.report session.document) rfl

/-! ## Messages -/

/-- What a session tells while events happen is the lines for them, and they go on with any
chronicle of its runs. -/
structure Relates (session : Session σ) (events : List Event)
    (reaction : Reaction σ (Except StartFault Command)) : Prop where
  told : reaction.told = events.flatMap Event.lines
  chronicle : ∀ {log}, Chronicle log session.current? →
    Chronicle (log ++ events) reaction.session.current?
  asked : events.filterMap Event.dispatch? = (asked? reaction.answer).toList
  reported : events.filterMap Event.report? = (reported? reaction.answer).toList

theorem latched?_self (run : Option Run) : latched? run run = none := by
  unfold latched?
  cases run with
  | none => rfl
  | some run =>
    cases hcancellation : run.cancellation <;> simp [Run.isCanceled, hcancellation]

/-- A message that changes nothing is no event. -/
theorem relates_unchanged {message : Message} {answer : Except StartFault Command}
    {notices : List Notice} (h : session.receive message = ⟨session, answer, notices⟩)
    (quiet : asked? answer = none ∧ reported? answer = none)
    (silent : session.begins message = false) (untold : (session.receive message).told = []) :
    session.Relates (session.events message) (session.receive message) := by
  have hresults : (session.receive message).results = session.results := by
    rw [Reaction.results, h, quiet.2]
    rfl
  have hevents : session.events message = [] := by
    simp only [events, silent, Reaction.happened, hresults]
    simp [h, latched?_self, quiet]
  rw [hevents]
  refine ⟨untold, fun hearlier => ?_, ?_, ?_⟩
  · rw [h]
    simpa using hearlier
  · rw [h, quiet.1]
    rfl
  · rw [h, quiet.2]
    rfl

/-- A message that is answered with nothing to do, and changes nothing, is no event. -/
theorem relates_idle {message : Message} (h : session.receive message = ⟨session, .ok .idle, []⟩)
    (silent : session.begins message = false) :
    session.Relates (session.events message) (session.receive message) := by
  refine relates_unchanged h ⟨rfl, rfl⟩ silent ?_
  rw [h]
  rfl

/-- A transition that is taken over leaves no run that has just been called to stop. -/
theorem latched?_follow {transition : Transition} (before : Option Run)
    (h : transition.Sound session.document session.nextToken) :
    latched? before (session.follow transition).session.run = none := by
  unfold latched? follow
  split
  · rfl
  · cases hdispatch : transition.dispatch with
    | some dispatch => simp [h.cancellation dispatch hdispatch]
    | none => simp [Reaction.announce, run_finish]

/-- What is taken over after some first events goes on with them. -/
theorem relates_follow {transition : Transition} {before : List Result} {called : Bool}
    {front : List Event} (h : transition.Sound session.document session.nextToken)
    (tells : transition.Tells before) (grows : before <+: transition.run.results)
    (calm : called = true → transition.dispatch = none)
    (opens : ∀ {log}, Chronicle log session.current? →
      Chronicle (log ++ front) (some ⟨transition.run.workflow, before, called⟩))
    (asked : front.filterMap Event.dispatch? = [])
    (reported : front.filterMap Event.report? = []) :
    let reaction := ((session.follow transition).announce (front.flatMap Event.lines)).map Except.ok
    session.Relates (front ++ reaction.happened transition.run.workflow before) reaction where
  told := by rw [told_follow h _ tells, List.flatMap_append]
  chronicle hearlier := by
    rw [← List.append_assoc]
    exact chronicle_follow h _ grows calm (opens hearlier)
  asked := by
    rw [List.filterMap_append, asked, List.nil_append]
    exact dispatches_happened ..
  reported := by
    rw [List.filterMap_append, reported, List.nil_append]
    exact reports_happened ..

/-- A start is told, and then what it leads to. -/
theorem relates_began {target : Target} {workflow : Workflow} {origin : Origin}
    {environment : String} {vars : TextMap}
    (haccepts : session.Accepts target environment workflow origin vars)
    (hreceive : session.receive (.start target environment) =
      (session.begin (.start workflow origin environment vars)).map .ok) :
    session.Relates (session.events (.start target environment))
      (session.receive (.start target environment)) := by
  let opened := Run.start workflow origin environment vars
  let transition := opened.advance session.setting session.nextToken
  have hsound : transition.Sound session.document session.nextToken :=
    Run.sound_advance (Run.underWay_start ..)
  have hsame : transition.run.workflow = workflow :=
    Run.workflow_of_basis (Run.basis_advance opened session.setting session.nextToken)
  have hevents : session.events (.start target environment) = [.began workflow] ++
      (session.receive (.start target environment)).happened transition.run.workflow [] := by
    have hlatched : latched? session.run
        (session.receive (.start target environment)).session.run = none := by
      rw [hreceive]
      exact latched?_follow session.run hsound
    have hbegins : session.begins (.start target environment) = true := by
      rw [begins, hreceive]
      rfl
    simp only [events, hlatched, hbegins]
    simp [subject?, haccepts.planned, results, haccepts.idle, hsame]
  have hopens {log : List Event} (hearlier : Chronicle log session.current?) :
      Chronicle (log ++ [.began workflow]) (some ⟨transition.run.workflow, [], false⟩) := by
    rw [current?, haccepts.idle] at hearlier
    rw [hsame]
    exact hearlier.began workflow
  rw [hevents, hreceive]
  exact relates_follow hsound (Run.tells_advance opened session.setting session.nextToken)
    List.nil_prefix (fun hcalled => by cases hcalled) hopens rfl rfl

theorem relates_start (target : Target) (environment : String) :
    session.Relates (session.events (.start target environment))
      (session.receive (.start target environment)) := by
  rcases session.start_cases target environment with
    ⟨fault, notices, heq⟩ | ⟨workflow, origin, vars, haccepts, heq⟩
  · have hreceive : session.receive (.start target environment) = _ := heq
    refine relates_unchanged hreceive ⟨rfl, rfl⟩ ?_ ?_
    · rw [begins, hreceive]
      rfl
    · rw [hreceive]
      rfl
  · exact relates_began haccepts heq

/-- The reply to the request that is out is told as what it leads to. -/
theorem relates_pending {run : Run} {pending : Pending} (hrun : session.run = some run)
    (hrest : run.AtRest session.document.requestIndex session.nextToken pending) (reply : Reply) :
    session.Relates (session.events (.respond pending.token reply))
      (session.receive (.respond pending.token reply)) := by
  let transition := run.taken.resume session.setting session.nextToken pending reply
  have hreceive : session.receive (.respond pending.token reply) =
      ((session.follow transition).announce []).map .ok :=
    congrArg (Reaction.map Except.ok) (respond_of_pending hrun hrest.isPending reply)
  have hsound : transition.Sound session.document session.nextToken := Run.sound_resume hrest reply
  have hsame : transition.run.workflow = run.workflow :=
    Run.workflow_of_basis
      (Run.basis_resume run.taken session.setting session.nextToken pending reply)
  have hevents : session.events (.respond pending.token reply) = [] ++
      (session.receive (.respond pending.token reply)).happened transition.run.workflow
        run.results := by
    have hlatched : latched? session.run
        (session.receive (.respond pending.token reply)).session.run = none := by
      rw [hreceive]
      exact latched?_follow session.run hsound
    simp only [events, hlatched]
    simp [subject?, hrun, begins, results, hsame]
  have hcalm : run.isCanceled = true → transition.dispatch = none := by
    intro hcanceled
    obtain ⟨cancellation, hcancellation⟩ := Option.isSome_iff_exists.1 hcanceled
    have hcalled : run.taken.cancellation = some cancellation := hcancellation
    simp only [transition, Run.resume, hcalled]
  rw [hevents, hreceive]
  refine relates_follow hsound
    (Run.tells_resume run.taken session.setting session.nextToken pending reply)
    (Run.prefix_resume run.taken session.setting session.nextToken pending reply) hcalm ?_ rfl rfl
  intro log hearlier
  rw [current?, hrun] at hearlier
  rw [hsame, List.append_nil]
  exact hearlier

theorem relates_respond (h : session.AtRest) (token : Nat) (reply : Reply) :
    session.Relates (session.events (.respond token reply))
      (session.receive (.respond token reply)) := by
  cases hrun : session.run with
  | none =>
    refine relates_idle ?_ rfl
    rw [receive, respond_of_idle_session hrun]
    rfl
  | some run =>
    obtain ⟨pending, hrest⟩ := h run hrun
    by_cases htoken : pending.token = token
    · exact htoken ▸ relates_pending hrun hrest reply
    · refine relates_idle ?_ rfl
      rw [receive, respond_of_stale hrun hrest.isPending htoken]
      rfl

theorem relates_cancel (h : session.AtRest) (reason : Option String) :
    session.Relates (session.events (.cancel reason)) (session.receive (.cancel reason)) := by
  cases hrun : session.run with
  | none =>
    refine relates_idle ?_ rfl
    rw [receive, cancel_of_idle_session hrun]
    rfl
  | some run =>
    obtain ⟨pending, hrest⟩ := h run hrun
    cases hcanceled : run.isCanceled with
    | true =>
      refine relates_idle ?_ rfl
      rw [receive, cancel_of_canceled hrun hcanceled]
      rfl
    | false =>
      have hreceive : session.receive (.cancel reason) =
          ⟨{ session with run := some (called run (reasonText reason)) }, .ok .idle,
            [cancelNotice run reason]⟩ :=
        congrArg (Reaction.map Except.ok) (cancel_of_pending hrun hrest.isPending hcanceled reason)
      have hevents : session.events (.cancel reason) =
          [.called run.workflow (reasonText reason)] := by
        simp only [events, hreceive]
        simp [subject?, hrun, begins, latched?, hcanceled, called, Reaction.happened,
          Reaction.results, results, asked?, reported?]
      have hcurrent : session.current? = some ⟨run.workflow, run.results, false⟩ := by
        rw [current?, hrun, ← hcanceled]
        rfl
      rw [hevents, hreceive]
      refine ⟨rfl, fun hearlier => ?_, rfl, rfl⟩
      rw [hcurrent] at hearlier
      exact hearlier.called _

/-- Along every message a session tells just what happens. -/
theorem relates_receive (h : session.AtRest) (message : Message) :
    session.Relates (session.events message) (session.receive message) := by
  cases message with
  | start target environment => exact relates_start target environment
  | respond token reply => exact relates_respond h token reply
  | cancel reason => exact relates_cancel h reason

/-! ## All messages -/

theorem told_log (h : session.AtRest) (messages : List Message) :
    session.told messages = (session.log messages).map (List.flatMap Event.lines) := by
  induction messages generalizing session with
  | nil => rfl
  | cons message rest ih =>
    rw [told, log, List.map_cons, (relates_receive h message).told,
      ih (atRest_receive session message h)]

theorem chronicle_log {earlier : List Event} (h : session.AtRest) (messages : List Message)
    (before : Chronicle earlier session.current?) :
    Chronicle (earlier ++ (session.log messages).flatten) (session.after messages).current? := by
  induction messages generalizing session earlier with
  | nil =>
    show Chronicle (earlier ++ []) session.current?
    rw [List.append_nil]
    exact before
  | cons message rest ih =>
    have hafter := ih (atRest_receive session message h) ((relates_receive h message).chronicle before)
    rw [log, List.flatten_cons, ← List.append_assoc]
    exact hafter

/-- What is read off the events of each message as off its answer is so for all of them. -/
theorem filterMap_log {β : Type} {ofEvent : Event → Option β}
    {ofAnswer : Except StartFault Command → Option β}
    (each : ∀ {session : Session σ}, session.AtRest → ∀ message,
      (session.events message).filterMap ofEvent =
        (ofAnswer (session.receive message).answer).toList)
    (h : session.AtRest) (messages : List Message) :
    (session.log messages).flatten.filterMap ofEvent =
      (session.answers messages).filterMap ofAnswer := by
  induction messages generalizing session with
  | nil => rfl
  | cons message rest ih =>
    rw [log, answers, List.flatten_cons, List.filterMap_append, each h message,
      ih (atRest_receive session message h), List.filterMap_cons]
    cases ofAnswer (session.receive message).answer <;> rfl

theorem dispatches_log (h : session.AtRest) (messages : List Message) :
    (session.log messages).flatten.filterMap Event.dispatch? =
      (session.answers messages).filterMap asked? :=
  filterMap_log (fun h message => (relates_receive h message).asked) h messages

theorem reports_log (h : session.AtRest) (messages : List Message) :
    (session.log messages).flatten.filterMap Event.report? =
      (session.answers messages).filterMap reported? :=
  filterMap_log (fun h message => (relates_receive h message).reported) h messages

/-- What a session tells along any messages, apart from starts that are turned down, is the lines
for what happens, message by message and round by round. What happens is a chronicle of its runs,
with the requests that it asks for and the reports that it brings: so a run is told of when it
begins, when a request goes out, when a result is a failure, when it is first called to stop, and
when it ends with just the results that were recorded. -/
theorem notices_of_events (document : Document) (evaluator : Evaluator)
    (recorder : Option (Recorder σ)) (store : σ) (messages : List Message) :
    let fresh := new document evaluator recorder store
    fresh.told messages = (fresh.log messages).map (List.flatMap Event.lines) ∧
      Chronicle (fresh.log messages).flatten (fresh.after messages).current? ∧
      (fresh.log messages).flatten.filterMap Event.dispatch? =
        (fresh.answers messages).filterMap asked? ∧
      (fresh.log messages).flatten.filterMap Event.report? =
        (fresh.answers messages).filterMap reported? ∧
      ∀ message, ∀ taken ∈ (fresh.after messages).course message,
        taken.2 = taken.1.round (fresh.after messages).setting (fresh.after messages).nextToken ∧
        taken.1.results <+: taken.2.run.results ∧ taken.2.Tells taken.1.results := by
  intro fresh
  have hrest : fresh.AtRest := atRest_of_idle rfl
  have hplanned : fresh.Has fresh.Planned := by rintro _ ⟨⟩
  refine ⟨told_log hrest messages, ?_, dispatches_log hrest messages, reports_log hrest messages,
    fun message taken htaken => ?_⟩
  · have hempty : Chronicle [] fresh.current? := .empty
    simpa using chronicle_log hrest messages hempty
  · have hlater : (fresh.after messages).AtRest :=
      atRest_after document evaluator recorder store messages
    have hround := ((lasting_planned _).course hlater (planned_after hrest hplanned messages)
      htaken).2
    refine ⟨hround, ?_⟩
    rw [hround]
    exact ⟨(Run.precedes_round _ _ _).keeps, Run.tells_round _ _ _⟩

end Session

end RequestFlow
