import RequestFlow.Proofs.Run.AtRest
import RequestFlow.Proofs.Session.Message

/-!
# Sessions are at rest between messages

Whatever a session has been told, it is idle or its run is at rest: a request is out, and all there
is about it fits together. So a call to cancel never ends a run by itself, and the reply to the
request that is out is always taken.

* `Session.atRest_receive`: every message leaves the session at rest;
* `Session.atRest_after`: so do any messages;
* `Session.reachable_atRest`: what holds of every session that can be reached.
-/

namespace RequestFlow.Session

variable {σ : Type} {session : Session σ}

/-- The session is idle, or its run is at rest. -/
def AtRest (session : Session σ) : Prop :=
  ∀ run, session.run = some run →
    ∃ pending, run.AtRest session.document.requestIndex session.nextToken pending

theorem atRest_of_idle (h : session.run = none) : session.AtRest := by
  intro run hrun
  cases h.symm.trans hrun

/-! ## Taking over a transition -/

theorem follow_announce (session : Session σ) (notices : List Notice) (transition : Transition) :
    session.follow (transition.announce notices) =
      (session.follow transition).announce notices := by
  simp only [follow, Transition.announce]
  cases transition.dispatch with
  | some dispatch => rfl
  | none => simp [Reaction.announce]

theorem atRest_follow {transition : Transition}
    (h : transition.Sound session.document session.nextToken) :
    (session.follow transition).session.AtRest := by
  unfold follow
  split
  · rename_i dispatch hdispatch
    rintro _ ⟨⟩
    obtain ⟨pending, hrest, -⟩ := h.atRest dispatch hdispatch
    exact ⟨pending, hrest⟩
  · exact atRest_of_idle (run_finish session transition.run)

/-- A transition that is taken over asks for something: for a request, or for note of a report. -/
theorem answer_follow_ne_idle {transition : Transition}
    (h : transition.Sound session.document session.nextToken) :
    (session.follow transition).answer ≠ .idle := by
  unfold follow
  split
  · intro hidle
    cases hidle
  · rw [finish_of_open session h.finalized]
    intro hidle
    cases hidle

/-! ## Messages -/

theorem atRest_start (target : Target) (environment : String) (h : session.AtRest) :
    (Drive.start session target environment).session.AtRest := by
  rcases session.start_cases target environment with ⟨fault, notices, heq⟩ | ⟨_, _, _, -, heq⟩
  · rw [heq]
    exact h
  · rw [heq]
    exact atRest_follow (Run.sound_advance (Run.underWay_start ..))

/-- A start that enters a loop and sends the first item. -/
theorem answer_of_rounds {target : Target} {environment : String} {workflow : Workflow}
    {origin : Origin} {vars : TextMap} {entered sent : Run} {dispatch : Dispatch}
    {notices more : List Notice}
    (accepts : session.Accepts target environment workflow origin vars)
    (enters : (Run.start workflow origin environment vars).round session.setting
      session.nextToken = .next entered notices)
    (sends : entered.round session.setting session.nextToken = .sent sent dispatch more) :
    (Drive.start session target environment).answer = .ok (.dispatch dispatch) := by
  rw [start_of_accepts accepts, begin, Run.advance_of_next enters, Run.advance_of_sent sends]
  rfl

/-- What is awaited of a session whose run is at rest. -/
theorem awaiting?_eq {run : Run} {pending : Pending} (hrun : session.run = some run)
    (hpending : run.pending = some pending) (token : Nat) :
    session.awaiting? token =
      if pending.token = token then some (run.taken, pending) else none := by
  simp only [awaiting?, hrun, hpending, Option.bind_eq_bind, Option.bind_some]
  rfl

theorem respond_of_idle_session (h : session.run = none) (token : Nat) (reply : Reply) :
    session.respond token reply = ⟨session, .idle, []⟩ := by
  simp [respond, awaiting?, h]

/-- The reply to the request that is out is taken. -/
theorem respond_of_pending {run : Run} {pending : Pending} (hrun : session.run = some run)
    (hpending : run.pending = some pending) (reply : Reply) :
    session.respond pending.token reply =
      session.follow (run.taken.resume session.setting session.nextToken pending reply) := by
  rw [respond, awaiting?_eq hrun hpending, if_pos rfl]

/-- A reply to anything else is ignored. -/
theorem respond_of_stale {run : Run} {pending : Pending} {token : Nat}
    (hrun : session.run = some run) (hpending : run.pending = some pending)
    (hstale : pending.token ≠ token) (reply : Reply) :
    session.respond token reply = ⟨session, .idle, []⟩ := by
  rw [respond, awaiting?_eq hrun hpending, if_neg hstale]

theorem atRest_respond (token : Nat) (reply : Reply) (h : session.AtRest) :
    (session.respond token reply).session.AtRest := by
  cases hrun : session.run with
  | none =>
    rw [respond_of_idle_session hrun]
    exact h
  | some run =>
    obtain ⟨pending, hrest⟩ := h run hrun
    by_cases htoken : pending.token = token
    · rw [← htoken, respond_of_pending hrun hrest.isPending]
      exact atRest_follow (Run.sound_resume hrest reply)
    · rw [respond_of_stale hrun hrest.isPending htoken]
      exact h

/-- The reason that a call to cancel goes by: the one given, unless it is blank. -/
def reasonText (reason : Option String) : String := (Text.nonBlank? reason).getD "canceled by user"

theorem isBlankText_reasonText (reason : Option String) :
    Text.isBlankText (reasonText reason) = false := by
  unfold reasonText
  cases htext : Text.nonBlank? reason with
  | none => rfl
  | some text => simpa using (Option.filter_eq_some_iff.1 htext).2

/-- The notice that a run is called to stop. -/
def cancelNotice (run : Run) (reason : Option String) : Notice :=
  ⟨.warn, "canceling workflow '" ++ run.workflow.name ++ "': " ++ reasonText reason⟩

/-- A run that has been called to stop for a reason, and still waits for its request. -/
def called (run : Run) (reason : String) : Run :=
  { run with cancellation := some { reason := some reason } }

theorem cancel_of_idle_session (h : session.run = none) (reason : Option String) :
    session.cancel reason = ⟨session, .idle, []⟩ := by
  simp [cancel, h]

/-- A run is called to stop once. -/
theorem cancel_of_canceled {run : Run} (hrun : session.run = some run)
    (hcanceled : run.isCanceled = true) (reason : Option String) :
    session.cancel reason = ⟨session, .idle, []⟩ := by
  simp [cancel, hrun, hcanceled]

/-- With a request out, a call to cancel is only noted. -/
theorem cancel_of_pending {run : Run} {pending : Pending} (hrun : session.run = some run)
    (hpending : run.pending = some pending) (hcanceled : run.isCanceled = false)
    (reason : Option String) :
    session.cancel reason =
      ⟨{ session with run := some (called run (reasonText reason)) }, .idle,
        [cancelNotice run reason]⟩ := by
  have hflight : run.isInFlight = true := by rw [Run.isInFlight, hpending, Option.isSome_some]
  unfold cancel
  rw [hrun]
  dsimp only
  rw [hcanceled, if_neg Bool.false_ne_true, if_pos hflight]
  rfl

/-- A call to stop leaves a run at rest. -/
theorem atRest_called {run : Run} {requests : RequestIndex} {token : Nat} {pending : Pending}
    (h : run.AtRest requests token pending) {reason : String}
    (hreason : Text.isBlankText reason = false) :
    (called run reason).AtRest requests token pending :=
  { h with
    finalized := h.finalized
    canceledAt := rfl
    reason := iff_of_true rfl ⟨reason, rfl, hreason⟩ }

theorem atRest_cancel (reason : Option String) (h : session.AtRest) :
    (session.cancel reason).session.AtRest := by
  cases hrun : session.run with
  | none =>
    rw [cancel_of_idle_session hrun]
    exact h
  | some run =>
    obtain ⟨pending, hrest⟩ := h run hrun
    cases hcanceled : run.isCanceled with
    | true =>
      rw [cancel_of_canceled hrun hcanceled]
      exact h
    | false =>
      rw [cancel_of_pending hrun hrest.isPending hcanceled]
      rintro _ ⟨⟩
      exact ⟨pending, atRest_called hrest (isBlankText_reasonText reason)⟩

theorem atRest_receive (session : Session σ) (message : Message) (h : session.AtRest) :
    (session.receive message).session.AtRest := by
  cases message with
  | start target environment => exact atRest_start target environment h
  | respond token reply => exact atRest_respond token reply h
  | cancel reason => exact atRest_cancel reason h

/-- Any messages leave a new session at rest. -/
theorem atRest_after (document : Document) (evaluator : Evaluator) (recorder : Option (Recorder σ))
    (store : σ) (messages : List Message) :
    ((new document evaluator recorder store).after messages).AtRest :=
  after_induction atRest_receive (atRest_of_idle rfl) messages

theorem Reachable.atRest (h : session.Reachable) : session.AtRest := by
  obtain ⟨document, evaluator, recorder, store, messages, rfl⟩ := h
  exact atRest_after document evaluator recorder store messages

/-! ## What follows for the answers -/

theorem answer_cancel_of_atRest (h : session.AtRest) (reason : Option String) :
    (session.cancel reason).answer = .idle := by
  cases hrun : session.run with
  | none => rw [cancel_of_idle_session hrun]
  | some run =>
    obtain ⟨pending, hrest⟩ := h run hrun
    cases hcanceled : run.isCanceled with
    | true => rw [cancel_of_canceled hrun hcanceled]
    | false => rw [cancel_of_pending hrun hrest.isPending hcanceled]

theorem answer_respond_ne_idle {run : Run} {pending : Pending} (h : session.AtRest)
    (hrun : session.run = some run) (hpending : run.pending = some pending) (reply : Reply) :
    (session.respond pending.token reply).answer ≠ .idle := by
  obtain ⟨waiting, hrest⟩ := h run hrun
  cases hpending.symm.trans hrest.isPending
  rw [respond_of_pending hrun hpending]
  exact answer_follow_ne_idle (Run.sound_resume hrest reply)

/-- Whatever a session has been told, it is idle or its run is at rest; a call to cancel ends no run
by itself, and the reply to the request that is out is always taken. -/
theorem reachable_atRest (document : Document) (evaluator : Evaluator)
    (recorder : Option (Recorder σ)) (store : σ) (messages : List Message) :
    let session := (new document evaluator recorder store).after messages
    (∀ run, session.run = some run →
      ∃ pending, run.AtRest document.requestIndex session.nextToken pending) ∧
    (∀ reason report, (session.cancel reason).answer ≠ .completed report) ∧
    ∀ run pending, session.run = some run → run.pending = some pending →
      ∀ reply, (session.respond pending.token reply).answer ≠ .idle := by
  intro session
  have hrest : session.AtRest := atRest_after document evaluator recorder store messages
  have hdocument : session.document = document :=
    document_after (new document evaluator recorder store) messages
  refine ⟨fun run hrun => hdocument ▸ hrest run hrun, ?_, ?_⟩
  · intro reason report hcompleted
    cases (answer_cancel_of_atRest hrest reason).symm.trans hcompleted
  · intro run pending hrun hpending reply
    exact answer_respond_ne_idle hrest hrun hpending reply

end RequestFlow.Session
