import RequestFlow.Proofs.Session.AtRest

/-!
# A session and its caller

A caller answers each request of a session in turn, the first, the second and so on, and may call
the run to stop while a request is out. The exchange between the two goes on until the session wants
nothing sent.

* `Session.converse`: an exchange, from a command on;
* `Session.proceed`: an exchange, from a run on that is about to advance;
* `Session.proceed_next`, `Session.proceed_finished`, `Session.proceed_sent`: round by round, where
  nobody calls the run to stop.
-/

namespace RequestFlow

/-- Who answers the requests of a session: the reply to the request with a number, counted from
zero, and the calls to cancel that come before it. -/
structure Caller where
  reply : Nat → Dispatch → Reply
  cancels : Nat → List (Option String) := fun _ => []

/-- What passed between a session and its caller. -/
structure Exchange (σ : Type) where
  /-- The requests that went out, in order. -/
  dispatches : List Dispatch
  session : Session σ
  /-- What the session wanted in the end. -/
  answer : Command

/-- The exchange with requests that went out before. -/
def Exchange.behind {σ : Type} (dispatches : List Dispatch) (exchange : Exchange σ) : Exchange σ :=
  { exchange with dispatches := dispatches ++ exchange.dispatches }

namespace Session

variable {σ : Type}

/-- The session after calls to cancel. -/
def cancelAll (session : Session σ) (reasons : List (Option String)) : Session σ :=
  reasons.foldl (fun session reason => (session.cancel reason).session) session

theorem isRunning_cancel {session : Session σ} {reason : Option String}
    (h : (session.cancel reason).session.isRunning) : session.isRunning := by
  cases hrun : session.run with
  | none => simpa [cancel, hrun] using h
  | some run => simp [isRunning, hrun]

/-- Calls to cancel that leave the run active leave as much to do. -/
theorem remaining_of_cancelAll {session : Session σ} {reasons : List (Option String)}
    (h : (session.cancelAll reasons).isRunning) :
    session.isRunning ∧ (session.cancelAll reasons).remaining = session.remaining := by
  induction reasons generalizing session with
  | nil => exact ⟨h, rfl⟩
  | cons reason rest ih =>
    have hrest : ((session.cancel reason).session.cancelAll rest).isRunning := h
    obtain ⟨hrunning, hremaining⟩ := ih hrest
    exact ⟨isRunning_cancel hrunning, hremaining.trans (remaining_of_cancel hrunning)⟩

theorem isRunning_of_respond {session : Session σ} {token : Nat} {reply : Reply}
    {dispatch : Dispatch} (h : (session.respond token reply).answer = .dispatch dispatch) :
    session.isRunning := by
  cases hrun : session.run with
  | none =>
    rw [respond_of_idle_session hrun] at h
    cases h
  | some run => simp [isRunning, hrun]

/-- The caller's part while the request with a number is out. -/
def answered (session : Session σ) (caller : Caller) (number : Nat) (dispatch : Dispatch) :
    Reaction σ Command :=
  (session.cancelAll (caller.cancels number)).respond dispatch.token (caller.reply number dispatch)

/-- A further request goes out only with less left to do than before. -/
theorem remaining_of_answered {session : Session σ} {caller : Caller} {number : Nat}
    {dispatch next : Dispatch}
    (h : (session.answered caller number dispatch).answer = .dispatch next) :
    Run.Less (session.answered caller number dispatch).session.remaining session.remaining := by
  rw [← (remaining_of_cancelAll (isRunning_of_respond h)).2]
  exact remaining_of_respond h

/-- The exchange that follows once the request with a number is out. -/
def exchange (session : Session σ) (caller : Caller) (number : Nat) (dispatch : Dispatch) :
    Exchange σ :=
  match _h : (session.answered caller number dispatch).answer with
  | .dispatch next =>
    ((session.answered caller number dispatch).session.exchange caller (number + 1) next).behind
      [dispatch]
  | answer => ⟨[dispatch], (session.answered caller number dispatch).session, answer⟩
termination_by session.remaining
decreasing_by exact remaining_of_answered (by assumption)

/-- The exchange that follows on a command; the next request to go out has a number. -/
def converse (session : Session σ) (caller : Caller) (number : Nat) : Command → Exchange σ
  | .dispatch dispatch => session.exchange caller number dispatch
  | answer => ⟨[], session, answer⟩

theorem exchange_eq (session : Session σ) (caller : Caller) (number : Nat) (dispatch : Dispatch) :
    session.exchange caller number dispatch =
      ((session.answered caller number dispatch).session.converse caller (number + 1)
        (session.answered caller number dispatch).answer).behind [dispatch] := by
  rw [exchange]
  cases hanswer : (session.answered caller number dispatch).answer with
  | dispatch next => rfl
  | completed report => rfl
  | idle => rfl

/-! ## From a run that advances -/

/-- The exchange from a run on that is about to advance. -/
def proceed (session : Session σ) (caller : Caller) (number : Nat) (run : Run) : Exchange σ :=
  let reaction := session.follow (run.advance session.setting session.nextToken)
  reaction.session.converse caller number reaction.answer

/-- The exchange after an accepted start. -/
theorem converse_start {session : Session σ} {target : Target} {environment : String}
    {command : Command} (h : (Drive.start session target environment).answer = .ok command) :
    ∃ workflow origin vars, session.Accepts target environment workflow origin vars ∧
      ∀ caller : Caller,
        (Drive.start session target environment).session.converse caller 0 command =
          session.proceed caller 0 (.start workflow origin environment vars) := by
  rcases session.start_cases target environment with
    ⟨fault, notices, heq⟩ | ⟨workflow, origin, vars, haccepts, heq⟩
  · rw [heq] at h
    cases h
  · refine ⟨workflow, origin, vars, haccepts, fun caller => ?_⟩
    rw [heq] at h ⊢
    cases h
    rfl

variable (session : Session σ) (caller : Caller) (number : Nat) {run : Run}

/-- A round that goes on is no part of the exchange. -/
theorem proceed_next {next : Run} {notices : List Notice}
    (h : run.round session.setting session.nextToken = .next next notices) :
    session.proceed caller number run = session.proceed caller number next := by
  unfold proceed
  rw [Run.advance_of_next h, follow_announce]
  rfl

/-- A run that is over ends the exchange. -/
theorem proceed_finished {finished : Run} {notices : List Notice}
    (h : run.round session.setting session.nextToken = .finished finished notices)
    (hopen : finished.finalized = false) :
    ∃ final, session.proceed caller number run =
      ⟨[], final, .completed (finished.report session.document)⟩ := by
  unfold proceed
  rw [Run.advance_of_finished h]
  simp only [follow, finish_of_open session hopen]
  exact ⟨_, rfl⟩

/-- Between steps it does not matter which branch was taken last. -/
theorem proceed_branch (hloop : run.loop = none) (branch : Option String) :
    session.proceed caller number { run with branch } = session.proceed caller number run := by
  have hrounds : ∀ token : Nat,
      (Run.round { run with branch } session.setting token = .finished { run with branch } [] ∧
        run.round session.setting token = .finished run []) ∨
      Run.round { run with branch } session.setting token = run.round session.setting token := by
    intro token
    have hsame : Run.isCanceled { run with branch } = run.isCanceled := rfl
    have hplace : Run.step? { run with branch } = run.step? := rfl
    unfold Run.round
    rw [hsame, hplace, hloop]
    cases run.isCanceled with
    | true => exact .inl ⟨rfl, rfl⟩
    | false =>
      cases run.step? with
      | none => exact .inl ⟨rfl, rfl⟩
      | some step => exact .inr rfl
  unfold proceed
  rcases hrounds session.nextToken with ⟨hbranch, hplain⟩ | hsame
  · have hend : session.follow ⟨{ run with branch }, none, []⟩ =
        session.follow ⟨run, none, []⟩ := by
      simp only [follow, finish, Run.finalize]
      cases run.finalized <;> rfl
    rw [Run.advance_of_finished hbranch, Run.advance_of_finished hplain, hend]
  · rw [Run.advance_congr hsame]

/-- With a request out, the exchange goes on over the reply. -/
theorem proceed_sent {waiting : Run} {dispatch : Dispatch} {notices : List Notice}
    {pending : Pending}
    (h : run.round session.setting session.nextToken = .sent waiting dispatch notices)
    (hpending : waiting.pending = some pending) (htoken : dispatch.token = pending.token)
    (hquiet : caller.cancels number = []) :
    let after := { session with run := some waiting, nextToken := session.nextToken + 1 }
    let reaction := after.follow (waiting.taken.resume session.setting (session.nextToken + 1)
      pending (caller.reply number dispatch))
    session.proceed caller number run =
      (reaction.session.converse caller (number + 1) reaction.answer).behind [dispatch] := by
  intro after reaction
  have hanswered : after.answered caller number dispatch = reaction := by
    rw [answered, hquiet, htoken]
    exact respond_of_pending rfl hpending _
  unfold proceed
  rw [Run.advance_of_sent h]
  show after.exchange caller number dispatch = _
  rw [exchange_eq, hanswered]

/-- A reply that stops the run ends the exchange. -/
theorem proceed_stopped {waiting : Run} {dispatch : Dispatch} {notices : List Notice}
    {pending : Pending}
    (h : run.round session.setting session.nextToken = .sent waiting dispatch notices)
    (hpending : waiting.pending = some pending) (htoken : dispatch.token = pending.token)
    (hcancellation : waiting.cancellation = none) (hopen : waiting.finalized = false)
    (hquiet : caller.cancels number = [])
    (hstop : waiting.taken.stopsAt
      (waiting.taken.replyResult pending (caller.reply number dispatch)) = true) :
    ∃ final, session.proceed caller number run =
      ⟨[dispatch], final, .completed ((waiting.taken.record
        (waiting.taken.replyResult pending (caller.reply number dispatch))).report
          session.document)⟩ := by
  have htaken : waiting.taken.cancellation = none := hcancellation
  rw [proceed_sent session caller number h hpending htoken hquiet, Run.resume_eq htaken,
    if_pos hstop]
  have hrecorded : (waiting.taken.record
      (waiting.taken.replyResult pending (caller.reply number dispatch))).finalized = false := hopen
  simp only [follow, finish_of_open _ hrecorded]
  exact ⟨_, rfl⟩

/-- A reply that does not stop the run lets it advance. -/
theorem proceed_answered {waiting : Run} {dispatch : Dispatch} {notices : List Notice}
    {pending : Pending}
    (h : run.round session.setting session.nextToken = .sent waiting dispatch notices)
    (hpending : waiting.pending = some pending) (htoken : dispatch.token = pending.token)
    (hcancellation : waiting.cancellation = none) (hquiet : caller.cancels number = [])
    (hstop : waiting.taken.stopsAt
      (waiting.taken.replyResult pending (caller.reply number dispatch)) = false) :
    session.proceed caller number run =
      ({ session with nextToken := session.nextToken + 1 }.proceed caller (number + 1)
        (waiting.taken.record
          (waiting.taken.replyResult pending (caller.reply number dispatch))).goOn).behind
        [dispatch] := by
  have htaken : waiting.taken.cancellation = none := hcancellation
  rw [proceed_sent session caller number h hpending htoken hquiet, Run.resume_eq htaken, hstop,
    if_neg Bool.false_ne_true, follow_announce]
  rfl

end Session

end RequestFlow
