import RequestFlow.Proofs.Session.AtRest

/-!
# Cancellation

A run that has been called to stop goes no further than the request that is out. Until the reply to
that request comes nothing changes: starts are turned down, other replies and further calls are
ignored, and the first reason stays. The reply ends the run, whatever it says, and its step is the
one canceled step of the report.

* `Session.cancel_session`: what a call to cancel leaves of a session with a run;
* `Session.quiet`: messages that do not bring the reply change nothing;
* `Session.respond_called`: the reply ends the run;
* `Session.cancel_cuts`: all of this, for every session that can be reached.
-/

namespace RequestFlow

/-- The message brings the reply to the request with a token. -/
def Message.Brings (token : Nat) : Message → Prop
  | respond given _ => given = token
  | _ => False

/-- The answer to a message that changes nothing because a run is active. -/
def Message.quietAnswer : Message → Except StartFault Command
  | start .. => .error .runActive
  | _ => .ok .idle

/-- The report on a run that was cut at the request that was out. -/
structure Report.CutAt (report : Report) (run : Run) (pending : Pending) (reason : String) :
    Prop where
  outcome : report.outcome = .canceled
  results : ∃ last, report.results = run.results ++ [last] ∧ last.status = .canceled ∧
    last.step = pending.step ∧ last.label = pending.label ∧ last.request = some pending.request ∧
    last.position = pending.position ∧ last.branch = pending.branch ∧ last.message = reason
  failed : report.counts.failed = run.counts.failed
  canceled : report.counts.canceled = 1
  summary : report.summary = run.subject ++ " canceled at step " ++ toString (pending.step + 1) ++
    "/" ++ toString run.stepCount ++ " (" ++ reason ++ ")"

namespace Session

variable {σ : Type} {session : Session σ} {run : Run} {pending : Pending}

/-- The reason of the first call to stop a run, where the last call gives `reason`. -/
def firstReason (run : Run) (reason : Option String) : String :=
  (run.cancellation.bind Cancellation.reason).getD (reasonText reason)

theorem isBlankText_firstReason {requests : RequestIndex} {token : Nat}
    (h : run.AtRest requests token pending) (reason : Option String) :
    Text.isBlankText (firstReason run reason) = false := by
  cases hcanceled : run.isCanceled with
  | true =>
    obtain ⟨first, hfirst, hblank⟩ := h.reason.1 hcanceled
    rw [firstReason, hfirst, Option.getD_some]
    exact hblank
  | false =>
    have hnone : run.cancellation = none := by simpa [Run.isCanceled] using hcanceled
    rw [firstReason, hnone]
    exact isBlankText_reasonText reason

/-- A run at rest that has been called to stop already is as if called for its first reason. -/
theorem called_firstReason {requests : RequestIndex} {token : Nat}
    (h : run.AtRest requests token pending) (hcanceled : run.isCanceled = true)
    (reason : Option String) : called run (firstReason run reason) = run := by
  obtain ⟨first, hfirst, -⟩ := h.reason.1 hcanceled
  have hstep := h.canceledAt
  rw [firstReason, hfirst, Option.getD_some, called]
  cases hcancellation : run.cancellation with
  | none => simp [hcancellation] at hfirst
  | some cancellation =>
    obtain ⟨_, _⟩ := cancellation
    simp only [hcancellation, Option.bind_some] at hfirst hstep
    rw [← hfirst, ← hstep, ← hcancellation]

/-- A call to cancel leaves a session with its run called to stop, for the first reason. -/
theorem cancel_session {requests : RequestIndex} {token : Nat} (hrun : session.run = some run)
    (h : run.AtRest requests token pending) (reason : Option String) :
    (session.cancel reason).session =
      { session with run := some (called run (firstReason run reason)) } := by
  cases hcanceled : run.isCanceled with
  | true => rw [cancel_of_canceled hrun hcanceled, called_firstReason h hcanceled, ← hrun]
  | false =>
    have hnone : run.cancellation = none := by simpa [Run.isCanceled] using hcanceled
    rw [cancel_of_pending hrun h.isPending hcanceled, firstReason, hnone]
    rfl

/-! ## Until the reply comes -/

/-- A message that does not bring the reply to a canceled run's request changes nothing. -/
theorem receive_quiet {reason : String} (hrun : session.run = some (called run reason))
    (hpending : run.pending = some pending) {message : Message}
    (hquiet : ¬ message.Brings pending.token) :
    (session.receive message).session = session ∧
      (session.receive message).answer = message.quietAnswer := by
  cases message with
  | start target environment =>
    cases target <;>
      simp [receive, Drive.start, startWorkflow, startLoop, whenIdle, hrun, refuse,
        Message.quietAnswer]
  | respond token reply =>
    have hcalled : (called run reason).pending = some pending := hpending
    rw [receive, respond_of_stale hrun hcalled (Ne.symm hquiet)]
    exact ⟨rfl, rfl⟩
  | cancel again =>
    rw [receive, cancel_of_canceled hrun rfl]
    exact ⟨rfl, rfl⟩

/-- Nor do any number of them. -/
theorem quiet {reason : String} (hrun : session.run = some (called run reason))
    (hpending : run.pending = some pending) :
    ∀ messages : List Message, (∀ message ∈ messages, ¬ message.Brings pending.token) →
      session.after messages = session ∧ session.answers messages = messages.map Message.quietAnswer
  | [], _ => ⟨rfl, rfl⟩
  | message :: rest, hquiet => by
    obtain ⟨hsession, hanswer⟩ := receive_quiet hrun hpending (hquiet message List.mem_cons_self)
    obtain ⟨hafter, hanswers⟩ := quiet hrun hpending rest fun later hlater =>
      hquiet later (List.mem_cons_of_mem _ hlater)
    rw [after, answers, hsession, hanswer, hafter, hanswers]
    exact ⟨rfl, rfl⟩

/-! ## The reply ends the run -/

/-- A run that was called to stop, cut at its request by the reply. -/
def cut (run : Run) (pending : Pending) (reason : String) (reply : Reply) : Run :=
  Run.record { run.taken with
    cancellation := some { reason := some reason, step := some pending.step } }
    (Run.canceledResult pending reply (some reason))

theorem respond_called {reason : String} (hrun : session.run = some (called run reason))
    (hpending : run.pending = some pending) (reply : Reply) :
    session.respond pending.token reply =
      (session.finish (cut run pending reason reply)).announce [] := by
  have hcalled : (called run reason).pending = some pending := hpending
  rw [respond_of_pending hrun hcalled]
  rfl

theorem cutAt_report {requests : RequestIndex} {token : Nat}
    (h : run.AtRest requests token pending) (reason : String) (reply : Reply)
    (document : Document) :
    ((cut run pending reason reply).report document).CutAt run pending reason where
  outcome := rfl
  results :=
    ⟨Run.canceledResult pending reply (some reason), rfl, rfl, rfl, rfl, rfl, rfl, rfl, rfl⟩
  failed := by
    show (run.results ++ [_]).countP _ = run.results.countP _
    rw [List.countP_append]
    rfl
  canceled := by
    have hnone : run.results.countP (fun result => result.status == .canceled) = 0 := by
      rw [List.countP_eq_zero]
      intro result hmem
      simpa using h.canceled result hmem
    show (run.results ++ [_]).countP _ = 1
    rw [List.countP_append, hnone]
    rfl
  summary := by
    have hlt : pending.step < run.stepCount := h.step ▸ h.index_lt
    have hmin : min pending.step (run.stepCount - 1) = pending.step := by omega
    show _ ++ toString (min pending.step (run.stepCount - 1) + 1) ++ _ ++ _ ++ _ ++ _ ++ _ = _
    rw [hmin]
    rfl

/-- The reply to a canceled run's request ends the run with a report that cuts it there. -/
theorem completed_of_called {reason : String} (hrun : session.run = some (called run reason))
    (h : run.AtRest session.document.requestIndex session.nextToken pending) (reply : Reply) :
    ∃ report : Report, report.CutAt run pending reason ∧
      (session.respond pending.token reply).answer = .completed report ∧
      (session.respond pending.token reply).session.run = none := by
  have hopen : (cut run pending reason reply).finalized = false := h.finalized
  refine ⟨_, cutAt_report h reason reply session.document, ?_, ?_⟩
  · rw [respond_called hrun h.isPending, finish_of_open session hopen]
    rfl
  · rw [respond_called hrun h.isPending]
    exact run_finish session _

/-- Before a canceled run sends anything again, its end is told. -/
theorem completed_before_dispatch {reason : String} (hrun : session.run = some (called run reason))
    (hrest : run.AtRest session.document.requestIndex session.nextToken pending)
    {dispatch : Dispatch} :
    ∀ {messages : List Message} {before after : List (Except StartFault Command)},
      session.answers messages = before ++ .ok (.dispatch dispatch) :: after →
      ∃ report : Report, report.CutAt run pending reason ∧ .ok (.completed report) ∈ before
  | [], before, after, h => by simp [answers] at h
  | message :: rest, before, after, h => by
    by_cases hbrings : message.Brings pending.token
    · cases message with
      | start target environment => exact hbrings.elim
      | cancel again => exact hbrings.elim
      | respond token reply =>
        obtain rfl : token = pending.token := hbrings
        obtain ⟨report, hcut, hanswer, -⟩ := completed_of_called hrun hrest reply
        have hfirst : (session.receive (.respond pending.token reply)).answer =
            .ok (.completed report) := congrArg Except.ok hanswer
        rw [answers, hfirst] at h
        cases before with
        | nil => simp at h
        | cons first before =>
          simp only [List.cons_append, List.cons.injEq] at h
          exact ⟨report, hcut, by rw [← h.1]; exact List.mem_cons_self⟩
    · obtain ⟨hsession, hanswer⟩ := receive_quiet hrun hrest.isPending hbrings
      rw [answers, hsession, hanswer] at h
      cases before with
      | nil =>
        cases message <;> simp [Message.quietAnswer] at h
      | cons first before =>
        simp only [List.cons_append, List.cons.injEq] at h
        obtain ⟨report, hcut, hmem⟩ := completed_before_dispatch hrun hrest h.2
        exact ⟨report, hcut, List.mem_cons_of_mem _ hmem⟩

/-- A call to cancel cuts the run at the request that is out. Messages that do not bring the reply
to it change nothing and send nothing; the reply, whatever it says, ends the run with one canceled
result more, under the first reason; and nothing is sent before that. -/
theorem cancel_cuts (hreach : session.Reachable) (hrun : session.run = some run)
    (reason : Option String) :
    let canceled := (session.cancel reason).session
    let first := firstReason run reason
    (session.cancel reason).answer = .idle ∧ canceled.run = some (called run first) ∧
    Text.isBlankText first = false ∧ ∃ pending, run.pending = some pending ∧
      (∀ later : List Message, (∀ message ∈ later, ¬ message.Brings pending.token) →
        canceled.after later = canceled ∧
          canceled.answers later = later.map Message.quietAnswer) ∧
      (∀ reply, ∃ report : Report, report.CutAt run pending first ∧
        (canceled.respond pending.token reply).answer = .completed report ∧
        (canceled.respond pending.token reply).session.run = none) ∧
      ∀ (later : List Message) before dispatch after,
        canceled.answers later = before ++ .ok (.dispatch dispatch) :: after →
        ∃ report : Report, report.CutAt run pending first ∧ .ok (.completed report) ∈ before := by
  intro canceled first
  obtain ⟨pending, hrest⟩ := hreach.atRest run hrun
  have hcanceled : canceled = { session with run := some (called run first) } :=
    cancel_session hrun hrest reason
  have hcalled : canceled.run = some (called run first) := by rw [hcanceled]
  have hwaiting : run.AtRest canceled.document.requestIndex canceled.nextToken pending := by
    rw [hcanceled]
    exact hrest
  refine ⟨answer_cancel_of_atRest hreach.atRest reason, hcalled,
    isBlankText_firstReason hrest reason, pending, hrest.isPending, ?_, ?_, ?_⟩
  · exact quiet hcalled hrest.isPending
  · exact completed_of_called hcalled hwaiting
  · intro later before dispatch after
    exact completed_before_dispatch hcalled hwaiting

/-- A run that is called to stop at the first item of its loop, and whose request then fails. -/
theorem cancel_cuts_smoke :
    let session := Smoke.session.after [.start (.workflow "smoke") ""]
    ∃ run, session.Reachable ∧ session.run = some run ∧
      ∃ report : Report, report.summary = "workflow 'smoke' canceled at step 1/2 (enough)" ∧
        ((session.cancel (some "enough")).session.respond 1 (.failed "refused")).answer =
          .completed report := by
  intro session
  have hreach : session.Reachable := ⟨_, _, _, _, _, rfl⟩
  let begun := Run.start Smoke.workflow .workflow "" .empty
  let looping : Run := { begun with loop := some ⟨0, ["a", "b"], 0, "host", true⟩ }
  have hentered : begun.round Smoke.session.setting 1 = .next looping [] := rfl
  obtain ⟨run, dispatch, notices, hsent, hpending, hsubject, hcount, hcancellation⟩ :
      ∃ run dispatch notices, looping.round Smoke.session.setting 1 = .sent run dispatch notices ∧
        run.pending = some ⟨1, 0, "ping", "ping", ⟨1, 2⟩, none⟩ ∧
        run.subject = "workflow 'smoke'" ∧ run.stepCount = 2 ∧ run.cancellation = none :=
    ⟨_, _, _, rfl, rfl, rfl, rfl, rfl⟩
  have hrun : session.run = some run := by
    show (Drive.start Smoke.session (.workflow "smoke") "").session.run = some run
    rw [start_of_accepts Smoke.accepts]
    show (Smoke.session.follow (begun.advance Smoke.session.setting 1)).session.run = some run
    rw [Run.advance_of_next hentered, Run.advance_of_sent hsent]
    rfl
  obtain ⟨-, -, -, pending, hout, -, hreply, -⟩ := cancel_cuts hreach hrun (some "enough")
  cases hpending.symm.trans hout
  obtain ⟨report, hcut, hanswer, -⟩ := hreply (.failed "refused")
  refine ⟨run, hreach, hrun, report, ?_, hanswer⟩
  rw [hcut.summary, hsubject, hcount, firstReason, hcancellation]
  decide

end Session

end RequestFlow
