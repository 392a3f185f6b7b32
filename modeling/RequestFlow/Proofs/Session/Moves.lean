import RequestFlow.Proofs.Run.Course
import RequestFlow.Proofs.Session.AtRest

/-!
# What a message can do

A session at rest that is told something does one of five things: it ignores the message, notes a
call to stop, begins a run, ends its run over a reply, or goes on with it. Whatever is to be shown
of all sessions is shown for these five.

* `Session.course`: the rounds that are taken while a message is handled;
* `Session.Moves`: the five things, each with its rounds and its reaction;
* `Session.moves_receive`: there are no others;
* `Session.plain_course`: a run that has been called to stop takes no rounds;
* `Session.Lasting`: what holds of all runs because starts, calls, replies and rounds keep it;
* `Session.lasting_planned`: every run goes back to an accepted start;
* `Session.asked_receive`: the requests that are asked for are those that the rounds send.
-/

namespace RequestFlow

/-- The request that an answer wants sent. -/
def asked? : Except StartFault Command → Option Dispatch
  | .ok (.dispatch dispatch) => some dispatch
  | _ => none

namespace Session

variable {σ : Type} {session : Session σ}

theorem after_append (session : Session σ) (first second : List Message) :
    session.after (first ++ second) = (session.after first).after second := by
  induction first generalizing session with
  | nil => rfl
  | cons message rest ih => exact ih _

theorem answers_append (session : Session σ) (first second : List Message) :
    session.answers (first ++ second) =
      session.answers first ++ (session.after first).answers second := by
  induction first generalizing session with
  | nil => rfl
  | cons message rest ih => exact congrArg _ (ih _)

/-! ## The rounds that a message brings about -/

/-- The run of a target before its first step, where nothing stands against its start. -/
def opened? (session : Session σ) (target : Target) (environment : String) : Option Run :=
  match session.run, session.document.planned? target,
      session.environmentVariables environment with
  | none, some (workflow, origin), .ok vars =>
    if (workflow.validate session.document.requestIndex).isOk then
      some (.start workflow origin environment vars)
    else none
  | _, _, _ => none

/-- The run with the reply to its request recorded, where neither the reply nor an earlier call
stops it. -/
def continued? (session : Session σ) (token : Nat) (reply : Reply) : Option Run :=
  match session.awaiting? token with
  | none => none
  | some (run, pending) =>
    if run.isCanceled || run.stopsAt (run.replyResult pending reply) then none
    else some (run.record (run.replyResult pending reply)).goOn

/-- The run that a message makes advance. -/
def advancing? (session : Session σ) : Message → Option Run
  | .start target environment => session.opened? target environment
  | .respond token reply => session.continued? token reply
  | .cancel _ => none

/-- The rounds that are taken while a message is handled, each beside the run that takes it. -/
def course (session : Session σ) (message : Message) : List (Run × Round) :=
  match session.advancing? message with
  | some run => run.course session.setting session.nextToken
  | none => []

/-! ## The five moves -/

/-- What a session at rest can do with a message: the rounds it takes, and its reaction. -/
inductive Moves (session : Session σ) :
    Message → List (Run × Round) → Reaction σ (Except StartFault Command) → Prop where
  /-- The message changes nothing. -/
  | ignored {message : Message} {answer : Except StartFault Command} {notices : List Notice}
      (quiet : (∃ fault, answer = .error fault) ∨ answer = .ok .idle) :
      Moves session message [] ⟨session, answer, notices⟩
  /-- The run is called to stop, for the first time. -/
  | called {run : Run} {pending : Pending} (reason : Option String)
      (active : session.run = some run)
      (rests : run.AtRest session.document.requestIndex session.nextToken pending)
      (first : run.cancellation = none) :
      Moves session (.cancel reason) []
        ⟨{ session with run := some (called run (reasonText reason)) }, .ok .idle,
          [cancelNotice run reason]⟩
  /-- A run begins. -/
  | began {target : Target} {environment : String} {workflow : Workflow} {origin : Origin}
      {vars : TextMap} (accepts : session.Accepts target environment workflow origin vars) :
      Moves session (.start target environment)
        ((Run.start workflow origin environment vars).course session.setting session.nextToken)
        ((session.begin (.start workflow origin environment vars)).map .ok)
  /-- The reply to the request that is out ends the run. -/
  | ended {run closed : Run} {pending : Pending} {reply : Reply} {notices : List Notice}
      (active : session.run = some run)
      (rests : run.AtRest session.document.requestIndex session.nextToken pending)
      (resumes : run.taken.resume session.setting session.nextToken pending reply =
        ⟨closed, none, notices⟩) :
      Moves session (.respond pending.token reply) []
        (((session.finish closed).announce notices).map .ok)
  /-- The run goes on over the reply to the request that is out. -/
  | resumed {run : Run} {pending : Pending} {reply : Reply} {result : Result}
      (active : session.run = some run)
      (rests : run.AtRest session.document.requestIndex session.nextToken pending)
      (plain : run.cancellation = none) (recorded : result = run.taken.replyResult pending reply)
      (goes : run.taken.stopsAt result = false) :
      Moves session (.respond pending.token reply)
        ((run.taken.record result).goOn.course session.setting session.nextToken)
        (((session.follow ((run.taken.record result).goOn.advance session.setting
          session.nextToken)).announce (run.taken.resultNotices result)).map .ok)

/-- A run that a reply ends has not been told to be over before. -/
theorem sound_of_ended {run closed : Run} {pending : Pending} {reply : Reply}
    {notices : List Notice}
    (rests : run.AtRest session.document.requestIndex session.nextToken pending)
    (resumes : run.taken.resume session.setting session.nextToken pending reply =
      ⟨closed, none, notices⟩) :
    Transition.Sound session.document session.nextToken ⟨closed, none, notices⟩ := by
  rw [← resumes]
  exact Run.sound_resume rests reply

/-- Nothing stands against the start of a run that opens. -/
theorem accepts_of_opened {target : Target} {environment : String} {run : Run}
    (h : session.opened? target environment = some run) :
    ∃ workflow origin vars, session.Accepts target environment workflow origin vars ∧
      run = .start workflow origin environment vars := by
  unfold opened? at h
  split at h
  · rename_i workflow origin vars hidle hplanned hdeclared
    split at h
    · rename_i hok
      cases hvalid : workflow.validate session.document.requestIndex with
      | error fault => simp [hvalid, Except.isOk, Except.toBool] at hok
      | ok valid =>
        cases h
        exact ⟨workflow, origin, vars, ⟨hidle, hplanned, hvalid, hdeclared⟩, rfl⟩
    · cases h
  · cases h

theorem opened_of_accepts {target : Target} {environment : String} {workflow : Workflow}
    {origin : Origin} {vars : TextMap}
    (h : session.Accepts target environment workflow origin vars) :
    session.opened? target environment = some (.start workflow origin environment vars) := by
  simp [opened?, h.idle, h.planned, h.declared, h.valid, Except.isOk, Except.toBool]

theorem moves_start (target : Target) (environment : String) :
    session.Moves (.start target environment) (session.course (.start target environment))
      (session.receive (.start target environment)) := by
  cases hopened : session.opened? target environment with
  | some run =>
    obtain ⟨workflow, origin, vars, haccepts, rfl⟩ := accepts_of_opened hopened
    simp only [course, advancing?, hopened, receive]
    rw [start_of_accepts haccepts]
    exact .began haccepts
  | none =>
    rcases session.start_cases target environment with
      ⟨fault, notices, heq⟩ | ⟨_, _, _, haccepts, -⟩
    · simp only [course, advancing?, hopened, receive]
      rw [heq]
      exact .ignored (.inl ⟨fault, rfl⟩)
    · cases hopened.symm.trans (opened_of_accepts haccepts)

/-- A reply after which the run is over. -/
theorem moves_of_ended {run closed : Run} {pending : Pending} {reply : Reply}
    {notices : List Notice}
    (active : session.run = some run)
    (rests : run.AtRest session.document.requestIndex session.nextToken pending)
    (resumes : run.taken.resume session.setting session.nextToken pending reply =
      ⟨closed, none, notices⟩) :
    session.Moves (.respond pending.token reply) [] ((session.follow
      (run.taken.resume session.setting session.nextToken pending reply)).map .ok) := by
  rw [resumes]
  exact .ended active rests resumes

/-- The reply to the request that is out. -/
theorem moves_of_pending {run : Run} {pending : Pending} (active : session.run = some run)
    (rests : run.AtRest session.document.requestIndex session.nextToken pending) (reply : Reply) :
    session.Moves (.respond pending.token reply) (session.course (.respond pending.token reply))
      (session.receive (.respond pending.token reply)) := by
  have hawaiting : session.awaiting? pending.token = some (run.taken, pending) := by
    rw [awaiting?_eq active rests.isPending, if_pos rfl]
  have hsame : run.taken.cancellation = run.cancellation := rfl
  rw [receive, respond_of_pending active rests.isPending]
  simp only [course, advancing?, continued?, hawaiting]
  cases hcancellation : run.cancellation with
  | some cancellation =>
    have hcanceled : run.taken.isCanceled = true := by
      rw [Run.isCanceled, hsame, hcancellation, Option.isSome_some]
    rw [hcanceled, Bool.true_or, if_pos rfl]
    obtain ⟨closed, hclosed⟩ : ∃ closed,
        run.taken.resume session.setting session.nextToken pending reply = ⟨closed, none, []⟩ := by
      unfold Run.resume
      rw [hsame, hcancellation]
      exact ⟨_, rfl⟩
    exact moves_of_ended active rests hclosed
  | none =>
    have hplain := hsame.trans hcancellation
    have hcanceled : run.taken.isCanceled = false := by
      rw [Run.isCanceled, hplain, Option.isSome_none]
    rw [hcanceled, Bool.false_or]
    cases hstop : run.taken.stopsAt (run.taken.replyResult pending reply) with
    | true =>
      obtain ⟨closed, notices, hclosed⟩ : ∃ closed notices,
          run.taken.resume session.setting session.nextToken pending reply =
            ⟨closed, none, notices⟩ := by
        rw [Run.resume_eq hplain, if_pos hstop]
        exact ⟨_, _, rfl⟩
      exact moves_of_ended active rests hclosed
    | false =>
      rw [if_neg Bool.false_ne_true, Run.resume_eq hplain, hstop, if_neg Bool.false_ne_true,
        follow_announce]
      exact .resumed active rests hcancellation rfl hstop

theorem moves_respond (h : session.AtRest) (token : Nat) (reply : Reply) :
    session.Moves (.respond token reply) (session.course (.respond token reply))
      (session.receive (.respond token reply)) := by
  cases hawaiting : session.awaiting? token with
  | none =>
    simp only [course, advancing?, continued?, hawaiting, receive, respond]
    exact .ignored (.inr rfl)
  | some awaited =>
    cases hrun : session.run with
    | none => simp [awaiting?, hrun] at hawaiting
    | some run =>
      obtain ⟨pending, hrest⟩ := h run hrun
      rw [awaiting?_eq hrun hrest.isPending] at hawaiting
      split at hawaiting
      · rename_i htoken
        subst htoken
        exact moves_of_pending hrun hrest reply
      · cases hawaiting

theorem moves_cancel (h : session.AtRest) (reason : Option String) :
    session.Moves (.cancel reason) (session.course (.cancel reason))
      (session.receive (.cancel reason)) := by
  rw [receive]
  cases hrun : session.run with
  | none =>
    rw [cancel_of_idle_session hrun]
    exact .ignored (.inr rfl)
  | some run =>
    obtain ⟨pending, hrest⟩ := h run hrun
    cases hcanceled : run.isCanceled with
    | true =>
      rw [cancel_of_canceled hrun hcanceled]
      exact .ignored (.inr rfl)
    | false =>
      rw [cancel_of_pending hrun hrest.isPending hcanceled]
      exact .called reason hrun hrest (by simpa [Run.isCanceled] using hcanceled)

/-- A session at rest can do nothing else with a message. -/
theorem moves_receive (h : session.AtRest) (message : Message) :
    session.Moves message (session.course message) (session.receive message) := by
  cases message with
  | start target environment => exact moves_start target environment
  | respond token reply => exact moves_respond h token reply
  | cancel reason => exact moves_cancel h reason

/-- Only a run that has not been called to stop takes rounds. -/
theorem plain_course (h : session.AtRest) {message : Message} {taken : Run × Round}
    (htaken : taken ∈ session.course message) : taken.1.cancellation = none := by
  have hplain {run : Run} (hrun : run.cancellation = none)
      (hmem : taken ∈ run.course session.setting session.nextToken) :
      taken.1.cancellation = none :=
    (Run.mem_course (P := fun later => later.cancellation = none)
      (fun _ hlater => Run.plain_round hlater) hrun hmem).1
  have hmoves := moves_receive h message
  generalize session.course message = course at hmoves htaken
  generalize session.receive message = reaction at hmoves
  cases hmoves with
  | ignored => cases htaken
  | called => cases htaken
  | began => exact hplain rfl htaken
  | ended => cases htaken
  | @resumed run _ _ result _ _ plain =>
    have hrecorded : (run.taken.record result).cancellation = none := plain
    exact hplain (Run.plain_goOn hrecorded) htaken

/-! ## What lasts -/

/-- What holds of the run of every accepted start, and is kept by calls to stop, replies and rounds.
-/
structure Lasting (session : Session σ) (P : Run → Prop) : Prop where
  start : ∀ {target environment workflow origin vars},
    session.Accepts target environment workflow origin vars →
      P (.start workflow origin environment vars)
  called : ∀ {run} reason, P run → P (called run reason)
  replied : ∀ {run pending} result,
    run.AtRest session.document.requestIndex session.nextToken pending → P run →
      P (run.taken.record result).goOn
  round : ∀ run, P run → P (run.round session.setting session.nextToken).run

/-- The run of a session has a property, if there is one. -/
def Has (session : Session σ) (P : Run → Prop) : Prop := ∀ run, session.run = some run → P run

theorem has_follow {P : Run → Prop} {transition : Transition} (h : P transition.run) :
    (session.follow transition).session.Has P := by
  unfold follow
  split
  · rintro _ ⟨⟩
    exact h
  · intro run hrun
    cases (run_finish session transition.run).symm.trans hrun

/-- What lasts still holds of the run after a message. -/
theorem Lasting.receive {P : Run → Prop} (lasts : session.Lasting P) (h : session.AtRest)
    (holds : session.Has P) (message : Message) : (session.receive message).session.Has P := by
  have hmoves := moves_receive h message
  generalize session.course message = course at hmoves
  generalize session.receive message = reaction at hmoves
  cases hmoves with
  | ignored => exact holds
  | called reason active =>
    rintro _ ⟨⟩
    exact lasts.called _ (holds _ active)
  | began accepts => exact has_follow (Run.advance_induction lasts.round (lasts.start accepts))
  | ended =>
    intro run hrun
    cases (run_finish session _).symm.trans hrun
  | resumed active rests =>
    exact has_follow
      (Run.advance_induction lasts.round (lasts.replied _ rests (holds _ active)))

/-- What lasts holds of every run that takes a round while a message is handled. -/
theorem Lasting.course {P : Run → Prop} (lasts : session.Lasting P) (h : session.AtRest)
    (holds : session.Has P) {message : Message} {taken : Run × Round}
    (htaken : taken ∈ session.course message) :
    P taken.1 ∧ taken.2 = taken.1.round session.setting session.nextToken := by
  have hmoves := moves_receive h message
  generalize session.course message = course at hmoves htaken
  generalize session.receive message = reaction at hmoves
  cases hmoves with
  | ignored => cases htaken
  | called => cases htaken
  | began accepts => exact Run.mem_course lasts.round (lasts.start accepts) htaken
  | ended => cases htaken
  | resumed active rests =>
    exact Run.mem_course lasts.round (lasts.replied _ rests (holds _ active)) htaken

/-- What lasts in every session that is set up alike holds of the run after any messages. -/
theorem has_after_of_basis {P : Run → Prop}
    (lasts : ∀ later : Session σ, later.basis = session.basis → later.Lasting P)
    (h : session.AtRest) (holds : session.Has P) (messages : List Message) :
    (session.after messages).Has P :=
  (after_induction (P := fun later => later.basis = session.basis ∧ later.AtRest ∧ later.Has P)
    (fun later message hlater =>
      ⟨(basis_receive later message).trans hlater.1, atRest_receive later message hlater.2.1,
        (lasts later hlater.1).receive hlater.2.1 hlater.2.2 message⟩)
    ⟨rfl, h, holds⟩ messages).2.2

/-- What lasts in every session holds of the run after any messages. -/
theorem has_after {P : Run → Prop} (lasts : ∀ session : Session σ, session.Lasting P)
    (h : session.AtRest) (holds : session.Has P) (messages : List Message) :
    (session.after messages).Has P :=
  has_after_of_basis (fun later _ => lasts later) h holds messages

/-! ## Where runs come from -/

/-- The run goes back to a start that nothing stood against. -/
structure Planned (session : Session σ) (run : Run) : Prop where
  target : ∃ target, session.document.planned? target = some (run.workflow, run.origin)
  valid : run.workflow.validate session.document.requestIndex = .ok ()
  declared : session.environmentVariables run.environment = .ok run.environmentVars

/-- What a run was started with decides where it comes from. -/
theorem Planned.of_basis {run later : Run} (h : session.Planned run)
    (same : later.basis = run.basis) : session.Planned later := by
  simp only [Run.basis, Prod.mk.injEq] at same
  obtain ⟨hworkflow, horigin, henvironment, hvars⟩ := same
  refine ⟨?_, ?_, ?_⟩
  · rw [hworkflow, horigin]
    exact h.target
  · rw [hworkflow]
    exact h.valid
  · rw [henvironment, hvars]
    exact h.declared

/-- The session goes by its document only. -/
theorem Planned.of_document {later : Session σ} {run : Run} (h : session.Planned run)
    (same : later.document = session.document) : later.Planned run := by
  refine ⟨same ▸ h.target, same ▸ h.valid, ?_⟩
  have hdeclared := h.declared
  rw [environmentVariables, ← same] at hdeclared
  exact hdeclared

/-- Every run goes back to an accepted start. -/
theorem lasting_planned (session : Session σ) : session.Lasting session.Planned where
  start h := ⟨⟨_, h.planned⟩, h.valid, h.declared⟩
  called _ h := h.of_basis rfl
  replied result _ h := h.of_basis (Run.basis_goOn (Run.record (Run.taken _) result))
  round run h := h.of_basis (Run.basis_round run session.setting session.nextToken)

theorem planned_receive (h : session.AtRest) (planned : session.Has session.Planned)
    (message : Message) :
    (session.receive message).session.Has (session.receive message).session.Planned := by
  intro run hrun
  exact ((lasting_planned session).receive h planned message run hrun).of_document
    (document_receive session message)

theorem planned_after (h : session.AtRest) (planned : session.Has session.Planned)
    (messages : List Message) :
    (session.after messages).Has (session.after messages).Planned :=
  (after_induction (P := fun later => later.AtRest ∧ later.Has later.Planned)
    (fun later message hlater =>
      ⟨atRest_receive later message hlater.1, planned_receive hlater.1 hlater.2 message⟩)
    ⟨h, planned⟩ messages).2

/-! ## Requests that are asked for -/

theorem asked?_follow (session : Session σ) (transition : Transition) :
    asked? (.ok (session.follow transition).answer) = transition.dispatch := by
  unfold follow
  cases transition.dispatch with
  | some dispatch => rfl
  | none =>
    simp only [Reaction.announce, finish, Run.finalize]
    cases transition.run.finalized <;> rfl

/-- A request is asked for if and only if a round of the course sends it. -/
theorem asked_receive (h : session.AtRest) (message : Message) :
    (session.course message).filterMap (fun taken => taken.2.dispatch?) =
      (asked? (session.receive message).answer).toList := by
  have hmoves := moves_receive h message
  generalize session.course message = course at hmoves
  generalize session.receive message = reaction at hmoves
  cases hmoves with
  | ignored quiet => rcases quiet with ⟨fault, rfl⟩ | rfl <;> rfl
  | called => rfl
  | began =>
    rw [Run.dispatches_course]
    exact congrArg Option.toList (asked?_follow session _).symm
  | @ended run closed pending reply notices =>
    exact congrArg Option.toList (asked?_follow session ⟨closed, none, notices⟩).symm
  | resumed =>
    rw [Run.dispatches_course]
    exact congrArg Option.toList (asked?_follow session _).symm

end Session

end RequestFlow
