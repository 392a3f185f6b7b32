import RequestFlow.Proofs.Run.OneRequest
import RequestFlow.Proofs.Session.Loops

/-!
# Loops over a request by its name

A loop over a request is asked for by the request's name, which is looked up as it is. The workflow
that is made for the loop targets the request by the same name, and there it is looked up again
without the blanks around it. So a request whose name has such blanks is never the one that is sent.

* `Session.heard`: what a session answers as long as its run is active;
* `Session.isFor_receive`: a run for one request answers with this request only;
* `Session.loop_of_name`: what the start of a loop comes to, and for which request its run is;
* `Session.loop_of_other`: the run of another request than the one that was asked for.
-/

namespace RequestFlow

open Text

/-- What a command wants sent, or tells of, is of the request. -/
def Command.IsFor (target : Request) : Command → Prop
  | .dispatch sent => sent.request = target
  | .completed report => ∀ result ∈ report.results, result.request = some target.name
  | .idle => True

namespace Session

variable {σ : Type} {session : Session σ} {target : Request}

/-- What a session answers to messages as long as its run is active. -/
def heard (session : Session σ) : List Message → List (Except StartFault Command)
  | [] => []
  | message :: rest =>
    if session.isRunning then
      (session.receive message).answer :: (session.receive message).session.heard rest
    else []

/-! ## A run for one request -/

/-- The run of the session is for the request, and will be. -/
def HasFor (session : Session σ) (requests : RequestIndex) (target : Request) : Prop :=
  session.Has fun run => run.IsFor target ∧ run.workflow.RunsOnly requests target

theorem isFor_follow {requests : RequestIndex} {transition : Transition}
    (h : transition.IsFor target) (only : transition.run.workflow.RunsOnly requests target) :
    (session.follow transition).answer.IsFor target ∧
      (session.follow transition).session.HasFor requests target := by
  refine ⟨?_, has_follow ⟨h.run, only⟩⟩
  unfold follow
  split
  · rename_i dispatch hdispatch
    exact h.dispatch dispatch hdispatch
  · simp only [Reaction.announce, finish, Run.finalize]
    cases transition.run.finalized with
    | true => trivial
    | false => exact h.run.results

theorem isFor_begin {run : Run} (h : run.IsFor target)
    (only : run.workflow.RunsOnly session.document.requestIndex target) :
    (session.begin run).answer.IsFor target ∧
      (session.begin run).session.HasFor session.document.requestIndex target := by
  have hworkflow :=
    Run.workflow_of_basis (Run.basis_advance run session.setting session.nextToken)
  exact isFor_follow (Run.isFor_advance h only) (hworkflow ▸ only)

/-- The message changes nothing but what was said of the run. -/
theorem isFor_kept {later : Session σ} {answer : Except StartFault Command}
    {requests : RequestIndex} (holds : later.HasFor requests target)
    (quiet : (∃ fault, answer = .error fault) ∨ answer = .ok .idle) :
    (∀ command, answer = .ok command → command.IsFor target) ∧ later.HasFor requests target := by
  refine ⟨fun command hcommand => ?_, holds⟩
  rcases quiet with ⟨fault, rfl⟩ | rfl
  · cases hcommand
  · cases hcommand
    exact True.intro

/-- A run for one request answers with this request only, and stays for it. -/
theorem isFor_receive {run : Run} (h : session.AtRest) (active : session.run = some run)
    (holds : session.HasFor session.document.requestIndex target) (message : Message) :
    (∀ command, (session.receive message).answer = .ok command → command.IsFor target) ∧
      (session.receive message).session.HasFor session.document.requestIndex target := by
  obtain ⟨pending, hrest⟩ := h run active
  obtain ⟨hfor, only⟩ := holds run active
  cases message with
  | start asked environment =>
    rcases session.start_cases asked environment with ⟨fault, notices, heq⟩ | ⟨_, _, _, haccepts, -⟩
    · rw [receive, heq]
      exact isFor_kept holds (.inl ⟨fault, rfl⟩)
    · cases active.symm.trans haccepts.idle
  | respond token reply =>
    rw [receive]
    by_cases htoken : pending.token = token
    · rw [← htoken, respond_of_pending active hrest.isPending]
      have hresume : (run.taken.resume session.setting session.nextToken pending reply).IsFor
          target := by
        have htaken : run.taken.IsFor target := ⟨hfor.results, by rintro _ ⟨⟩⟩
        have hsame : run.taken.workflow.RunsOnly session.setting.requests target := only
        exact Run.isFor_resume htaken hsame (hfor.pending pending hrest.isPending) reply
      have hworkflow : (run.taken.resume session.setting session.nextToken pending
          reply).run.workflow = run.workflow :=
        Run.workflow_of_basis
          (Run.basis_resume run.taken session.setting session.nextToken pending reply)
      obtain ⟨hanswer, hkept⟩ := isFor_follow hresume (hworkflow ▸ only)
      exact ⟨by rintro _ ⟨⟩; exact hanswer, hkept⟩
    · rw [respond_of_stale active hrest.isPending htoken]
      exact isFor_kept holds (.inr rfl)
  | cancel reason =>
    rw [receive]
    cases hcanceled : run.isCanceled with
    | true =>
      rw [cancel_of_canceled active hcanceled]
      exact isFor_kept holds (.inr rfl)
    | false =>
      rw [cancel_of_pending active hrest.isPending hcanceled]
      refine isFor_kept ?_ (.inr rfl)
      rintro _ ⟨⟩
      exact ⟨⟨hfor.results, hfor.pending⟩, only⟩

/-- So it does as long as it is active. -/
theorem isFor_heard (h : session.AtRest)
    (holds : session.HasFor session.document.requestIndex target) (messages : List Message) :
    ∀ answer ∈ session.heard messages, ∀ command, answer = .ok command → command.IsFor target := by
  induction messages generalizing session with
  | nil => simp [heard]
  | cons message rest ih =>
    rw [heard]
    cases hrun : session.run with
    | none => simp [isRunning, hrun]
    | some run =>
      obtain ⟨hanswer, hkept⟩ := isFor_receive h hrun holds message
      rw [if_pos (by simp [isRunning, hrun]), List.forall_mem_cons]
      refine ⟨hanswer, ih (atRest_receive session message h) ?_⟩
      rw [document_receive]
      exact hkept

/-- A run of a workflow that runs one request only is a run for it, from its start to its end. -/
theorem isFor_started {asked : Target} {environment : String} {workflow : Workflow}
    {origin : Origin} {vars : TextMap} (accepts : session.Accepts asked environment workflow origin
      vars) (only : workflow.RunsOnly session.document.requestIndex target)
    (messages : List Message) :
    let started := Drive.start session asked environment
    ∀ answer ∈ started.answer :: started.session.heard messages,
      ∀ command, answer = .ok command → command.IsFor target := by
  intro started
  have heq : started = _ := start_of_accepts accepts
  obtain ⟨hanswer, hkept⟩ := isFor_begin
    (Run.isFor_start workflow origin environment vars) only
  have hdocument : started.session.document = session.document :=
    document_receive session (.start asked environment)
  have hrest : started.session.AtRest :=
    atRest_start asked environment (atRest_of_idle accepts.idle)
  refine List.forall_mem_cons.2 ⟨?_, isFor_heard hrest ?_ messages⟩
  · rw [heq]
    rintro _ ⟨⟩
    exact hanswer
  · rw [hdocument, heq]
    exact hkept

/-! ## Loops over a request -/

section

variable {name environment : String} {request : Request} {spec : LoopSpec} {vars : TextMap}

/-- Validation looks the request up again, without the blanks around its name. -/
theorem validate_loopWorkflow (requests : RequestIndex) (request : Request)
    (hspec : spec.Acceptable) :
    (loopWorkflow request spec).validate requests =
      if trimmed request.name = "" then .error (.step request.name 1 .noTarget)
      else if requests.contains (trimmed request.name) then .ok ()
      else .error (.step request.name 1 (.unknownTarget (trimmed request.name))) := by
  have hloop : LoopSpec.check (some spec) = .ok () := LoopSpec.check_iff.2 ⟨spec, rfl, hspec⟩
  have htarget : RequestStep.check requests { target := request.name } =
      if trimmed request.name = "" then .error .noTarget
      else if requests.contains (trimmed request.name) then .ok ()
      else .error (.unknownTarget (trimmed request.name)) := rfl
  simp only [Workflow.validate, loopWorkflow, List.isEmpty_cons, Bool.false_eq_true, if_false,
    checkSteps, Step.check, htarget, hloop]
  by_cases hnamed : trimmed request.name = ""
  · simp only [if_pos hnamed]
    rfl
  · simp only [if_neg hnamed]
    by_cases hknown : requests.contains (trimmed request.name) = true
    · simp only [if_pos hknown]
      rfl
    · simp only [if_neg hknown]
      rfl

/-- A start over an acceptable loop that validation turns down is turned down for its reason. -/
theorem start_of_invalid {fault : ValidationFault} (idle : session.run = none)
    (hrequest : session.document.requestIndex.get? name = some request)
    (hloop : request.loop = some spec)
    (invalid : (loopWorkflow request spec).validate session.document.requestIndex =
      .error fault) :
    (Drive.start session (.loop name) environment).answer = .error (.invalid fault) := by
  simp only [Drive.start, startLoop, whenIdle, idle, hrequest, hloop, invalid]
  rfl

/-- Every step of the workflow of a loop targets the request that its name stands for without the
blanks around it. -/
theorem runsOnly_loopWorkflow {requests : RequestIndex} (spec : LoopSpec)
    (h : requests.get? (trimmed request.name) = some target) :
    (loopWorkflow request spec).RunsOnly requests target := by
  intro step hstep
  rw [List.mem_singleton.1 hstep]
  exact ⟨_, rfl, h⟩

/-- In an idle session the loop of a request starts if its name stands for a request without the
blanks around it; and then it is a run of this request, whatever it is told and for as long as it
lasts. A name without such blanks stands for the request that was asked for. -/
theorem loop_of_name (idle : session.run = none)
    (hrequest : session.document.requestIndex.get? name = some request)
    (hloop : request.loop = some spec) (hspec : spec.Acceptable)
    (hdeclared : session.environmentVariables environment = .ok vars) :
    let found := session.document.requestIndex.get? (trimmed name)
    let started := Drive.start session (.loop name) environment
    (trimmed name = "" → started.answer = .error (.invalid (.step name 1 .noTarget))) ∧
    (trimmed name ≠ "" → found = none →
      started.answer = .error (.invalid (.step name 1 (.unknownTarget (trimmed name))))) ∧
    (∀ target, trimmed name ≠ "" → found = some target →
      (∃ command, started.answer = .ok command) ∧
        ∀ messages, ∀ answer ∈ started.answer :: started.session.heard messages,
          ∀ command, answer = .ok command → command.IsFor target) ∧
    (trimmed name = name → found = some request) := by
  have hname : request.name = name := Document.name_of_get? hrequest
  have hvalidate := validate_loopWorkflow session.document.requestIndex request hspec
  rw [hname] at hvalidate
  intro found started
  refine ⟨fun hblank => ?_, fun hnamed hnone => ?_, fun target hnamed hfound => ?_, fun hsame => ?_⟩
  · rw [if_pos hblank] at hvalidate
    exact start_of_invalid idle hrequest hloop hvalidate
  · have hunknown : session.document.requestIndex.contains (trimmed name) = false :=
      Option.isSome_eq_false_iff.2 (Option.isNone_iff_eq_none.2 hnone)
    rw [if_neg hnamed, hunknown, if_neg Bool.false_ne_true] at hvalidate
    exact start_of_invalid idle hrequest hloop hvalidate
  · have hknown : session.document.requestIndex.contains (trimmed name) = true :=
      Option.isSome_of_eq_some hfound
    rw [if_neg hnamed, if_pos hknown] at hvalidate
    have haccepts : session.Accepts (.loop name) environment (loopWorkflow request spec) .request
        vars := by
      refine ⟨idle, ?_, hvalidate, hdeclared⟩
      rw [Document.planned?, hrequest, Option.bind_some, hloop, Option.map_some]
    have honly : (loopWorkflow request spec).RunsOnly session.document.requestIndex target := by
      refine runsOnly_loopWorkflow spec ?_
      rw [hname]
      exact hfound
    exact ⟨answer_start_of_accepts haccepts, isFor_started haccepts honly⟩
  · show session.document.requestIndex.get? (trimmed name) = some request
    rw [hsame, hrequest]

end

end Session

/-! ## Two names that differ by blanks -/

namespace Spaced

/-- The loop of the request that is asked for. -/
def spec : LoopSpec := ⟨"[\"a\"]", "id"⟩

/-- A request with blanks around its name. -/
def asked : Request := { name := " item ", url := "http://host/spaced", loop := some spec }

/-- A request with the same name but for the blanks. -/
def other : Request := { name := "item", url := "http://host/other" }

/-- A session over a document with some requests. -/
def session (requests : List Request) : Session Unit := .new { requests } evaluate none ()

theorem acceptable : spec.Acceptable := ⟨rfl, rfl⟩

theorem accepts : (session [asked, other]).Accepts (.loop " item ") ""
    (Session.loopWorkflow asked spec) .request .empty := ⟨rfl, rfl, rfl, rfl⟩

end Spaced

namespace Session

theorem loop_of_name_spaced :
    let started := Drive.start (Spaced.session [Spaced.asked, Spaced.other]) (.loop " item ") ""
    (∃ command, started.answer = .ok command) ∧
      ∀ answer ∈ started.answer :: started.session.heard [.respond 1 (.failed "refused")],
        ∀ command, answer = .ok command → command.IsFor Spaced.other := by
  intro started
  have hrequest : (Spaced.session [Spaced.asked, Spaced.other]).document.requestIndex.get?
      " item " = some Spaced.asked := rfl
  have hfound : (Spaced.session [Spaced.asked, Spaced.other]).document.requestIndex.get?
      (trimmed " item ") = some Spaced.other := rfl
  have hnamed : trimmed " item " ≠ "" := by decide
  obtain ⟨-, -, hruns, -⟩ :=
    loop_of_name Spaced.accepts.idle hrequest rfl Spaced.acceptable Spaced.accepts.declared
  obtain ⟨haccepted, hanswers⟩ := hruns Spaced.other hnamed hfound
  exact ⟨haccepted, hanswers [.respond 1 (.failed "refused")]⟩

/-- A request that is not sent when it is asked for: alone in its document it is not found again,
and beside a request with its name but for the blanks it is this one that is sent. -/
theorem loop_of_other :
    (Spaced.session [Spaced.asked]).document.requestIndex.get? " item " = some Spaced.asked ∧
      (Drive.start (Spaced.session [Spaced.asked]) (.loop " item ") "").answer =
        .error (.invalid (.step " item " 1 (.unknownTarget "item"))) ∧
      ∃ dispatch, (Drive.start (Spaced.session [Spaced.asked, Spaced.other]) (.loop " item ")
          "").answer = .ok (.dispatch dispatch) ∧
        dispatch.request = Spaced.other := by
  refine ⟨rfl, rfl, ?_⟩
  let session := Spaced.session [Spaced.asked, Spaced.other]
  let run : Run := .start (loopWorkflow Spaced.asked Spaced.spec) .request "" .empty
  have hitems : run.loopItems session.setting Spaced.other Spaced.spec = .ok ["a"] := by
    have hevaluator : session.setting.evaluator = evaluate := rfl
    have hlisting : Spaced.spec.items = String.ofList (Expression.listing ["a"]) := rfl
    rw [Run.loopItems, hevaluator, hlisting]
    exact Expression.evaluate_items (by decide) _
  have hfirst : run.round session.setting 1 = .next (run.within Spaced.spec ["a"]) [] :=
    Run.round_of_items rfl rfl rfl hitems (by simp)
  obtain ⟨sent, dispatch, notices, hsecond, hrequest⟩ : ∃ sent dispatch notices,
      (run.within Spaced.spec ["a"]).round session.setting 1 = .sent sent dispatch notices ∧
        dispatch.request = Spaced.other := ⟨_, _, _, rfl, rfl⟩
  exact ⟨dispatch, answer_of_rounds Spaced.accepts hfirst hsecond, hrequest⟩

end Session

end RequestFlow
