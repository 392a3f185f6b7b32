import RequestFlow.Proofs.Session.Moves

/-!
# What a session keeps

A session tells every run that ends in a report, and keeps an entry of it if the run went by the
name of a workflow. Each report leaves its entry once and nothing else leaves one, so the store is
what it was with the entries of the reports put in, in order. Whether there is a recorder, and
whether it can keep what it is given, nobody can see: the bare session, which keeps nothing, answers
in the same way.

* `Session.endings`: the workflows that ran to their end, each with its report;
* `Ending.kept?`: the entry that an ending leaves;
* `Session.store_after`: the store is what the entries of the endings make of it;
* `Session.bare_receive`: a message does the same to a session and to its bare form;
* `Session.history_of_endings`: all of this, for every session that can be reached.
-/

namespace RequestFlow

/-- The report that an answer brings. -/
def reported? : Except StartFault Command → Option Report
  | .ok (.completed report) => some report
  | _ => none

/-- A workflow that ran to its end, with the report on its run. -/
structure Ending where
  workflow : Workflow
  report : Report

/-- The entry that an ending leaves in the history: none where a request was looped over. -/
def Ending.kept? (requests : RequestIndex) (ending : Ending) : Option Entry :=
  match ending.report.origin with
  | .request => none
  | .workflow => some {
      executedAt := .epoch
      environment := ending.report.environment
      workflowId := ending.report.workflowId
      workflowName := ending.report.workflowName
      outcome := ending.report.outcome
      summary := ending.report.summary
      duration := 0
      report := ending.report.text
      definition := ending.workflow.directives requests }

/-- The store with one more entry, where there is a recorder. -/
def noted {σ : Type} (recorder : Option (Recorder σ)) (store : σ) (entry : Entry) : σ :=
  match recorder with
  | none => store
  | some recorder => (recorder entry store).1

namespace Run

variable {σ : Type}

theorem kept?_of_request {run : Run} (h : run.origin = .request) (document : Document) :
    (Ending.mk run.workflow (run.report document)).kept? document.requestIndex = none := by
  simp only [Ending.kept?, report, h]

/-- The entry of a run is that of its ending. -/
theorem kept?_of_workflow {run : Run} (h : run.origin = .workflow) (document : Document) :
    (Ending.mk run.workflow (run.report document)).kept? document.requestIndex =
      some (run.entry document) := by
  simp only [Ending.kept?, report, h, entry]

/-- A run that ends leaves the entry of its ending. -/
theorem keep_eq (run : Run) (document : Document) (recorder : Option (Recorder σ)) (store : σ) :
    run.keep document recorder store =
      ((Ending.mk run.workflow (run.report document)).kept? document.requestIndex).toList.foldl
        (noted recorder) store := by
  cases horigin : run.origin with
  | request =>
    rw [kept?_of_request horigin]
    simp [keep, horigin]
  | workflow =>
    rw [kept?_of_workflow horigin]
    cases recorder <;> simp [keep, horigin, noted]

/-- A run ends once: what has ended before is left as it is. -/
theorem finalize_of_finalized {run : Run} (h : run.finalized = true) (document : Document)
    (recorder : Option (Recorder σ)) (store : σ) :
    run.finalize document recorder store = (run, none, store) := by
  rw [finalize, if_pos h]

theorem finalized_finalize (run : Run) (document : Document) (recorder : Option (Recorder σ))
    (store : σ) : (run.finalize document recorder store).1.finalized = true := by
  unfold finalize
  split
  · assumption
  · rfl

end Run

namespace Session

variable {σ τ : Type} {session : Session σ}

/-! ## Endings and their entries -/

/-- The workflow that a message is about: the one to start, or else the one that is running. -/
def subject? (session : Session σ) : Message → Option Workflow
  | .start target _ => (session.document.planned? target).map Prod.fst
  | .respond _ _ | .cancel _ => session.run.map Run.workflow

/-- The ending that a message brings about. -/
def ending? (session : Session σ) (message : Message) : Option Ending :=
  (session.subject? message).bind fun workflow =>
    (reported? (session.receive message).answer).map (Ending.mk workflow)

/-- The endings that messages bring about, in order. -/
def endings (session : Session σ) : List Message → List Ending
  | [] => []
  | message :: rest =>
    (session.ending? message).toList ++ (session.receive message).session.endings rest

/-- What a message does about endings: it brings none about and keeps the store, or a planned run is
over, is reported, and leaves its entry. -/
inductive Ends (session : Session σ) (ending : Option Ending) (report : Option Report)
    (store : σ) : Prop where
  | none (quiet : ending = .none) (silent : report = .none) (kept : store = session.store)
  | one (closed : Run) (planned : session.Planned closed)
      (ended : ending = some ⟨closed.workflow, closed.report session.document⟩)
      (told : report = some (closed.report session.document))
      (left : store = closed.keep session.document session.recorder session.store)

/-- What comes of a transition: the run goes on, or it is over. -/
theorem ends_follow {transition : Transition} {workflow : Workflow}
    (h : transition.Sound session.document session.nextToken)
    (planned : session.Planned transition.run) (same : transition.run.workflow = workflow) :
    let reaction := session.follow transition
    session.Ends ((reported? (.ok reaction.answer)).map (Ending.mk workflow))
      (reported? (.ok reaction.answer)) reaction.session.store := by
  subst same
  cases hdispatch : transition.dispatch with
  | some dispatch =>
    simp only [follow, hdispatch]
    exact .none rfl rfl rfl
  | none =>
    simp only [follow, hdispatch, Reaction.announce, finish_of_open session h.finalized]
    exact .one transition.run planned rfl rfl rfl

theorem ends_receive (h : session.AtRest) (hplanned : session.Has session.Planned)
    (message : Message) :
    session.Ends (session.ending? message) (reported? (session.receive message).answer)
      (session.receive message).session.store := by
  have hmoves := moves_receive h message
  unfold ending?
  generalize session.course message = course at hmoves
  generalize session.receive message = reaction at hmoves
  cases hmoves with
  | ignored quiet =>
    rcases quiet with ⟨fault, rfl⟩ | rfl <;>
      exact .none (Option.bind_eq_none_iff.2 fun _ _ => rfl) rfl rfl
  | called => exact .none (Option.bind_eq_none_iff.2 fun _ _ => rfl) rfl rfl
  | @began target environment workflow origin vars accepts =>
    have hbasis := Run.basis_advance (.start workflow origin environment vars) session.setting
      session.nextToken
    have hsubject : session.subject? (.start target environment) = some workflow := by
      rw [subject?, accepts.planned, Option.map_some]
    rw [hsubject, Option.bind_some]
    exact ends_follow (Run.sound_advance (Run.underWay_start ..))
      (((lasting_planned session).start accepts).of_basis hbasis) (congrArg Prod.fst hbasis)
  | @ended run closed pending reply notices active rests resumes =>
    have hbasis := Run.basis_resume run.taken session.setting session.nextToken pending reply
    rw [resumes] at hbasis
    have hsubject : session.subject? (.respond pending.token reply) = some run.workflow := by
      rw [subject?, active, Option.map_some]
    rw [hsubject, Option.bind_some]
    exact ends_follow (sound_of_ended rests resumes) ((hplanned run active).of_basis hbasis)
      (congrArg Prod.fst hbasis)
  | @resumed run pending reply result active rests plain recorded goes =>
    have hbasis := (Run.basis_advance _ session.setting session.nextToken).trans
      (Run.basis_goOn (run.taken.record result))
    have hsubject : session.subject? (.respond pending.token reply) = some run.workflow := by
      rw [subject?, active, Option.map_some]
    rw [hsubject, Option.bind_some]
    exact ends_follow (Run.sound_advance (rests.underWay plain (recorded ▸ rfl) goes))
      ((hplanned run active).of_basis hbasis) (congrArg Prod.fst hbasis)

/-! ## All endings -/

/-- Every report is that of an ending. -/
theorem endings_reported (h : session.AtRest) (hplanned : session.Has session.Planned)
    (messages : List Message) :
    (session.endings messages).map Ending.report =
      (session.answers messages).filterMap reported? := by
  induction messages generalizing session with
  | nil => rfl
  | cons message rest ih =>
    have hrest := ih (atRest_receive session message h) (planned_receive h hplanned message)
    rw [endings, answers, List.map_append, hrest, List.filterMap_cons]
    cases ends_receive h hplanned message with
    | none quiet silent => rw [quiet, silent]; rfl
    | one closed planned ended told => rw [ended, told]; rfl

/-- The store is what the entries of the endings make of it. -/
theorem store_after (h : session.AtRest) (hplanned : session.Has session.Planned)
    (messages : List Message) :
    (session.after messages).store =
      ((session.endings messages).filterMap
        (Ending.kept? session.document.requestIndex)).foldl (noted session.recorder)
          session.store := by
  induction messages generalizing session with
  | nil => rfl
  | cons message rest ih =>
    have hrest := ih (atRest_receive session message h) (planned_receive h hplanned message)
    have hbasis := basis_receive session message
    simp only [basis, Prod.mk.injEq] at hbasis
    obtain ⟨hdocument, -, hrecorder⟩ := hbasis
    rw [after, hrest, hdocument, hrecorder, endings, List.filterMap_append, List.foldl_append]
    congr 1
    cases ends_receive h hplanned message with
    | none quiet silent kept => rw [quiet, kept]; rfl
    | one closed planned ended told left =>
      rw [ended, left, Run.keep_eq, Option.toList_some, List.filterMap_cons]
      cases Ending.kept? .. <;> rfl

/-- A run that came about by the name of a workflow runs the workflow with that name. -/
theorem found_of_planned {run : Run} (h : session.Planned run) (horigin : run.origin = .workflow) :
    session.document.findWorkflow? run.workflow.name = some run.workflow := by
  obtain ⟨target, htarget⟩ := h.target
  rw [horigin] at htarget
  cases target with
  | workflow name =>
    obtain ⟨workflow, hfind, heq⟩ := Option.map_eq_some_iff.1 htarget
    cases heq
    have hname : run.workflow.name = name := by simpa using List.find?_some hfind
    rw [hname]
    exact hfind
  | loop name =>
    obtain ⟨request, -, hloop⟩ := Option.bind_eq_some_iff.1 htarget
    obtain ⟨spec, -, heq⟩ := Option.map_eq_some_iff.1 hloop
    cases congrArg Prod.snd heq

/-- The workflow of an ending is the one that the document has under its name. -/
theorem endings_found (h : session.AtRest) (hplanned : session.Has session.Planned)
    (messages : List Message) :
    ∀ ending ∈ session.endings messages, ending.report.origin = .workflow →
      session.document.findWorkflow? ending.report.workflowName = some ending.workflow := by
  induction messages generalizing session with
  | nil => simp [endings]
  | cons message rest ih =>
    have hrest := ih (atRest_receive session message h) (planned_receive h hplanned message)
    rw [document_receive] at hrest
    intro ending hending horigin
    rw [endings, List.mem_append] at hending
    rcases hending with hending | hending
    · cases ends_receive h hplanned message with
      | none quiet => simp [quiet] at hending
      | one closed planned ended =>
        rw [ended, Option.toList_some, List.mem_singleton] at hending
        subst hending
        exact found_of_planned planned horigin
    · exact hrest ending hending horigin

/-! ## Sessions that keep nothing -/

/-- The session without anything to keep entries in. -/
def bare (session : Session σ) : Session Unit :=
  { document := session.document, evaluator := session.evaluator, recorder := none, store := ()
    run := session.run, nextToken := session.nextToken }

end Session

/-- The same reaction of a session that keeps nothing. -/
def Reaction.bare {σ α : Type} (reaction : Reaction σ α) : Reaction Unit α :=
  ⟨reaction.session.bare, reaction.answer, reaction.notices⟩

/-- What can be seen when a session is told a message: the answer, what is told on the way, and then
the active run and the next token. -/
structure View where
  answer : Except StartFault Command
  notices : List Notice
  run : Option Run
  nextToken : Nat

namespace Session

/-- What can be seen while a session is told messages. -/
def views (session : Session σ) : List Message → List View
  | [] => []
  | message :: rest =>
    let reaction := session.receive message
    ⟨reaction.answer, reaction.notices, reaction.session.run, reaction.session.nextToken⟩ ::
      reaction.session.views rest

theorem bare_finish (session : Session σ) (run : Run) :
    (session.finish run).bare = session.bare.finish run := by
  unfold finish Run.finalize
  cases run.finalized <;> rfl

theorem bare_follow (session : Session σ) (transition : Transition) :
    (session.follow transition).bare = session.bare.follow transition := by
  unfold follow
  cases transition.dispatch with
  | some dispatch => rfl
  | none => exact congrArg (Reaction.announce transition.notices) (bare_finish session _)

theorem bare_begin (session : Session σ) (run : Run) :
    (session.begin run).bare = session.bare.begin run :=
  congrArg (Reaction.announce _) (bare_follow session _)

theorem bare_launch (session : Session σ) (workflow : Workflow) (origin : Origin)
    (environment : String) :
    (session.launch workflow origin environment).bare =
      session.bare.launch workflow origin environment := by
  have hdeclared : session.bare.environmentVariables environment =
      session.environmentVariables environment := rfl
  unfold launch
  rw [hdeclared]
  cases session.environmentVariables environment with
  | error fault => rfl
  | ok vars => exact congrArg (Reaction.map Except.ok) (bare_begin session _)

theorem bare_whenIdle (session : Session σ) (start : Reaction σ (Except StartFault Command)) :
    (session.whenIdle start).bare = session.bare.whenIdle start.bare := by
  have hrun : session.bare.run = session.run := rfl
  unfold whenIdle
  rw [hrun]
  cases session.run <;> rfl

theorem bare_start (session : Session σ) (target : Target) (environment : String) :
    (Drive.start session target environment).bare =
      Drive.start session.bare target environment := by
  have hdocument : session.bare.document = session.document := rfl
  cases target with
  | workflow name =>
    simp only [Drive.start, startWorkflow, bare_whenIdle, hdocument]
    congr 1
    cases session.document.findWorkflow? name with
    | none => rfl
    | some workflow =>
      dsimp only
      cases workflow.validate session.document.requestIndex with
      | error fault => rfl
      | ok => exact bare_launch session workflow .workflow environment
  | loop name =>
    simp only [Drive.start, startLoop, bare_whenIdle, hdocument]
    congr 1
    cases session.document.requestIndex.get? name with
    | none => rfl
    | some request =>
      dsimp only
      cases request.loop with
      | none => rfl
      | some spec =>
        dsimp only
        cases (loopWorkflow request spec).validate session.document.requestIndex with
        | error fault => rfl
        | ok => exact bare_launch session (loopWorkflow request spec) .request environment

theorem bare_respond (session : Session σ) (token : Nat) (reply : Reply) :
    (session.respond token reply).bare = session.bare.respond token reply := by
  have hawaiting : session.bare.awaiting? token = session.awaiting? token := rfl
  unfold respond
  rw [hawaiting]
  cases session.awaiting? token with
  | none => rfl
  | some awaited => exact bare_follow session _

theorem bare_cancel (session : Session σ) (reason : Option String) :
    (session.cancel reason).bare = session.bare.cancel reason := by
  have hrun : session.bare.run = session.run := rfl
  unfold cancel
  rw [hrun]
  cases session.run with
  | none => rfl
  | some run =>
    dsimp only
    cases run.isCanceled with
    | true => rfl
    | false =>
      cases run.isInFlight with
      | true => rfl
      | false => exact congrArg (Reaction.announce _) (bare_finish session _)

/-- A message does the same to a session and to its bare form. -/
theorem bare_receive (session : Session σ) (message : Message) :
    (session.receive message).bare = session.bare.receive message := by
  cases message with
  | start target environment => exact bare_start session target environment
  | respond token reply =>
    exact congrArg (Reaction.map Except.ok) (bare_respond session token reply)
  | cancel reason => exact congrArg (Reaction.map Except.ok) (bare_cancel session reason)

/-- What can be seen of a session can be seen of its bare form. -/
theorem views_bare (session : Session σ) (messages : List Message) :
    session.bare.views messages = session.views messages := by
  induction messages generalizing session with
  | nil => rfl
  | cons message rest ih =>
    rw [views, ← bare_receive]
    exact congrArg (List.cons _) (ih (session.receive message).session)

/-- Every report is that of an ending. Each ending that goes back to the name of a workflow leaves
its entry once, with that workflow as its definition, and nothing else is kept. A run that has ended
does not end again. And what can be seen of the session does not depend on the recorder. -/
theorem history_of_endings (document : Document) (evaluator : Evaluator)
    (recorder : Option (Recorder σ)) (store : σ) :
    let fresh := new document evaluator recorder store
    (∀ messages,
      (fresh.endings messages).map Ending.report =
          (fresh.answers messages).filterMap reported? ∧
        (fresh.after messages).store =
          ((fresh.endings messages).filterMap (Ending.kept? document.requestIndex)).foldl
            (noted recorder) store ∧
        ∀ ending ∈ fresh.endings messages, ending.report.origin = .workflow →
          document.findWorkflow? ending.report.workflowName = some ending.workflow) ∧
    (∀ run : Run, (run.finalize document recorder store).1.finalized = true ∧
      (run.finalized = true → run.finalize document recorder store = (run, none, store))) ∧
    ∀ (τ : Type) (other : Option (Recorder τ)) (kept : τ) (messages : List Message),
      (new document evaluator other kept).views messages = fresh.views messages := by
  intro fresh
  have hrest : fresh.AtRest := atRest_of_idle rfl
  have hplanned : fresh.Has fresh.Planned := by rintro _ ⟨⟩
  refine ⟨fun messages => ⟨?_, ?_, ?_⟩, fun run => ⟨?_, fun hclosed => ?_⟩, ?_⟩
  · exact endings_reported hrest hplanned messages
  · exact store_after hrest hplanned messages
  · exact endings_found hrest hplanned messages
  · exact run.finalized_finalize document recorder store
  · exact Run.finalize_of_finalized hclosed document recorder store
  · intro τ other kept messages
    calc
      (new document evaluator other kept).views messages =
          (new document evaluator none ()).views messages := (views_bare _ messages).symm
      _ = fresh.views messages := views_bare fresh messages

end Session

end RequestFlow
