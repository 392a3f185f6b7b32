import RequestFlow.Run.Advance
import RequestFlow.Run.Report
import RequestFlow.Workflow.Validation

/-!
# Sessions

A session runs the workflows of a document, one at a time. It hands out one request at a time and
goes on when the reply to it comes; a reply to any other request is ignored. Tokens tell the
requests of a session apart; they are counted from one and never used again.

* `Session.startWorkflow`, `Session.startLoop`: begin a run;
* `Session.respond`: brings the reply to a request;
* `Session.cancel`: calls the run to stop, which it does when the request that is out comes back.
-/

namespace RequestFlow

/-- Why a run is not started. -/
inductive StartFault where
  | runActive
  | workflowNotFound (name : String)
  | requestNotFound (name : String)
  | missingLoop (name : String)
  | environmentNotFound (name : String)
  | invalid (fault : ValidationFault)
deriving DecidableEq, Repr

/-- The wording of a fault. -/
def StartFault.message : StartFault → String
  | runActive => "a workflow run is already active"
  | workflowNotFound name => "workflow '" ++ name ++ "' not found"
  | requestNotFound name => "request '" ++ name ++ "' not found"
  | missingLoop name => "request '" ++ name ++ "' does not declare a for-each loop"
  | environmentNotFound name => "environment '" ++ name ++ "' is not declared in the document"
  | invalid fault => fault.message

/-- What a session wants done. -/
inductive Command where
  /-- Send a request and bring back the reply. -/
  | dispatch (dispatch : Dispatch)
  /-- Take note of a report: the run is over. -/
  | completed (report : Report)
  /-- Nothing. -/
  | idle

/-- A session; `σ` is what its entries are kept in. -/
structure Session (σ : Type) where
  document : Document
  evaluator : Evaluator
  recorder : Option (Recorder σ)
  store : σ
  run : Option Run := none
  nextToken : Nat := 1

/-- A session after something happened, with its answer and what was told on the way. -/
structure Reaction (σ α : Type) where
  session : Session σ
  answer : α
  notices : List Notice := []

namespace Reaction

variable {σ α β : Type}

/-- The reaction with another answer. -/
def map (f : α → β) (reaction : Reaction σ α) : Reaction σ β :=
  { reaction with answer := f reaction.answer }

/-- The reaction with notices in front. -/
def announce (notices : List Notice) (reaction : Reaction σ α) : Reaction σ α :=
  { reaction with notices := notices ++ reaction.notices }

end Reaction

namespace Session

variable {σ : Type}

/-- A session before its first run. -/
def new (document : Document) (evaluator : Evaluator) (recorder : Option (Recorder σ))
    (store : σ) : Session σ :=
  { document, evaluator, recorder, store }

/-- What the runs of a session go by. -/
def setting (session : Session σ) : Setting := session.document.setting session.evaluator

/-- A run is active. -/
def isRunning (session : Session σ) : Bool := session.run.isSome

/-- The notice of a summary. -/
def summaryNotice (report : Report) : Notice :=
  ⟨if report.outcome = .succeeded then .info else .warn, report.summary⟩

/-- Ends a run. -/
def finish (session : Session σ) (run : Run) : Reaction σ Command :=
  match run.finalize session.document session.recorder session.store with
  | (_, report, store) =>
    let session := { session with run := none, store }
    match report with
    | none => ⟨session, .idle, []⟩
    | some report => ⟨session, .completed report, [summaryNotice report]⟩

/-- Takes over what a transition left. -/
def follow (session : Session σ) (transition : Transition) : Reaction σ Command :=
  match transition.dispatch with
  | some dispatch =>
    { session := { session with run := some transition.run, nextToken := session.nextToken + 1 }
      answer := .dispatch dispatch
      notices := transition.notices }
  | none => (session.finish transition.run).announce transition.notices

/-! ## Starting -/

/-- The variables of an environment; a blank name stands for none. -/
def environmentVariables (session : Session σ) (environment : String) :
    Except StartFault TextMap :=
  let name := Text.trimmed environment
  if name = "" then .ok .empty
  else match session.document.environments.get? name with
    | some vars => .ok vars
    | none => .error (.environmentNotFound name)

/-- A blank name stands for no variables, and any other for those that the document declares under
it, without the blanks around it. -/
theorem environmentVariables_eq_ok_iff {session : Session σ} {environment : String}
    {vars : TextMap} :
    session.environmentVariables environment = .ok vars ↔
      Text.isBlankText environment = true ∧ vars = .empty ∨
        Text.isBlankText environment = false ∧
          session.document.environments.get? (Text.trimmed environment) = some vars := by
  unfold environmentVariables
  dsimp only
  cases hblank : Text.isBlankText environment with
  | true => simp [Text.trimmed_eq_empty_iff.2 hblank, eq_comm]
  | false =>
    have hname : Text.trimmed environment ≠ "" := by
      rw [ne_eq, Text.trimmed_eq_empty_iff, hblank]
      exact Bool.false_ne_true
    rw [if_neg hname]
    cases session.document.environments.get? (Text.trimmed environment) <;> simp

/-- Begins a run. -/
def begin (session : Session σ) (run : Run) : Reaction σ Command :=
  (session.follow (run.advance session.setting session.nextToken)).announce
    [⟨.info, "running workflow '" ++ run.workflow.name ++ "' (" ++ toString run.stepCount ++
      " steps)"⟩]

/-- Begins a run of a workflow that is known to be acceptable. -/
def launch (session : Session σ) (workflow : Workflow) (origin : Origin) (environment : String) :
    Reaction σ (Except StartFault Command) :=
  match session.environmentVariables environment with
  | .error fault => ⟨session, .error fault, []⟩
  | .ok vars => (session.begin (.start workflow origin environment vars)).map .ok

/-- Turns a start down. -/
def refuse (session : Session σ) (fault : StartFault) (notices : List Notice) :
    Reaction σ (Except StartFault Command) :=
  ⟨session, .error fault, notices⟩

/-- Goes on where no run is active. -/
def whenIdle (session : Session σ) (start : Reaction σ (Except StartFault Command)) :
    Reaction σ (Except StartFault Command) :=
  match session.run with
  | none => start
  | some run =>
    session.refuse .runActive [⟨.warn, "workflow '" ++ run.workflow.name ++ "' is already running"⟩]

/-- Starts the workflow with a name. -/
def startWorkflow (session : Session σ) (name environment : String) :
    Reaction σ (Except StartFault Command) :=
  session.whenIdle <|
    match session.document.findWorkflow? name with
    | none => session.refuse (.workflowNotFound name) []
    | some workflow =>
      match workflow.validate session.document.requestIndex with
      | .error fault => session.refuse (.invalid fault) [⟨.error, fault.message⟩]
      | .ok () => session.launch workflow .workflow environment

/-- The workflow that loops over a request: failures do not stop it. -/
def loopWorkflow (request : Request) (spec : LoopSpec) : Workflow :=
  { name := request.name
    policy := .proceed
    steps := [.forEach { target := request.name } (some spec)] }

/-- Starts the loop of the request with a name. -/
def startLoop (session : Session σ) (name environment : String) :
    Reaction σ (Except StartFault Command) :=
  session.whenIdle <|
    match session.document.requestIndex.get? name with
    | none => session.refuse (.requestNotFound name) []
    | some request =>
      match request.loop with
      | none => session.refuse (.missingLoop name) []
      | some spec =>
        let workflow := loopWorkflow request spec
        match workflow.validate session.document.requestIndex with
        | .error fault => session.refuse (.invalid fault) []
        | .ok () => session.launch workflow .request environment

/-! ## While a run is active -/

/-- The request that is out under a token, and the run without it. -/
def awaiting? (session : Session σ) (token : Nat) : Option (Run × Pending) := do
  let run ← session.run
  let pending ← run.pending
  if pending.token = token then return ({ run with pending := none }, pending) else none

/-- Brings the reply to the request with a token. -/
def respond (session : Session σ) (token : Nat) (reply : Reply) : Reaction σ Command :=
  match session.awaiting? token with
  | none => ⟨session, .idle, []⟩
  | some (run, pending) =>
    session.follow (run.resume session.setting session.nextToken pending reply)

/-- Calls the run to stop, unless it has been called before. -/
def cancel (session : Session σ) (reason : Option String) : Reaction σ Command :=
  match session.run with
  | none => ⟨session, .idle, []⟩
  | some run =>
    if run.isCanceled then ⟨session, .idle, []⟩
    else
      let reason := (Text.nonBlank? reason).getD "canceled by user"
      let notice : Notice :=
        ⟨.warn, "canceling workflow '" ++ run.workflow.name ++ "': " ++ reason⟩
      if run.isInFlight then
        let run := { run with cancellation := some { reason := some reason } }
        ⟨{ session with run := some run }, .idle, [notice]⟩
      else
        let run := { run with cancellation := some { reason := some reason, step := some run.index } }
        (session.finish run).announce [notice]

/-! ## What is left to do -/

/-- What is left to do of the active run. -/
def remaining (session : Session σ) : Nat × Nat := (session.run.map Run.remaining).getD (0, 0)

theorem answer_finish_ne_dispatch (session : Session σ) (run : Run) (dispatch : Dispatch) :
    (session.finish run).answer ≠ .dispatch dispatch := by
  unfold finish Run.finalize
  cases run.finalized <;> simp

theorem isRunning_finish (session : Session σ) (run : Run) :
    (session.finish run).session.isRunning = false := by
  unfold finish Run.finalize
  cases run.finalized <;> rfl

/-- A request goes out only with less left to do than before. -/
theorem remaining_of_respond {session : Session σ} {token : Nat} {reply : Reply}
    {dispatch : Dispatch} (h : (session.respond token reply).answer = .dispatch dispatch) :
    Run.Less (session.respond token reply).session.remaining session.remaining := by
  unfold respond at h ⊢
  cases hawait : session.awaiting? token with
  | none => simp [hawait] at h
  | some awaited =>
    obtain ⟨run, pending⟩ := awaited
    simp only [hawait] at h ⊢
    unfold follow at h ⊢
    have hrun : session.remaining = run.remaining := by
      unfold awaiting? at hawait
      cases hsession : session.run with
      | none => simp [hsession] at hawait
      | some active =>
        cases hpending : active.pending with
        | none => simp [hsession, hpending] at hawait
        | some waiting =>
          simp only [hsession, hpending, Option.bind_eq_bind, Option.bind_some] at hawait
          split at hawait
          · simp only [Option.pure_def, Option.some.injEq, Prod.mk.injEq] at hawait
            rw [remaining, hsession, ← hawait.1]
            rfl
          · cases hawait
    cases hdispatch : (run.resume session.setting session.nextToken pending reply).dispatch with
    | none =>
      simp only [hdispatch] at h
      exact (answer_finish_ne_dispatch _ _ _ h).elim
    | some sent =>
      rw [hrun]
      exact Run.remaining_of_resume (by simp [hdispatch])

/-- A reply that asks for nothing has changed nothing, unless the run is over. -/
theorem respond_of_idle {session : Session σ} {token : Nat} {reply : Reply}
    (h : (session.respond token reply).answer = .idle)
    (hrunning : (session.respond token reply).session.isRunning) :
    (session.respond token reply).session = session := by
  unfold respond at h hrunning ⊢
  cases hawait : session.awaiting? token with
  | none => rfl
  | some awaited =>
    simp only [hawait] at h hrunning
    unfold follow at h hrunning
    cases hdispatch :
        (awaited.1.resume session.setting session.nextToken awaited.2 reply).dispatch with
    | some sent => simp [hdispatch] at h
    | none =>
      simp only [hdispatch] at hrunning
      exact absurd (hrunning.symm.trans (isRunning_finish ..)) (by simp)

/-- A call to cancel sends no request. -/
theorem answer_cancel_ne_dispatch (session : Session σ) (reason : Option String)
    (dispatch : Dispatch) : (session.cancel reason).answer ≠ .dispatch dispatch := by
  unfold cancel
  cases session.run with
  | none => simp
  | some run =>
    dsimp only
    split
    · simp
    · split
      · simp
      · exact fun h => answer_finish_ne_dispatch _ _ _ h

/-- A call to cancel that leaves the run active leaves as much to do. -/
theorem remaining_of_cancel {session : Session σ} {reason : Option String}
    (h : (session.cancel reason).session.isRunning) :
    (session.cancel reason).session.remaining = session.remaining := by
  unfold cancel at h ⊢
  cases hrun : session.run with
  | none => simp
  | some run =>
    simp only [hrun] at h ⊢
    split
    · rfl
    · rename_i hcanceled
      simp only [hcanceled] at h
      split
      · simp only [remaining, hrun]
        rfl
      · rename_i hflight
        simp only [hflight] at h
        exact absurd (h.symm.trans (isRunning_finish ..)) (by simp)

end Session

end RequestFlow
