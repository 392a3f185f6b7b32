import RequestFlow.Drive

/-!
# What a session is told

A session lives by what it is told: runs are started, replies come, runs are called to stop. Each
message has an answer, whatever state the session is in.

* `Session.receive`: one message;
* `Session.after`, `Session.answers`: the session after messages, and what it answered to them;
* `Session.start_cases`: a start is turned down without a trace, or begins the run of its target.
-/

namespace RequestFlow

/-- What a session can be told. -/
inductive Message where
  | start (target : Target) (environment : String)
  | respond (token : Nat) (reply : Reply)
  | cancel (reason : Option String)
deriving DecidableEq

/-- The workflow that a target stands for, and how its runs come about. -/
def Document.planned? (document : Document) : Target → Option (Workflow × Origin)
  | .workflow name => (document.findWorkflow? name).map fun workflow => (workflow, .workflow)
  | .loop name => (document.requestIndex.get? name).bind fun request =>
    request.loop.map fun spec => (Session.loopWorkflow request spec, .request)

namespace Session

variable {σ : Type}

/-- A session is told a message. -/
def receive (session : Session σ) : Message → Reaction σ (Except StartFault Command)
  | .start target environment => Drive.start session target environment
  | .respond token reply => (session.respond token reply).map .ok
  | .cancel reason => (session.cancel reason).map .ok

/-- The session after messages. -/
def after (session : Session σ) : List Message → Session σ
  | [] => session
  | message :: rest => (session.receive message).session.after rest

/-- The answers to messages, in order. -/
def answers (session : Session σ) : List Message → List (Except StartFault Command)
  | [] => []
  | message :: rest =>
    (session.receive message).answer :: (session.receive message).session.answers rest

/-- What every message keeps holds after any messages. -/
theorem after_induction {P : Session σ → Prop}
    (keeps : ∀ session message, P session → P (session.receive message).session)
    {session : Session σ} (h : P session) (messages : List Message) :
    P (session.after messages) := by
  induction messages generalizing session with
  | nil => exact h
  | cons message rest ih => exact ih (keeps _ _ h)

/-! ## Starting -/

/-- Nothing stands against a start: the session is idle, the target stands for an acceptable
workflow, and the environment is declared. -/
structure Accepts (session : Session σ) (target : Target) (environment : String)
    (workflow : Workflow) (origin : Origin) (vars : TextMap) : Prop where
  idle : session.run = none
  planned : session.document.planned? target = some (workflow, origin)
  valid : workflow.validate session.document.requestIndex = .ok ()
  declared : session.environmentVariables environment = .ok vars

theorem launch_cases (session : Session σ) (workflow : Workflow) (origin : Origin)
    (environment : String) :
    (∃ fault, session.launch workflow origin environment = ⟨session, .error fault, []⟩) ∨
      ∃ vars, session.environmentVariables environment = .ok vars ∧
        session.launch workflow origin environment =
          (session.begin (.start workflow origin environment vars)).map .ok := by
  unfold launch
  cases henv : session.environmentVariables environment with
  | error fault => exact .inl ⟨fault, rfl⟩
  | ok vars => exact .inr ⟨vars, rfl, rfl⟩

/-- A start is turned down without a trace, or begins the run of its target. -/
theorem start_cases (session : Session σ) (target : Target) (environment : String) :
    (∃ fault notices, Drive.start session target environment = ⟨session, .error fault, notices⟩) ∨
      ∃ workflow origin vars, session.Accepts target environment workflow origin vars ∧
        Drive.start session target environment =
          (session.begin (.start workflow origin environment vars)).map .ok := by
  cases hrun : session.run with
  | some run =>
    left
    cases target <;> simp [Drive.start, startWorkflow, startLoop, whenIdle, hrun, refuse]
  | none =>
    cases target with
    | workflow name =>
      simp only [Drive.start, startWorkflow, whenIdle, hrun]
      cases hfind : session.document.findWorkflow? name with
      | none => exact .inl ⟨_, _, rfl⟩
      | some workflow =>
        dsimp only
        cases hvalid : workflow.validate session.document.requestIndex with
        | error fault => exact .inl ⟨_, _, rfl⟩
        | ok valid =>
          rcases session.launch_cases workflow .workflow environment with
            ⟨fault, hlaunch⟩ | ⟨vars, hvars, hlaunch⟩
          · exact .inl ⟨fault, [], hlaunch⟩
          · exact .inr ⟨workflow, .workflow, vars,
              ⟨hrun, by simp [Document.planned?, hfind], hvalid, hvars⟩, hlaunch⟩
    | loop name =>
      simp only [Drive.start, startLoop, whenIdle, hrun]
      cases hfind : session.document.requestIndex.get? name with
      | none => exact .inl ⟨_, _, rfl⟩
      | some request =>
        dsimp only
        cases hloop : request.loop with
        | none => exact .inl ⟨_, _, rfl⟩
        | some spec =>
          dsimp only
          cases hvalid : (loopWorkflow request spec).validate session.document.requestIndex with
          | error fault => exact .inl ⟨_, _, rfl⟩
          | ok valid =>
            rcases session.launch_cases (loopWorkflow request spec) .request environment with
              ⟨fault, hlaunch⟩ | ⟨vars, hvars, hlaunch⟩
            · exact .inl ⟨fault, [], hlaunch⟩
            · exact .inr ⟨_, .request, vars,
                ⟨hrun, by simp [Document.planned?, hfind, hloop], hvalid, hvars⟩, hlaunch⟩

/-- A start that nothing stands against begins the run of its target. -/
theorem start_of_accepts {session : Session σ} {target : Target} {environment : String}
    {workflow : Workflow} {origin : Origin} {vars : TextMap}
    (h : session.Accepts target environment workflow origin vars) :
    Drive.start session target environment =
      (session.begin (.start workflow origin environment vars)).map .ok := by
  have hplanned := h.planned
  cases target with
  | workflow name =>
    obtain ⟨found, hfind, heq⟩ := Option.map_eq_some_iff.1 hplanned
    cases heq
    simp only [Drive.start, startWorkflow, whenIdle, h.idle, hfind, h.valid, launch, h.declared]
  | loop name =>
    obtain ⟨request, hfind, hloop⟩ := Option.bind_eq_some_iff.1 hplanned
    obtain ⟨spec, hspec, heq⟩ := Option.map_eq_some_iff.1 hloop
    cases heq
    simp only [Drive.start, startLoop, whenIdle, h.idle, hfind, hspec, h.valid, launch, h.declared]

theorem answer_start_of_accepts {session : Session σ} {target : Target} {environment : String}
    {workflow : Workflow} {origin : Origin} {vars : TextMap}
    (h : session.Accepts target environment workflow origin vars) :
    ∃ command, (Drive.start session target environment).answer = .ok command := by
  rw [start_of_accepts h]
  exact ⟨_, rfl⟩

/-! ## The end of a run -/

/-- The first end of a run is told in a report. -/
theorem finish_of_open {run : Run} (session : Session σ) (h : run.finalized = false) :
    session.finish run =
      ⟨{ session with
          run := none, store := run.keep session.document session.recorder session.store },
        .completed (run.report session.document),
        [summaryNotice (run.report session.document)]⟩ := by
  simp [finish, Run.finalize, h]

theorem run_finish (session : Session σ) (run : Run) : (session.finish run).session.run = none := by
  simpa [isRunning] using isRunning_finish session run

/-! ## What no message changes -/

/-- What a session was set up with. -/
def basis (session : Session σ) : Document × Evaluator × Option (Recorder σ) :=
  (session.document, session.evaluator, session.recorder)

/-- The session has been told some messages, and nothing else has happened to it. -/
def Reachable (session : Session σ) : Prop :=
  ∃ document evaluator recorder store messages,
    session = (new document evaluator recorder store).after messages

theorem basis_finish (session : Session σ) (run : Run) :
    (session.finish run).session.basis = session.basis := by
  unfold finish Run.finalize
  cases run.finalized <;> rfl

theorem basis_follow (session : Session σ) (transition : Transition) :
    (session.follow transition).session.basis = session.basis := by
  unfold follow
  split
  · rfl
  · exact basis_finish session transition.run

theorem basis_receive (session : Session σ) (message : Message) :
    (session.receive message).session.basis = session.basis := by
  cases message with
  | start target environment =>
    rcases session.start_cases target environment with ⟨_, _, heq⟩ | ⟨_, _, _, -, heq⟩
    · rw [receive, heq]
    · rw [receive, heq]
      exact basis_follow session _
  | respond token reply =>
    show (session.respond token reply).session.basis = session.basis
    unfold respond
    split
    · rfl
    · exact basis_follow session _
  | cancel reason =>
    show (session.cancel reason).session.basis = session.basis
    unfold cancel
    split
    · rfl
    · split
      · rfl
      · split
        · rfl
        · exact basis_finish session _

/-- The document, the evaluator and the recorder stay what they were. -/
theorem basis_after (session : Session σ) (messages : List Message) :
    (session.after messages).basis = session.basis :=
  after_induction (P := fun later => later.basis = session.basis)
    (fun later message h => (basis_receive later message).trans h) rfl messages

theorem document_receive (session : Session σ) (message : Message) :
    (session.receive message).session.document = session.document :=
  congrArg Prod.fst (basis_receive session message)

theorem document_after (session : Session σ) (messages : List Message) :
    (session.after messages).document = session.document :=
  congrArg Prod.fst (basis_after session messages)

theorem setting_after (session : Session σ) (messages : List Message) :
    (session.after messages).setting = session.setting := by
  have hbasis := basis_after session messages
  simp only [basis, Prod.mk.injEq] at hbasis
  rw [setting, setting, hbasis.1, hbasis.2.1]

end Session

/-! ## An example -/

namespace Smoke

/-- A request for every host, and once more. -/
def workflow : Workflow where
  name := "smoke"
  steps := [
    .forEach { target := "ping", policy := some .proceed } (some ⟨"hosts", "host"⟩),
    .request { target := "ping" }]

/-- A session over a document with that workflow; every expression has two items. -/
def session : Session Unit :=
  .new { requests := [{ name := "ping", url := "http://host/ping" }], workflows := [workflow] }
    (fun _ _ => .ok (.array [.string "a", .string "b"])) none ()

theorem accepts : session.Accepts (.workflow "smoke") "" workflow .workflow .empty :=
  ⟨rfl, rfl, rfl, rfl⟩

end Smoke

end RequestFlow
