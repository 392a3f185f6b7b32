import RequestFlow.Session
import RequestFlow.Text.Visible

/-!
# Driving a run to its end

The driver starts a run and then waits for two things: calls to cancel it, and what the executor
delivers. Whatever the session wants sent is given to the executor as a task of its own; every
task, also one that panics, makes one delivery. Calls go before deliveries. When nobody can call
any more, only deliveries are waited for.

* `Drive.begin`: the driver once the run has started;
* `Drive.take`: the driver takes the next call or delivery;
* `Drive.work`: the executor does one of its tasks;
* `Drive.run`: the two in turn, until the run is over.
-/

namespace RequestFlow

/-- What to run. -/
inductive Target where
  | workflow (name : String)
  /-- The loop of a request. -/
  | loop (request : String)
deriving DecidableEq, Repr

/-- What an executor brings back. -/
structure Delivery where
  token : Nat
  reply : Reply
  /-- The request as it was sent. -/
  request : Request
  environment : String

/-- The delivery of a reply to a dispatch whose request was not changed. -/
def Dispatch.deliver (dispatch : Dispatch) (reply : Reply) : Delivery :=
  ⟨dispatch.token, reply, dispatch.request, dispatch.environment⟩

/-- What an executor does with a task. -/
inductive Performance where
  | delivers (delivery : Delivery)
  | panics (message : String)

namespace Performance

/-- The one delivery that a task makes. -/
def delivery (dispatch : Dispatch) : Performance → Delivery
  | delivers delivery => delivery
  | panics message =>
    dispatch.deliver (.failed
      ("executor task failed: task # panicked with message " ++ Text.visible message))

/-- What a task brings: what the executor delivers, or the failure of a dispatch over which it
panics. -/
inductive Brings (dispatch : Dispatch) : Performance → Delivery → Prop where
  | delivered (delivery : Delivery) : Brings dispatch (delivers delivery) delivery
  | failed (message : String) : Brings dispatch (panics message)
      { token := dispatch.token
        reply := {
          error := some
            ("executor task failed: task # panicked with message " ++ Text.visible message) }
        request := dispatch.request
        environment := dispatch.environment }

/-- Every task brings one delivery. -/
theorem brings_iff {performance : Performance} {dispatch : Dispatch} {delivery : Delivery} :
    performance.Brings dispatch delivery ↔ performance.delivery dispatch = delivery := by
  constructor
  · rintro (_ | _) <;> rfl
  · rintro rfl
    cases performance with
    | delivers delivery => exact .delivered delivery
    | panics message => exact .failed message

end Performance

/-- An executor: the calls to cancel that come while it does its task with a number, and what it
does. -/
abbrev Executor := Nat → Dispatch → List (Option String) × Performance

/-- Why there is no report. -/
inductive DriveFault where
  | start (fault : StartFault)
  | noActiveRun
  | channelClosed
deriving DecidableEq, Repr

/-- The wording of a fault. -/
def DriveFault.message : DriveFault → String
  | start fault => fault.message
  | noActiveRun => "no workflow run is active"
  | channelClosed => "request outcome channel closed before the run finished"

/-- A run that is being driven. -/
structure Drive (σ : Type) where
  session : Session σ
  /-- The dispatches that the executor has not done yet. -/
  tasks : List Dispatch := []
  /-- The deliveries that have not been taken. -/
  deliveries : List Delivery := []
  /-- The calls to cancel that have not been taken. -/
  calls : List (Option String) := []
  /-- Nobody can call any more. -/
  hungUp : Bool := false
  /-- The driver still waits for calls. -/
  listening : Bool := true
  /-- The dispatches that the executor has begun. -/
  seen : List Dispatch := []
  notices : List Notice := []

/-- A run that has been driven to its end. -/
structure Driven (σ : Type) where
  session : Session σ
  result : Except DriveFault Report
  seen : List Dispatch
  notices : List Notice

/-- A driver after a step. -/
inductive Progress (σ : Type) where
  | more (drive : Drive σ)
  | ended (driven : Driven σ)

namespace Drive

variable {σ : Type}

/-- The end of a drive. -/
def finish (drive : Drive σ) (result : Except DriveFault Report) : Driven σ :=
  ⟨drive.session, result, drive.seen, drive.notices⟩

/-- Takes over a reaction of the session and does what it wants done. -/
def obey (drive : Drive σ) (reaction : Reaction σ Command) : Progress σ :=
  let drive :=
    { drive with session := reaction.session, notices := drive.notices ++ reaction.notices }
  match reaction.answer with
  | .completed report => .ended (drive.finish (.ok report))
  | .dispatch dispatch => .more { drive with tasks := drive.tasks ++ [dispatch] }
  | .idle =>
    if drive.session.isRunning then .more drive else .ended (drive.finish (.error .noActiveRun))

/-- Starts a target. -/
def start (session : Session σ) (target : Target) (environment : String) :
    Reaction σ (Except StartFault Command) :=
  match target with
  | .workflow name => session.startWorkflow name environment
  | .loop request => session.startLoop request environment

/-- The driver once the run has started; `calls` have come before. -/
def begin (session : Session σ) (target : Target) (environment : String)
    (calls : List (Option String)) (hungUp : Bool) : Progress σ :=
  let reaction := start session target environment
  match reaction.answer with
  | .error fault => .ended ⟨reaction.session, .error (.start fault), [], reaction.notices⟩
  | .ok command => obey { session, calls, hungUp } (reaction.map fun _ => command)

/-- The driver takes the next call, or else the next delivery; nothing when neither is there. -/
def take (drive : Drive σ) : Option (Progress σ) :=
  match drive.listening, drive.calls, drive.hungUp with
  | true, reason :: calls, _ => some (({ drive with calls }).obey (drive.session.cancel reason))
  | true, [], true => some (.more { drive with listening := false })
  | _, _, _ =>
    match drive.deliveries with
    | delivery :: deliveries =>
      some (({ drive with deliveries }).obey (drive.session.respond delivery.token delivery.reply))
    | [] => none

/-- The executor does the first of its tasks. -/
def work (drive : Drive σ) (executor : Executor) : Option (Drive σ) :=
  match drive.tasks with
  | [] => none
  | dispatch :: tasks =>
    let (calls, performance) := executor drive.seen.length dispatch
    some { drive with
      tasks
      deliveries := drive.deliveries ++ [performance.delivery dispatch]
      calls := if drive.hungUp then drive.calls else drive.calls ++ calls
      seen := drive.seen ++ [dispatch] }

/-- The driver goes on as long as it can; then the executor does. -/
def step (drive : Drive σ) (executor : Executor) : Progress σ :=
  match drive.take with
  | some progress => progress
  | none =>
    match drive.work executor with
    | some drive => .more drive
    | none => .ended (drive.finish (.error .channelClosed))

/-! ## Drives come to an end -/

/-- A drive has less before it: less of its run, or fewer tasks, deliveries or calls. -/
def Smaller (a b : Drive σ) : Prop :=
  Run.Less a.session.remaining b.session.remaining ∨
    a.session.remaining = b.session.remaining ∧
      (a.tasks.length < b.tasks.length ∨ a.tasks = b.tasks ∧
        (a.deliveries.length < b.deliveries.length ∨ a.deliveries = b.deliveries ∧
          (a.calls.length < b.calls.length ∨ a.calls = b.calls ∧
            a.listening = false ∧ b.listening = true)))

/-- What a step takes over from a reaction that asks for no request. -/
theorem eq_of_obey {drive next : Drive σ} {reaction : Reaction σ Command}
    (h : drive.obey reaction = .more next)
    (hdispatch : ∀ dispatch, reaction.answer ≠ .dispatch dispatch) :
    reaction.answer = .idle ∧ reaction.session.isRunning ∧
      next = { drive with
        session := reaction.session, notices := drive.notices ++ reaction.notices } := by
  unfold obey at h
  cases hanswer : reaction.answer with
  | completed report => simp [hanswer] at h
  | dispatch dispatch => exact absurd hanswer (hdispatch dispatch)
  | idle =>
    simp only [hanswer] at h
    split at h
    · rename_i hrunning
      cases h
      exact ⟨rfl, hrunning, rfl⟩
    · cases h

/-- Taking a call or a delivery leaves less before a drive. -/
theorem smaller_of_take {drive next : Drive σ} (h : drive.take = some (.more next)) :
    next.Smaller drive := by
  unfold take at h
  split at h
  · rename_i reason calls _ _ hcalls
    simp only [Option.some.injEq] at h
    obtain ⟨-, hrunning, rfl⟩ := eq_of_obey h fun _ => Session.answer_cancel_ne_dispatch _ _ _
    exact .inr ⟨Session.remaining_of_cancel hrunning,
      .inr ⟨rfl, .inr ⟨rfl, .inl (by simp [hcalls])⟩⟩⟩
  · rename_i hlistening hcalls _
    cases h
    exact .inr ⟨rfl, .inr ⟨rfl, .inr ⟨rfl, .inr ⟨rfl, rfl, hlistening⟩⟩⟩⟩
  · split at h
    · rename_i delivery deliveries hdeliveries
      simp only [Option.some.injEq] at h
      cases hanswer : (drive.session.respond delivery.token delivery.reply).answer with
      | dispatch dispatch =>
        left
        unfold obey at h
        simp only [hanswer] at h
        cases h
        exact Session.remaining_of_respond hanswer
      | idle =>
        obtain ⟨-, hrunning, rfl⟩ := eq_of_obey h (by simp [hanswer])
        refine .inr ⟨?_, .inr ⟨rfl, .inl (by simp [hdeliveries])⟩⟩
        exact congrArg Session.remaining (Session.respond_of_idle hanswer hrunning)
      | completed report =>
        unfold obey at h
        simp [hanswer] at h
    · cases h

/-- Doing a task leaves less before a drive. -/
theorem smaller_of_work {drive next : Drive σ} {executor : Executor}
    (h : drive.work executor = some next) : next.Smaller drive := by
  unfold work at h
  split at h
  · cases h
  · rename_i htasks
    cases h
    exact .inr ⟨rfl, .inl (by simp [htasks])⟩

/-- A step that is not the last leaves less before a drive. -/
theorem smaller_of_step {drive next : Drive σ} {executor : Executor}
    (h : drive.step executor = .more next) : next.Smaller drive := by
  unfold step at h
  split at h
  · rename_i htake
    exact smaller_of_take (h ▸ htake)
  · split at h
    · rename_i hwork
      cases h
      exact smaller_of_work hwork
    · cases h

/-- A run driven to its end. -/
def run (executor : Executor) (drive : Drive σ) : Driven σ :=
  match _h : drive.step executor with
  | .ended driven => driven
  | .more next => next.run executor
termination_by (drive.session.remaining.1, drive.session.remaining.2, drive.tasks.length,
  drive.deliveries.length, drive.calls.length, drive.listening.toNat)
decreasing_by
  have h := smaller_of_step (by assumption)
  simp only [Smaller, Run.less_iff, Prod.ext_iff] at h
  simp only [Prod.lex_def]
  rcases h with (h | h) | ⟨hr, (h | ⟨ht, h | ⟨hd, h | ⟨hc, hl, hl'⟩⟩⟩)⟩
  · exact .inl h
  · exact .inr ⟨h.1, .inl h.2⟩
  · exact .inr ⟨hr.1, .inr ⟨hr.2, .inl h⟩⟩
  · exact .inr ⟨hr.1, .inr ⟨hr.2, .inr ⟨congrArg _ ht, .inl h⟩⟩⟩
  · exact .inr ⟨hr.1, .inr ⟨hr.2, .inr ⟨congrArg _ ht, .inr ⟨congrArg _ hd, .inl h⟩⟩⟩⟩
  · exact .inr ⟨hr.1, .inr ⟨hr.2, .inr ⟨congrArg _ ht, .inr ⟨congrArg _ hd,
      .inr ⟨congrArg _ hc, by simp [hl, hl']⟩⟩⟩⟩⟩

/-- A target driven to its end; `calls` have come before the start. -/
def toEnd (session : Session σ) (target : Target) (environment : String) (executor : Executor)
    (calls : List (Option String)) (hungUp : Bool) : Driven σ :=
  match begin session target environment calls hungUp with
  | .ended driven => driven
  | .more drive => drive.run executor

end Drive

end RequestFlow
