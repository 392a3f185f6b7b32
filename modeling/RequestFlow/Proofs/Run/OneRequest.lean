import RequestFlow.Proofs.Run.Course

/-!
# Runs for one request

Where every step of a workflow targets the same request, a run of it sends no other one, and
whatever its results are of, they are of this request: of a reply to it, or of a step that failed or
was passed over before it could go out.

* `Workflow.RunsOnly`: every step targets the request;
* `Run.IsFor`: the results of a run are of the request, and so is the reply that it waits for;
* `Run.isFor_round`, `Run.isFor_advance`, `Run.isFor_resume`: a run for the request stays one, and
  sends no other.
-/

namespace RequestFlow

/-- Every step has a request part that finds the request. -/
def Workflow.RunsOnly (requests : RequestIndex) (target : Request) (workflow : Workflow) : Prop :=
  ∀ step ∈ workflow.steps, ∃ part, step.requestPart? = some part ∧
    requests.get? part.targetName = some target

namespace Run

/-- What the run has recorded and what it waits for is of the request. -/
structure IsFor (target : Request) (run : Run) : Prop where
  results : ∀ result ∈ run.results, result.request = some target.name
  pending : ∀ pending, run.pending = some pending → pending.request = target.name

end Run

/-- What trying a step comes to is of the request. -/
def Attempt.IsFor (target : Request) : Attempt → Prop
  | .sent run dispatch _ => run.IsFor target ∧ dispatch.request = target
  | .settled run result => run.IsFor target ∧ result.request = some target.name
  | .looping run => run.IsFor target

namespace Run

variable {setting : Setting} {token : Nat} {run : Run} {target : Request} {part : RequestStep}

theorem isFor_record (h : run.IsFor target) {result : Result}
    (hresult : result.request = some target.name) : (run.record result).IsFor target where
  results other hother := by
    rcases List.mem_append.1 hother with hother | hother
    · exact h.results other hother
    · rw [List.mem_singleton.1 hother]
      exact hresult
  pending := h.pending

theorem isFor_goOn (h : run.IsFor target) : run.goOn.IsFor target := by
  unfold goOn
  split <;> exact ⟨h.results, h.pending⟩

/-! ## Trying a step -/

theorem isFor_attemptGuarded (h : run.IsFor target) (loopVars : TextMap) (position : Position) :
    (run.attemptGuarded setting token target part loopVars position).IsFor target := by
  unfold attemptGuarded
  split
  · rename_i result hresult
    refine ⟨h, ?_⟩
    obtain ⟨guard, -, hguard⟩ := Option.bind_eq_some_iff.1 hresult
    dsimp only at hguard
    split at hguard
    · cases hguard
    · cases hguard
      rfl
    · cases hguard
      rfl
  · unfold attemptSend send
    split
    · rename_i hsent
      split at hsent
      · cases hsent
      · cases hsent
        exact ⟨⟨h.results, by rintro _ ⟨⟩; rfl⟩, rfl⟩
    · rename_i hfailed
      split at hfailed
      · cases hfailed
        exact ⟨h, rfl⟩
      · cases hfailed

theorem isFor_attemptLoop (h : run.IsFor target) (spec : LoopSpec) :
    (run.attemptLoop setting target spec).IsFor target := by
  unfold attemptLoop
  split
  · exact ⟨h, rfl⟩
  · exact ⟨h, rfl⟩
  · exact ⟨h.results, h.pending⟩

theorem isFor_attemptRequest (h : run.IsFor target)
    (htarget : setting.requests.get? part.targetName = some target) (loop : Option LoopSpec) :
    (run.attemptRequest setting token part loop).IsFor target := by
  simp only [attemptRequest, htarget]
  split
  · exact isFor_attemptLoop h _
  · exact isFor_attemptGuarded h _ _

theorem isFor_attempt {step : Step} (h : run.IsFor target) (hpart : step.requestPart? = some part)
    (htarget : setting.requests.get? part.targetName = some target) :
    (run.attempt setting token step).IsFor target := by
  cases step with
  | request =>
    cases hpart
    exact isFor_attemptRequest h htarget none
  | forEach _ loop =>
    cases hpart
    exact isFor_attemptRequest h htarget loop
  | conditional => cases hpart
  | switch => cases hpart

theorem isFor_attemptItem (h : run.IsFor target)
    (htarget : setting.requests.get? part.targetName = some target) (loopVars : TextMap)
    (position : Position) :
    (run.attemptItem setting token part loopVars position).IsFor target := by
  simp only [attemptItem, htarget]
  exact isFor_attemptGuarded h _ _

end Run

/-! ## From one request to the next -/

/-- A round leads to a run for the request, and sends no other. -/
structure Round.IsFor (target : Request) (round : Round) : Prop where
  run : round.run.IsFor target
  dispatch : ∀ dispatch, round.dispatch? = some dispatch → dispatch.request = target

/-- A run for the request, and no other request out. -/
structure Transition.IsFor (target : Request) (transition : Transition) : Prop where
  run : transition.run.IsFor target
  dispatch : ∀ dispatch, transition.dispatch = some dispatch → dispatch.request = target

theorem Attempt.IsFor.round {target : Request} {attempt : Attempt} (h : attempt.IsFor target) :
    (attempt.round Run.goOn).IsFor target := by
  cases attempt with
  | sent =>
    refine ⟨h.1, ?_⟩
    rintro _ ⟨⟩
    exact h.2
  | looping => exact ⟨h, by rintro _ ⟨⟩⟩
  | settled run result =>
    refine ⟨Run.settled_induction (Run.isFor_record h.1 h.2) Run.isFor_goOn, ?_⟩
    simp only [Attempt.round, Run.settle]
    split <;> rintro _ ⟨⟩

namespace Run

variable {setting : Setting} {token : Nat} {run : Run} {target : Request}

theorem isFor_start (workflow : Workflow) (origin : Origin) (environment : String)
    (environmentVars : TextMap) :
    (start workflow origin environment environmentVars).IsFor target :=
  ⟨by rintro _ ⟨⟩, by rintro _ ⟨⟩⟩

theorem isFor_round (h : run.IsFor target)
    (only : run.workflow.RunsOnly setting.requests target) :
    (run.round setting token).IsFor target := by
  have hquiet {round : Round} (hrun : round.run.IsFor target) (hround : round.dispatch? = none) :
      round.IsFor target := by
    refine ⟨hrun, fun dispatch hdispatch => ?_⟩
    cases hround.symm.trans hdispatch
  cases hcanceled : run.isCanceled with
  | true =>
    rw [round_of_canceled hcanceled]
    exact hquiet h rfl
  | false =>
    refine round_cases hcanceled (fun _ _ => hquiet h rfl) (fun step _ hstep => ?_)
      (fun _ _ _ => hquiet ⟨h.results, h.pending⟩ rfl)
      (fun _ _ _ _ _ => hquiet ⟨h.results, h.pending⟩ rfl) fun loop item part _ _ hplace => ?_
    · obtain ⟨part, hpart, htarget⟩ := only step (List.mem_of_getElem? hstep)
      have hentered : IsFor target { run with branch := none } := ⟨h.results, h.pending⟩
      exact (isFor_attempt hentered hpart htarget).round
    · obtain ⟨step, hstep, hpart⟩ := Option.bind_eq_some_iff.1 hplace
      obtain ⟨again, hagain, htarget⟩ := only step (List.mem_of_getElem? hstep)
      cases hpart.symm.trans hagain
      have hbegun : (run.beginItem loop item).IsFor target := ⟨h.results, h.pending⟩
      exact (isFor_attemptItem hbegun htarget _ _).round

theorem isFor_advance (h : run.IsFor target)
    (only : run.workflow.RunsOnly setting.requests target) :
    (run.advance setting token).IsFor target := by
  have keeps (later : Run)
      (hlater : later.IsFor target ∧ later.workflow.RunsOnly setting.requests target) :
      (later.round setting token).run.IsFor target ∧
        (later.round setting token).run.workflow.RunsOnly setting.requests target := by
    have hworkflow := workflow_of_basis (basis_round later setting token)
    exact ⟨(isFor_round hlater.1 hlater.2).run, hworkflow ▸ hlater.2⟩
  obtain ⟨last, ⟨hfor, hsame⟩, hrun, hdispatch⟩ := advance_last keeps ⟨h, only⟩
  have hfinal : (last.round setting token).IsFor target := isFor_round hfor hsame
  exact ⟨hrun ▸ hfinal.run, hdispatch ▸ hfinal.dispatch⟩

/-- The reply that the run waits for is of the request as well. -/
theorem isFor_resume (h : run.IsFor target)
    (only : run.workflow.RunsOnly setting.requests target) {pending : Pending}
    (hpending : pending.request = target.name) (reply : Reply) :
    (run.resume setting token pending reply).IsFor target := by
  cases hcancellation : run.cancellation with
  | some cancellation =>
    have hstopped : IsFor target { run with
        cancellation := some { cancellation with step := some pending.step } } :=
      ⟨h.results, h.pending⟩
    have hresult : (canceledResult pending reply cancellation.reason).request =
        some target.name := congrArg some hpending
    simp only [resume, hcancellation]
    exact ⟨isFor_record hstopped hresult, by rintro _ ⟨⟩⟩
  | none =>
    have hrecorded : (run.record (run.replyResult pending reply)).IsFor target :=
      isFor_record h (congrArg some hpending)
    rw [resume_eq hcancellation]
    split
    · exact ⟨hrecorded, by rintro _ ⟨⟩⟩
    · have hworkflow : (run.record (run.replyResult pending reply)).goOn.workflow = run.workflow :=
        workflow_of_basis (basis_goOn (run.record (run.replyResult pending reply)))
      have hadvance : ((run.record (run.replyResult pending reply)).goOn.advance setting
          token).IsFor target := isFor_advance (isFor_goOn hrecorded) (hworkflow ▸ only)
      exact ⟨hadvance.run, hadvance.dispatch⟩

end Run

end RequestFlow
