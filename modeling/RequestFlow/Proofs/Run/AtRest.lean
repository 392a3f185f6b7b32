import RequestFlow.Proofs.RequestIndex
import RequestFlow.Proofs.Run.Attempt

/-!
# A run between rounds and a run at rest

Between two rounds a run is under way: nothing has stopped or canceled it, and a loop it is in
belongs to its step. When a request goes out it comes to rest: the request that is out belongs to
the step and to the item of the loop, and the token after it is the next one. Rounds lead from the
one to the one or the other, replies from the second back to the first:

* `Run.sound_round`: what a round makes of a run under way;
* `Run.sound_advance`: a run that advances comes to rest or is over;
* `Run.sound_resume`: so does a run at rest, over a reply.
-/

namespace RequestFlow

namespace Run

/-- A run that nothing has ended: no result in it is a canceled one, and a failed one belongs to a
step that lets the run go on. -/
structure Open (run : Run) : Prop where
  finalized : run.finalized = false
  stoppedAt : run.stoppedAt = none
  canceled : ∀ result ∈ run.results, result.status ≠ .canceled
  failed : ∀ result ∈ run.results, result.status = .failed →
    ∃ step, run.workflow.steps[result.step]? = some step ∧ run.workflow.policyFor step = .proceed

/-- A run between two rounds. -/
structure UnderWay (run : Run) : Prop extends run.Open where
  cancellation : run.cancellation = none
  inLoop : ∀ loop, run.loop = some loop →
    loop.step = run.index ∧ loop.cursor ≤ loop.total ∧ run.branch = none

/-- A run at rest: a request of the index is out, and the next token is one further. -/
structure AtRest (run : Run) (requests : RequestIndex) (nextToken : Nat) (pending : Pending) :
    Prop extends run.Open where
  isPending : run.pending = some pending
  token : pending.token + 1 = nextToken
  step : pending.step = run.index
  index_lt : run.index < run.stepCount
  request : requests.contains pending.request
  branch : pending.branch = run.branch
  /-- A branch was taken only in a step without a request part. -/
  plain : run.branch = none ∨ run.step?.bind Step.requestPart? = none
  canceledAt : run.cancellation.bind Cancellation.step = none
  reason : run.isCanceled ↔ ∃ reason, run.cancellation.bind Cancellation.reason = some reason ∧
    Text.isBlankText reason = false
  inLoop : ∀ loop, run.loop = some loop → loop.step = run.index ∧ 1 ≤ loop.cursor ∧
    loop.cursor ≤ loop.total ∧ pending.position = ⟨loop.cursor, loop.total⟩ ∧ pending.branch = none
  outside : run.loop = none → pending.position = .none

/-- A run whose step is being tried, at a place in its loop. -/
structure Trying (run : Run) (step : Step) (position : Position) : Prop extends run.Open where
  cancellation : run.cancellation = none
  branch : run.branch = none
  under : run.step? = some step
  inLoop : ∀ loop, run.loop = some loop → loop.step = run.index ∧ 1 ≤ loop.cursor ∧
    loop.cursor ≤ loop.total ∧ position = ⟨loop.cursor, loop.total⟩ ∧ step.requestPart?.isSome
  outside : run.loop = none → position = .none

end Run

/-- What a round makes of a run under way. -/
def Round.Sound (document : Document) (token : Nat) : Round → Prop
  | next run _ => run.UnderWay
  | sent run dispatch _ => run.cancellation = none ∧
    ∃ pending, run.AtRest document.requestIndex (token + 1) pending ∧
      dispatch.token = pending.token ∧ dispatch.step = pending.step
  | finished run _ => run.finalized = false

/-- What a transition makes of a run: it is over, or at rest with the request that goes out. -/
structure Transition.Sound (document : Document) (token : Nat) (transition : Transition) :
    Prop where
  finalized : transition.run.finalized = false
  cancellation : ∀ dispatch, transition.dispatch = some dispatch →
    transition.run.cancellation = none
  atRest : ∀ dispatch, transition.dispatch = some dispatch →
    ∃ pending, transition.run.AtRest document.requestIndex (token + 1) pending ∧
      dispatch.token = pending.token ∧ dispatch.step = pending.step

namespace Run

variable {document : Document} {evaluator : Evaluator} {token : Nat} {run : Run}

/-! ## Recording a result -/

theorem policyAt_of_step {workflow : Workflow} {index : Nat} {step : Step}
    (h : workflow.steps[index]? = some step) :
    workflow.policyAt index = workflow.policyFor step := by
  simp [Workflow.policyAt, h]

/-- A result that does not stop its run leaves it open. -/
theorem open_record {result : Result} {step : Step} (h : run.Open)
    (hstep : run.workflow.steps[result.step]? = some step) (hstop : run.stopsAt result = false) :
    (run.record result).Open := by
  rw [stopsAt, policyAt_of_step hstep, Result.stops] at hstop
  refine ⟨h.finalized, ?_, ?_, ?_⟩
  · simp only [record, stopsAt, policyAt_of_step hstep, Result.stops, hstop, Bool.false_and]
    exact h.stoppedAt
  · intro recorded hmem
    rcases List.mem_append.1 hmem with hmem | hmem
    · exact h.canceled _ hmem
    · rw [List.mem_singleton.1 hmem]
      intro hcanceled
      simp [hcanceled] at hstop
  · intro recorded hmem hfailed
    rcases List.mem_append.1 hmem with hmem | hmem
    · exact h.failed _ hmem hfailed
    · rw [List.mem_singleton.1 hmem] at hfailed ⊢
      refine ⟨step, hstep, ?_⟩
      rw [hfailed] at hstop
      cases hpolicy : run.workflow.policyFor step with
      | proceed => exact hpolicy
      | stop => simp [hpolicy] at hstop

/-- Going on after a result that does not stop the run. -/
theorem underWay_goOn {result : Result} {step : Step} (h : run.Open)
    (hcancellation : run.cancellation = none)
    (hloop : ∀ loop, run.loop = some loop →
      loop.step = run.index ∧ loop.cursor ≤ loop.total ∧ run.branch = none)
    (hstep : run.workflow.steps[result.step]? = some step) (hstop : run.stopsAt result = false) :
    (run.record result).goOn.UnderWay := by
  have hopen := open_record h hstep hstop
  unfold goOn
  split
  · rename_i hnone
    refine ⟨⟨hopen.finalized, hopen.stoppedAt, hopen.canceled, hopen.failed⟩, hcancellation, ?_⟩
    intro loop hsome
    have : (run.record result).loop = some loop := hsome
    simp [this] at hnone
  · exact ⟨hopen, hcancellation, hloop⟩

/-! ## Rounds -/

/-- A request that goes out leaves the run at rest. -/
theorem atRest_waiting {step : Step} {position : Position} {branch : Option String} {key : String}
    {request : Request} {layer : TextMap} (h : run.Trying step position)
    (known : document.requestIndex.get? key = some request)
    (plain : branch = run.branch ∨ step.requestPart? = none) :
    ({ run with branch }.waiting token request layer position).AtRest document.requestIndex
      (token + 1) ({ run with branch }.awaited token request position) where
  finalized := h.finalized
  stoppedAt := h.stoppedAt
  canceled := h.canceled
  failed := h.failed
  isPending := rfl
  token := rfl
  step := rfl
  index_lt := index_lt_of_step h.under
  request := by
    show (document.requestIndex.get? request.name).isSome
    rw [Document.get?_name known]
    rfl
  branch := rfl
  plain := by
    rcases plain with hbranch | hpart
    · exact .inl (hbranch.trans h.branch)
    · refine .inr ?_
      show run.step?.bind Step.requestPart? = none
      rw [h.under, Option.bind_some, hpart]
  canceledAt := by
    show run.cancellation.bind Cancellation.step = none
    rw [h.cancellation, Option.bind_none]
  reason := by
    show run.cancellation.isSome ↔
      ∃ reason, run.cancellation.bind Cancellation.reason = some reason ∧ _
    simp [h.cancellation]
  inLoop loop hloop := by
    obtain ⟨hindex, hone, htotal, hposition, hpart⟩ := h.inLoop loop hloop
    refine ⟨hindex, hone, htotal, hposition, ?_⟩
    rcases plain with hbranch | hnone
    · exact hbranch.trans h.branch
    · simp [hnone] at hpart
  outside := h.outside

theorem sound_attempt {step : Step} {position : Position} {attempt : Attempt}
    (h : run.Trying step position)
    (tried : attempt.From (document.setting evaluator) token step position run) :
    (attempt.round goOn).Sound document token := by
  cases tried with
  | sent branch known plain => exact ⟨h.cancellation, _, atRest_waiting h known plain, rfl, rfl⟩
  | @settled branch result plain early =>
    simp only [Attempt.round, settle]
    split
    · exact h.finalized
    · rename_i hstop
      have hplace : run.workflow.steps[result.step]? = some step := by
        rw [early.step]
        exact h.under
      refine underWay_goOn ⟨h.finalized, h.stoppedAt, h.canceled, h.failed⟩ h.cancellation ?_
        hplace (by simpa using hstop)
      intro loop hloop
      obtain ⟨hindex, -, htotal, -, hpart⟩ := h.inLoop loop hloop
      refine ⟨hindex, htotal, ?_⟩
      rcases plain with hbranch | hnone
      · exact hbranch.trans h.branch
      · simp [hnone] at hpart
  | looping _ _ place cursor items =>
    refine ⟨⟨h.finalized, h.stoppedAt, h.canceled, h.failed⟩, h.cancellation, ?_⟩
    rintro _ ⟨⟩
    exact ⟨place, by simp [cursor], h.branch⟩

/-- Entering a step. -/
theorem UnderWay.trying {step : Step} (h : run.UnderWay) (outside : run.loop = none)
    (next : run.step? = some step) : Trying { run with branch := none } step .none where
  finalized := h.finalized
  stoppedAt := h.stoppedAt
  canceled := h.canceled
  failed := h.failed
  cancellation := h.cancellation
  branch := rfl
  under := next
  inLoop loop hloop := by
    have : run.loop = some loop := hloop
    simp [outside] at this
  outside _ := rfl

/-- Beginning an item of a loop. -/
theorem UnderWay.trying_item {step : Step} {loop : Loop} {item : String} (h : run.UnderWay)
    (inside : run.loop = some loop) (next : loop.items[loop.cursor]? = some item)
    (place : run.step? = some step) (part : step.requestPart?.isSome) :
    (run.beginItem loop item).Trying step ⟨loop.cursor + 1, loop.total⟩ where
  finalized := h.finalized
  stoppedAt := h.stoppedAt
  canceled := h.canceled
  failed := h.failed
  cancellation := h.cancellation
  branch := (h.inLoop loop inside).2.2
  under := place
  inLoop := by
    have hlt : loop.cursor < loop.items.length := (List.getElem?_eq_some_iff.1 next).1
    rintro _ ⟨⟩
    exact ⟨(h.inLoop loop inside).1, Nat.succ_pos _, hlt, rfl, part⟩
  outside hnone := by cases hnone

theorem UnderWay.leaveLoop (h : run.UnderWay) : run.leaveLoop.UnderWay :=
  ⟨⟨h.finalized, h.stoppedAt, h.canceled, h.failed⟩, h.cancellation, by rintro _ ⟨⟩⟩

theorem sound_round (h : run.UnderWay) :
    (run.round (document.setting evaluator) token).Sound document token := by
  have hcanceled : run.isCanceled = false := by simp [isCanceled, h.cancellation]
  have hfrom := from_round (document.setting evaluator) token hcanceled
  generalize run.round (document.setting evaluator) token = round at hfrom
  cases hfrom with
  | ended => exact h.finalized
  | left => exact h.leaveLoop
  | @astray loop item inside =>
    exact ⟨⟨h.finalized, h.stoppedAt, h.canceled, h.failed⟩, h.cancellation, by rintro _ ⟨⟩⟩
  | step outside next tried => exact sound_attempt (h.trying outside next) tried
  | item inside next place part tried =>
    exact sound_attempt (h.trying_item inside next place part) tried

/-! ## From one request to the next -/

theorem sound_announce {transition : Transition} (h : transition.Sound document token)
    (notices : List Notice) : (transition.announce notices).Sound document token :=
  ⟨h.finalized, h.cancellation, h.atRest⟩

/-- A run under way advances until it is over or at rest. -/
theorem sound_advance (h : run.UnderWay) :
    (run.advance (document.setting evaluator) token).Sound document token := by
  fun_induction advance run (document.setting evaluator) token with
  | case1 run next notices hround ih =>
    have hnext : (run.round (document.setting evaluator) token).Sound document token :=
      sound_round h
    rw [hround] at hnext
    exact sound_announce (ih hnext) notices
  | case2 run sent dispatch notices hround =>
    have hsent : (run.round (document.setting evaluator) token).Sound document token :=
      sound_round h
    rw [hround] at hsent
    obtain ⟨hcancellation, pending, hrest, hsame⟩ := hsent
    refine ⟨hrest.finalized, ?_, ?_⟩
    · rintro _ ⟨⟩
      exact hcancellation
    · rintro _ ⟨⟩
      exact ⟨pending, hrest, hsame⟩
  | case3 run finished notices hround =>
    have hfinished : (run.round (document.setting evaluator) token).Sound document token :=
      sound_round h
    rw [hround] at hfinished
    exact ⟨hfinished, by rintro _ ⟨⟩, by rintro _ ⟨⟩⟩

/-- The run without the request that was out. -/
def taken (run : Run) : Run := { run with pending := none }

/-- A reply that does not stop the run leaves it under way. -/
theorem AtRest.underWay {requests : RequestIndex} {pending : Pending} {result : Result}
    (h : run.AtRest requests token pending) (hcancellation : run.cancellation = none)
    (hplace : result.step = pending.step) (hstop : run.taken.stopsAt result = false) :
    (run.taken.record result).goOn.UnderWay := by
  obtain ⟨step, hstep⟩ : ∃ step, run.workflow.steps[result.step]? = some step := by
    rw [hplace, h.step]
    exact ⟨_, List.getElem?_eq_getElem h.index_lt⟩
  refine underWay_goOn ⟨h.finalized, h.stoppedAt, h.canceled, h.failed⟩ hcancellation ?_ hstep hstop
  intro loop hloop
  obtain ⟨hindex, -, htotal, -, hbranch⟩ := h.inLoop loop hloop
  exact ⟨hindex, htotal, h.branch.symm.trans hbranch⟩

/-- A reply counts like any result of the step; there is no more to it in a run that is not
canceled. -/
theorem resume_eq {setting : Setting} {pending : Pending} {reply : Reply}
    (h : run.cancellation = none) :
    run.resume setting token pending reply =
      if run.stopsAt (run.replyResult pending reply) then
        ⟨run.record (run.replyResult pending reply), none,
          run.resultNotices (run.replyResult pending reply)⟩
      else ((run.record (run.replyResult pending reply)).goOn.advance setting token).announce
        (run.resultNotices (run.replyResult pending reply)) := by
  simp only [resume, h]
  rfl

/-- A run at rest goes on over a reply until it is over or at rest again. -/
theorem sound_resume {requests : RequestIndex} {pending : Pending}
    (h : run.AtRest requests token pending) (reply : Reply) :
    (run.taken.resume (document.setting evaluator) token pending reply).Sound document token := by
  unfold resume
  split
  · exact ⟨h.finalized, by rintro _ ⟨⟩, by rintro _ ⟨⟩⟩
  · rename_i hcancellation
    dsimp only
    split
    · exact ⟨h.finalized, by rintro _ ⟨⟩, by rintro _ ⟨⟩⟩
    · rename_i hstop
      exact sound_announce (sound_advance (h.underWay hcancellation rfl (by simpa using hstop))) _

/-- A run before its first step is under way. -/
theorem underWay_start (workflow : Workflow) (origin : Origin) (environment : String)
    (environmentVars : TextMap) : (start workflow origin environment environmentVars).UnderWay :=
  ⟨⟨rfl, rfl, by rintro _ ⟨⟩, by rintro _ ⟨⟩⟩, rfl, by rintro _ ⟨⟩⟩

end Run

end RequestFlow
