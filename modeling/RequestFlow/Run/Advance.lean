import RequestFlow.Run.Remaining

/-!
# From one request to the next

A run goes on in rounds: it enters a step, or takes the next item of a loop, or leaves the loop.
It rests when a request is out and ends when it is canceled, stopped or out of steps.

* `Run.round`: one round;
* `Run.remaining_lt_of_round`: a round that goes on leaves less to do;
* `Run.advance`: rounds until the run rests or ends;
* `Run.resume`: the same after a reply.
-/

namespace RequestFlow

/-- What a round comes to. -/
inductive Round where
  /-- The run goes on. -/
  | next (run : Run) (notices : List Notice)
  /-- A request is out. -/
  | sent (run : Run) (dispatch : Dispatch) (notices : List Notice)
  /-- The run is over. -/
  | finished (run : Run) (notices : List Notice)

/-- A run at rest with a request out, or at its end. -/
structure Transition where
  run : Run
  /-- The request that is out; the run is over without one. -/
  dispatch : Option Dispatch
  /-- What was told on the way. -/
  notices : List Notice

/-- The transition with notices in front. -/
def Transition.announce (notices : List Notice) (transition : Transition) : Transition :=
  { transition with notices := notices ++ transition.notices }

/-- Records a result, and goes on with what follows unless the result stops the run. -/
def Run.settle (run : Run) (result : Result) (follow : Run → Run) : Round :=
  let recorded := run.record result
  if run.stopsAt result then .finished recorded (run.resultNotices result)
  else .next (follow recorded) (run.resultNotices result)

/-- The round of an attempt; a result is followed by `follow`. -/
def Attempt.round (follow : Run → Run) : Attempt → Round
  | .sent run dispatch notice => .sent run dispatch [notice]
  | .looping run => .next run []
  | .settled run result => run.settle result follow

namespace Run

/-- One round. -/
def round (run : Run) (setting : Setting) (token : Nat) : Round :=
  if run.isCanceled then .finished run []
  else match run.loop with
    | some loop =>
      match run.iterate setting token loop with
      | (run, none) => .next run.leaveLoop []
      | (_, some attempt) => attempt.round id
    | none =>
      match run.step? with
      | none => .finished run []
      | some step => ({ run with branch := none }.attempt setting token step).round nextStep

/-! ## Rounds come to an end -/

theorem remaining_record (run : Run) (result : Result) :
    (run.record result).remaining = run.remaining := rfl

/-- A round that goes on leaves less to do. -/
theorem remaining_lt_of_round {run next : Run} {setting : Setting} {token : Nat}
    {notices : List Notice} (h : run.round setting token = .next next notices) :
    Less next.remaining run.remaining := by
  unfold round at h
  split at h
  · cases h
  split at h
  · rename_i loop hloop
    unfold iterate at h
    cases hitem : loop.items[loop.cursor]? with
    | none =>
      simp only [hitem] at h
      cases h
      exact less_leaveLoop (by simp [hloop]) rfl rfl
    | some item =>
      simp only [hitem] at h
      cases hpart : (run.beginItem loop item).step?.bind Step.requestPart? with
      | none =>
        simp only [hpart] at h
        cases h
        exact less_leaveLoop (by simp [hloop]) rfl rfl
      | some step =>
        simp only [hpart] at h
        have hstays := stays_attemptItem (run.beginItem loop item) setting token step
          (OrderedMap.empty.insert loop.var item) ⟨loop.cursor + 1, loop.total⟩
        revert h hstays
        generalize attemptItem .. = attempt
        intro h hstays
        cases attempt with
        | sent => cases h
        | looping => exact hstays.1.elim
        | settled settled result =>
          simp only [Attempt.round, settle] at h
          split at h
          · cases h
          · cases h
            rw [id_eq, remaining_record]
            exact less_item hloop hitem hstays
  · rename_i hloop
    split at h
    · cases h
    · rename_i step hstep
      have hstays := stays_of_branch (stays_attempt { run with branch := none } setting token step)
      revert h hstays
      generalize attempt .. = attempt
      intro h hstays
      cases attempt with
      | sent => cases h
      | looping looping =>
        cases h
        exact less_looping hloop hstep hstays.2.1 hstays.2.2.1 hstays.2.2.2
      | settled settled result =>
        simp only [Attempt.round, settle] at h
        split at h
        · cases h
        · cases h
          exact less_nextStep hloop hstep hstays

/-- Rounds until a request is out or the run is over. -/
def advance (run : Run) (setting : Setting) (token : Nat) : Transition :=
  match _h : run.round setting token with
  | .next next notices => (next.advance setting token).announce notices
  | .sent sent dispatch notices => ⟨sent, some dispatch, notices⟩
  | .finished finished notices => ⟨finished, none, notices⟩
termination_by run.remaining
decreasing_by exact remaining_lt_of_round (by assumption)

/-- With a request out there is not more to do than before, and in a loop there is less. -/
theorem remaining_of_round_sent {run sent : Run} {setting : Setting} {token : Nat}
    {dispatch : Dispatch} {notices : List Notice}
    (h : run.round setting token = .sent sent dispatch notices) :
    AtMost sent.remaining run.remaining ∧
      (run.loop.isSome → Less sent.remaining run.remaining) := by
  unfold round at h
  split at h
  · cases h
  split at h
  · rename_i loop hloop
    unfold iterate at h
    cases hitem : loop.items[loop.cursor]? with
    | none => simp [hitem] at h
    | some item =>
      simp only [hitem] at h
      cases hpart : (run.beginItem loop item).step?.bind Step.requestPart? with
      | none => simp [hpart] at h
      | some step =>
        simp only [hpart] at h
        have hstays := stays_attemptItem (run.beginItem loop item) setting token step
          (OrderedMap.empty.insert loop.var item) ⟨loop.cursor + 1, loop.total⟩
        revert h hstays
        generalize attemptItem .. = attempt
        intro h hstays
        cases attempt with
        | sent =>
          cases h
          have hless := less_item hloop hitem hstays
          exact ⟨.inr hless, fun _ => hless⟩
        | looping => cases h
        | settled settled result =>
          simp only [Attempt.round, settle] at h
          split at h <;> cases h
  · rename_i hloop
    split at h
    · cases h
    · rename_i step hstep
      have hstays := stays_of_branch (stays_attempt { run with branch := none } setting token step)
      revert h hstays
      generalize attempt .. = attempt
      intro h hstays
      cases attempt with
      | sent =>
        cases h
        exact ⟨.inl (remaining_of_samePlace hstays), fun hsome => by simp [hloop] at hsome⟩
      | looping => cases h
      | settled settled result =>
        simp only [Attempt.round, settle] at h
        split at h <;> cases h

/-- The run rests with not more to do than before, and in a loop with less. -/
theorem remaining_of_advance (run : Run) (setting : Setting) (token : Nat)
    (h : (run.advance setting token).dispatch.isSome) :
    AtMost (run.advance setting token).run.remaining run.remaining ∧
      (run.loop.isSome → Less (run.advance setting token).run.remaining run.remaining) := by
  fun_induction advance run setting token with
  | case1 run next notices hround ih =>
    have hless := Less.trans_atMost (ih h).1 (remaining_lt_of_round hround)
    exact ⟨.inr hless, fun _ => hless⟩
  | case2 run sent dispatch notices hround => exact remaining_of_round_sent hround
  | case3 => cases h

/-- Out of steps and outside of loops, no request goes out. -/
theorem dispatch_advance_of_no_step {run : Run} (hloop : run.loop = none) (hstep : run.step? = none)
    (setting : Setting) (token : Nat) : (run.advance setting token).dispatch = none := by
  have hround : run.round setting token = .finished run [] := by
    unfold round
    split
    · rfl
    · simp only [hloop, hstep]
  unfold advance
  split <;> simp_all

/-! ## After a reply -/

/-- The step that says what to expect of a reply; a branch has none. -/
def expectation? (run : Run) (pending : Pending) : Option RequestStep :=
  if pending.branch.isSome then none
  else run.workflow.steps[pending.step]?.bind Step.requestPart?

/-- The result that a reply brings. -/
def replyResult (run : Run) (pending : Pending) (reply : Reply) : Result :=
  let verdict := reply.verdict (run.expectation? pending) .elapsed
  { step := pending.step
    label := pending.label
    request := some pending.request
    status := verdict.status
    statusText := verdict.statusText
    duration := verdict.duration
    message := verdict.message
    position := pending.position
    branch := pending.branch
    response := reply.response
    tests := reply.tests
    error := verdict.error }

/-- The result of a request that was out when the run was canceled. -/
def canceledResult (pending : Pending) (reply : Reply) (reason : Option String) : Result :=
  { step := pending.step
    label := pending.label
    request := some pending.request
    status := .canceled
    duration := .elapsed
    message := reason.getD "canceled"
    position := pending.position
    branch := pending.branch
    response := reply.response }

/-- The run over a reply to the request that was out. -/
def resume (run : Run) (setting : Setting) (token : Nat) (pending : Pending) (reply : Reply) :
    Transition :=
  match run.cancellation with
  | some cancellation =>
    let stopped :=
      { run with cancellation := some { cancellation with step := some pending.step } }
    ⟨stopped.record (canceledResult pending reply cancellation.reason), none, []⟩
  | none =>
    let result := run.replyResult pending reply
    let recorded := run.record result
    let notices := run.resultNotices result
    if run.stopsAt result then ⟨recorded, none, notices⟩
    else
      let next := if recorded.loop.isNone then recorded.nextStep else recorded
      (next.advance setting token).announce notices

/-- Between a request and the next there is less to do. -/
theorem remaining_of_resume {run : Run} {setting : Setting} {token : Nat} {pending : Pending}
    {reply : Reply} (h : (run.resume setting token pending reply).dispatch.isSome) :
    Less (run.resume setting token pending reply).run.remaining run.remaining := by
  unfold resume at h ⊢
  split at h
  · cases h
  · dsimp only at h ⊢
    split at h
    · cases h
    · rename_i hstop
      rw [if_neg hstop]
      generalize run.replyResult pending reply = result at h ⊢
      by_cases hloop : run.loop = none
      · have hnone : (run.record result).loop.isNone = true := by simp [record, hloop]
        simp only [hnone, if_true] at h ⊢
        have hmost := (remaining_of_advance _ setting token h).1
        cases hstep : run.step? with
        | none =>
          have hnext : (run.record result).nextStep.step? = none := by
            simp only [step?, List.getElem?_eq_none_iff] at hstep
            simp only [step?, nextStep, record, List.getElem?_eq_none_iff]
            omega
          have hdone := dispatch_advance_of_no_step (by exact hloop) hnext setting token
          change ((run.record result).nextStep.advance setting token).dispatch.isSome at h
          rw [hdone] at h
          cases h
        | some step =>
          exact Less.trans_atMost hmost (less_nextStep hloop hstep (.refl run))
      · have hsome : (run.record result).loop.isSome = true := by
          simpa [record, Option.isSome_iff_ne_none] using hloop
        have hnone : ¬ (run.record result).loop.isNone = true := by simpa [record] using hloop
        simp only [hnone] at h ⊢
        exact (remaining_of_advance _ setting token h).2 hsome

end Run

end RequestFlow
