import RequestFlow.Run.Advance

/-!
# What trying a step comes to

Every way of trying a step ends in one of three ways: a request that is in the index is out, there
is an early result of the step, or a loop over some items begins. What the invariants of a run need
of the steps is proved from these three, without another look at guards, branches and templates:

* `Run.from_attempt`, `Run.from_attemptItem`: what trying a step, and trying it for an item of a
  loop, can come to;
* `Run.round_cases`, `Run.from_round`: the round of a run that is not canceled, by where the run is,
  and what it can come to;
* `Run.precedes_round`, `Run.precedes_advance`: a run goes back neither to its steps nor on its
  results.
-/

namespace RequestFlow

namespace Run

/-- Where the reply to a request of the step under way belongs. -/
def awaited (run : Run) (token : Nat) (request : Request) (position : Position) : Pending :=
  { token, step := run.index, label := run.stepLabel, request := request.name, position
    branch := run.branch }

/-- The run with a request out, its step's variables filled in as `layer`. -/
def waiting (run : Run) (token : Nat) (request : Request) (layer : TextMap)
    (position : Position) : Run :=
  { run with
    vars := run.vars.overlay layer, pending := some (run.awaited token request position) }

/-- The request that goes out of a run, with the variables of its step and its loop in scope. -/
def outgoing (run : Run) (setting : Setting) (token : Nat) (request : Request)
    (layer loopVars : TextMap) : Dispatch :=
  { token, request, vars := run.scope setting (some request) layer loopVars
    environment := run.environment, step := run.index, label := run.stepLabel }

end Run

/-- A result of the step under way, from before anything was sent for it. -/
structure Result.Early (run : Run) (position : Position) (result : Result) : Prop where
  step : result.step = run.index
  position : result.position = position
  branch : result.branch = run.branch
  status : result.status = .failed ∨ result.status = .skipped

/-- What trying a step can come to, at a place in its loop. Only a step without a request part takes
a branch, only one with a request part begins a loop, and no loop begins within a loop. -/
inductive Attempt.From (setting : Setting) (token : Nat) (step : Step) (position : Position)
    (run : Run) : Attempt → Prop where
  | sent (branch : Option String) {key : String} {request : Request} {layer loopVars : TextMap}
      {notice : Notice} (known : setting.requests.get? key = some request)
      (plain : branch = run.branch ∨ step.requestPart? = none) :
      From setting token step position run
        (.sent ({ run with branch }.waiting token request layer position)
          (({ run with branch }.waiting token request layer position).outgoing setting token request
            layer loopVars) notice)
  | settled (branch : Option String) {result : Result}
      (plain : branch = run.branch ∨ step.requestPart? = none)
      (early : result.Early { run with branch } position) :
      From setting token step position run (.settled { run with branch } result)
  | looping {loop : Loop} (outside : position = .none) (part : step.requestPart?.isSome)
      (place : loop.step = run.index) (cursor : loop.cursor = 0) (items : loop.items ≠ []) :
      From setting token step position run (.looping { run with loop := some loop })

namespace Run

variable {setting : Setting} {token : Nat} {step : Step} {position : Position} {run : Run}

/-! ## Early results -/

theorem early_failure (run : Run) (message : String) (position : Position) :
    (run.failure message position).Early run position := ⟨rfl, rfl, rfl, .inl rfl⟩

theorem early_skip (run : Run) (message : String) (position : Position) :
    (run.skip message position).Early run position := ⟨rfl, rfl, rfl, .inr rfl⟩

/-- The request that a result names is no part of its place. -/
theorem early_named {result : Result} (h : result.Early run position) (request : Option String) :
    Result.Early run position { result with request } := ⟨h.step, h.position, h.branch, h.status⟩

theorem early_guardResult {request : Request} {guard : Option String} {loopVars : TextMap}
    {result : Result}
    (h : run.guardResult? setting request guard loopVars position = some result) :
    result.Early run position := by
  cases guard with
  | none => cases h
  | some guard =>
    simp only [guardResult?, Option.bind_some] at h
    split at h
    · cases h
    · cases h
      exact early_named (early_skip ..) _
    · cases h
      exact early_named (early_failure ..) _

/-! ## Trying a step -/

/-- An early result of the run as it is. -/
theorem from_settled {result : Result} (h : result.Early run position) :
    (Attempt.settled run result).From setting token step position run :=
  .settled run.branch (.inl rfl) h

theorem from_attemptSend {key : String} {request : Request}
    (known : setting.requests.get? key = some request) (stepVars loopVars : TextMap) :
    (run.attemptSend setting token request stepVars loopVars position).From setting token step
      position run := by
  unfold attemptSend send
  cases Template.renderMap (run.scope setting (some request) .empty loopVars) stepVars with
  | error e => exact from_settled (early_named (early_failure ..) _)
  | ok layer => exact .sent run.branch known (.inl rfl)

theorem from_attemptGuarded {key : String} {request : Request}
    (known : setting.requests.get? key = some request) (part : RequestStep) (loopVars : TextMap) :
    (run.attemptGuarded setting token request part loopVars position).From setting token step
      position run := by
  unfold attemptGuarded
  split
  · rename_i result hresult
    exact from_settled (early_guardResult hresult)
  · exact from_attemptSend known _ _

theorem from_attemptLoop (request : Request) (spec : LoopSpec) (part : step.requestPart?.isSome) :
    (run.attemptLoop setting request spec).From setting token step .none run := by
  unfold attemptLoop
  split
  · exact from_settled (early_named (early_failure ..) _)
  · exact from_settled (early_named (early_skip ..) _)
  · rename_i items hitems _
    exact .looping rfl part rfl rfl hitems

theorem from_attemptRequest (part : RequestStep) (loop : Option LoopSpec)
    (hpart : step.requestPart?.isSome) :
    (run.attemptRequest setting token part loop).From setting token step .none run := by
  unfold attemptRequest
  split
  · exact from_settled (early_failure ..)
  · rename_i request hrequest
    split
    · exact from_attemptLoop _ _ hpart
    · exact from_attemptGuarded hrequest _ _

theorem from_attemptAction (label : String) (action : Action) (stepVars : TextMap) :
    (run.attemptAction setting token label action stepVars).From setting token step .none run := by
  unfold attemptAction
  split
  · exact from_settled (early_failure ..)
  · exact from_settled (early_failure ..)
  · split
    · exact from_settled (early_failure ..)
    · rename_i request hrequest
      exact from_attemptSend hrequest _ _

/-- What comes of a step without a request part once a branch is taken comes of the step. -/
theorem from_branch {branch : Option String} {attempt : Attempt} (hpart : step.requestPart? = none)
    (h : attempt.From setting token step position { run with branch }) :
    attempt.From setting token step position run := by
  cases h with
  | sent taken known => exact .sent taken known (.inr hpart)
  | settled taken _ early => exact .settled taken (.inr hpart) early
  | looping _ part => simp [hpart] at part

theorem from_attemptChoice (stepVars : TextMap) (missed : String) (choice : Choice)
    (hpart : step.requestPart? = none) :
    (run.attemptChoice setting token stepVars missed choice).From setting token step .none run := by
  cases choice with
  | failed => exact from_settled (early_failure ..)
  | nothing => exact from_settled (early_skip ..)
  | branch => exact from_branch hpart (from_attemptAction ..)

theorem from_attempt (step : Step) :
    (run.attempt setting token step).From setting token step .none run := by
  cases step with
  | request => exact from_attemptRequest _ _ rfl
  | forEach => exact from_attemptRequest _ _ rfl
  | conditional => exact from_attemptChoice _ _ _ rfl
  | switch => exact from_attemptChoice _ _ _ rfl

theorem from_attemptItem (part : RequestStep) (loopVars : TextMap) :
    (run.attemptItem setting token part loopVars position).From setting token step position
      run := by
  unfold attemptItem
  split
  · exact from_settled (early_failure ..)
  · rename_i request hrequest
    exact from_attemptGuarded hrequest _ _

end Run

/-! ## Rounds -/

/-- The run after a result that does not stop it: with the next step under way, or in a loop with
the next item to come. -/
def Run.goOn (run : Run) : Run := if run.loop.isNone then run.nextStep else run

/-- What follows a result matters only for runs in the same loop. -/
theorem Attempt.From.round_eq {setting : Setting} {token : Nat} {step : Step} {position : Position}
    {run : Run} {attempt : Attempt} {follow : Run → Run}
    (h : attempt.From setting token step position run)
    (hfollow : ∀ other : Run, other.loop = run.loop → follow other = other.goOn) :
    attempt.round follow = attempt.round Run.goOn := by
  cases h with
  | sent => rfl
  | looping => rfl
  | @settled branch result =>
    have hrecorded := hfollow (Run.record { run with branch } result) rfl
    simp only [Attempt.round, Run.settle, hrecorded]

/-- What a round of a run can come to: out of steps it is over; at the end of its loop it goes on
after the loop; otherwise the step under way is tried, as a whole or for the next item. -/
inductive Round.From (setting : Setting) (token : Nat) (run : Run) : Round → Prop where
  | ended (outside : run.loop = none) (last : run.step? = none) :
      From setting token run (.finished run [])
  | left {loop : Loop} (inside : run.loop = some loop) (last : loop.items[loop.cursor]? = none) :
      From setting token run (.next run.leaveLoop [])
  | astray {loop : Loop} {item : String} (inside : run.loop = some loop)
      (next : loop.items[loop.cursor]? = some item)
      (part : run.step?.bind Step.requestPart? = none) :
      From setting token run (.next (run.beginItem loop item).leaveLoop [])
  | step {step : Step} {attempt : Attempt} (outside : run.loop = none)
      (next : run.step? = some step)
      (tried : attempt.From setting token step .none { run with branch := none }) :
      From setting token run (attempt.round Run.goOn)
  | item {loop : Loop} {item : String} {step : Step} {attempt : Attempt}
      (inside : run.loop = some loop) (next : loop.items[loop.cursor]? = some item)
      (place : run.step? = some step) (part : step.requestPart?.isSome)
      (tried : attempt.From setting token step ⟨loop.cursor + 1, loop.total⟩
        (run.beginItem loop item)) :
      From setting token run (attempt.round Run.goOn)

namespace Run

variable {setting : Setting} {token : Nat} {run : Run} {loop : Loop} {item : String}

/-! The round of a run, by where the run is unless it is canceled. -/

theorem round_of_canceled (h : run.isCanceled = true) :
    run.round setting token = .finished run [] := by
  rw [round, if_pos h]

theorem round_of_last (h : run.isCanceled = false) (outside : run.loop = none)
    (last : run.step? = none) : run.round setting token = .finished run [] := by
  unfold round
  rw [h, outside, last, if_neg Bool.false_ne_true]

theorem round_of_step {step : Step} (h : run.isCanceled = false) (outside : run.loop = none)
    (next : run.step? = some step) :
    run.round setting token =
      (attempt { run with branch := none } setting token step).round goOn := by
  have tried : (attempt { run with branch := none } setting token step).From setting token step
      .none { run with branch := none } := from_attempt step
  have hfollow : ∀ other : Run, other.loop = Run.loop { run with branch := none } →
      other.nextStep = other.goOn := by
    intro other hother
    rw [goOn, hother.trans outside]
    rfl
  unfold round
  rw [h, if_neg Bool.false_ne_true]
  split
  · rename_i inside
    cases outside.symm.trans inside
  · rw [next]
    exact tried.round_eq hfollow

theorem round_of_exhausted (h : run.isCanceled = false) (inside : run.loop = some loop)
    (last : loop.items[loop.cursor]? = none) :
    run.round setting token = .next run.leaveLoop [] := by
  unfold round iterate
  rw [h, inside, if_neg Bool.false_ne_true]
  simp only [last]

theorem round_of_astray (h : run.isCanceled = false) (inside : run.loop = some loop)
    (next : loop.items[loop.cursor]? = some item)
    (part : run.step?.bind Step.requestPart? = none) :
    run.round setting token = .next (run.beginItem loop item).leaveLoop [] := by
  have hplace : (run.beginItem loop item).step?.bind Step.requestPart? = none := part
  unfold round iterate
  rw [h, inside, if_neg Bool.false_ne_true]
  simp only [next, hplace]

theorem round_of_item {part : RequestStep} (h : run.isCanceled = false)
    (inside : run.loop = some loop) (next : loop.items[loop.cursor]? = some item)
    (place : run.step?.bind Step.requestPart? = some part) :
    run.round setting token =
      ((run.beginItem loop item).attemptItem setting token part
        (OrderedMap.empty.insert loop.var item) ⟨loop.cursor + 1, loop.total⟩).round goOn := by
  obtain ⟨step, -, -⟩ := Option.bind_eq_some_iff.1 place
  have tried : ((run.beginItem loop item).attemptItem setting token part
      (OrderedMap.empty.insert loop.var item) ⟨loop.cursor + 1, loop.total⟩).From setting token step
        ⟨loop.cursor + 1, loop.total⟩ (run.beginItem loop item) := from_attemptItem part _
  have hfollow : ∀ other : Run, other.loop = (run.beginItem loop item).loop →
      id other = other.goOn := by
    intro other hother
    rw [goOn, hother]
    rfl
  have hplace : (run.beginItem loop item).step?.bind Step.requestPart? = some part := place
  unfold round iterate
  rw [h, inside, if_neg Bool.false_ne_true]
  simp only [next, hplace]
  exact tried.round_eq hfollow

/-- A round of a run that is not canceled, by where the run is. -/
theorem round_cases {P : Round → Prop} (h : run.isCanceled = false)
    (last : run.loop = none → run.step? = none → P (.finished run []))
    (step : ∀ step, run.loop = none → run.step? = some step →
      P ((attempt { run with branch := none } setting token step).round goOn))
    (exhausted : ∀ loop, run.loop = some loop → loop.items[loop.cursor]? = none →
      P (.next run.leaveLoop []))
    (astray : ∀ loop item, run.loop = some loop → loop.items[loop.cursor]? = some item →
      run.step?.bind Step.requestPart? = none → P (.next (run.beginItem loop item).leaveLoop []))
    (item : ∀ loop item part, run.loop = some loop → loop.items[loop.cursor]? = some item →
      run.step?.bind Step.requestPart? = some part →
      P (((run.beginItem loop item).attemptItem setting token part
        (OrderedMap.empty.insert loop.var item) ⟨loop.cursor + 1, loop.total⟩).round goOn)) :
    P (run.round setting token) := by
  cases hloop : run.loop with
  | none =>
    cases hstep : run.step? with
    | none =>
      rw [round_of_last h hloop hstep]
      exact last hloop hstep
    | some under =>
      rw [round_of_step h hloop hstep]
      exact step under hloop hstep
  | some loop =>
    cases hitem : loop.items[loop.cursor]? with
    | none =>
      rw [round_of_exhausted h hloop hitem]
      exact exhausted loop hloop hitem
    | some begun =>
      cases hpart : run.step?.bind Step.requestPart? with
      | none =>
        rw [round_of_astray h hloop hitem hpart]
        exact astray loop begun hloop hitem hpart
      | some part =>
        rw [round_of_item h hloop hitem hpart]
        exact item loop begun part hloop hitem hpart

theorem from_round (setting : Setting) (token : Nat) (h : run.isCanceled = false) :
    (run.round setting token).From setting token run := by
  refine round_cases h .ended (fun step hloop hstep => ?_) (fun loop => .left)
    (fun loop item => .astray) (fun loop item part hloop hitem hpart => ?_)
  · exact .step hloop hstep (from_attempt step)
  · obtain ⟨step, hstep, hsome⟩ := Option.bind_eq_some_iff.1 hpart
    exact .item hloop hitem hstep (by simp [hsome]) (from_attemptItem part _)

/-- What holds of the end of a canceled run, and of all that a round can come to, holds of the
round. -/
theorem round_induction {P : Round → Prop} (canceled : P (.finished run []))
    (taken : ∀ {round : Round}, round.From setting token run → P round) :
    P (run.round setting token) := by
  cases hcanceled : run.isCanceled with
  | true =>
    rw [round_of_canceled hcanceled]
    exact canceled
  | false => exact taken (from_round setting token hcanceled)

end Run

/-! ## Advancing, by the first round -/

namespace Run

variable {setting : Setting} {token : Nat} {run : Run} {notices : List Notice}

theorem advance_of_next {next : Run} (h : run.round setting token = .next next notices) :
    run.advance setting token = (next.advance setting token).announce notices := by
  rw [advance]
  split <;> rename_i hround <;> cases h.symm.trans hround
  rfl

theorem advance_of_sent {sent : Run} {dispatch : Dispatch}
    (h : run.round setting token = .sent sent dispatch notices) :
    run.advance setting token = ⟨sent, some dispatch, notices⟩ := by
  rw [advance]
  split <;> rename_i hround <;> cases h.symm.trans hround
  rfl

theorem advance_of_finished {finished : Run}
    (h : run.round setting token = .finished finished notices) :
    run.advance setting token = ⟨finished, none, notices⟩ := by
  rw [advance]
  split <;> rename_i hround <;> cases h.symm.trans hround
  rfl

/-- Runs with the same first round advance alike. -/
theorem advance_congr {other : Run} (h : other.round setting token = run.round setting token) :
    other.advance setting token = run.advance setting token := by
  cases hround : run.round setting token with
  | next => rw [advance_of_next hround, advance_of_next (h.trans hround)]
  | sent => rw [advance_of_sent hround, advance_of_sent (h.trans hround)]
  | finished => rw [advance_of_finished hround, advance_of_finished (h.trans hround)]

end Run

/-! ## No way back -/

/-- The run that a round leads to. -/
def Round.run : Round → Run
  | next run _ => run
  | sent run _ _ => run
  | finished run _ => run

/-- A run and one that it can go on to: steps are not gone back to, and results stay. -/
structure Run.Precedes (run later : Run) : Prop where
  index : run.index ≤ later.index
  results : ∃ more, later.results = run.results ++ more ∧ ∀ result ∈ more, run.index ≤ result.step

namespace Run

variable {setting : Setting} {token : Nat} {run : Run}

/-- What holds of a run with a result recorded, and still does when the run goes on, holds of the
run after the result. -/
theorem settled_induction {P : Run → Prop} {result : Result} (recorded : P (run.record result))
    (goes : P (run.record result) → P (run.record result).goOn) :
    P ((Attempt.settled run result).round goOn).run := by
  simp only [Attempt.round, settle]
  split
  · exact recorded
  · exact goes recorded

theorem results_goOn (run : Run) : run.goOn.results = run.results := by
  unfold goOn
  split <;> rfl

theorem index_le_goOn (run : Run) : run.index ≤ run.goOn.index := by
  unfold goOn
  split
  · exact Nat.le_succ _
  · exact Nat.le_refl _

/-- With the same results and no earlier step under way a run is one that can be gone on to. -/
theorem precedes_of_results {later : Run} (index : run.index ≤ later.index)
    (results : later.results = run.results) : run.Precedes later :=
  ⟨index, [], by rw [results, List.append_nil], by simp⟩

theorem Precedes.trans {between later : Run} (first : run.Precedes between)
    (second : between.Precedes later) : run.Precedes later := by
  obtain ⟨more, hmore, hfrom⟩ := first.results
  obtain ⟨again, hagain, hthen⟩ := second.results
  refine ⟨Nat.le_trans first.index second.index, more ++ again, ?_, fun result hresult => ?_⟩
  · rw [hagain, hmore, List.append_assoc]
  · rcases List.mem_append.1 hresult with hresult | hresult
    · exact hfrom result hresult
    · exact Nat.le_trans first.index (hthen result hresult)

theorem Precedes.keeps {later : Run} (h : run.Precedes later) : run.results <+: later.results := by
  obtain ⟨more, hmore, -⟩ := h.results
  rw [hmore]
  exact List.prefix_append _ _

theorem precedes_goOn (run : Run) : run.Precedes run.goOn :=
  precedes_of_results (index_le_goOn run) (results_goOn run)

theorem precedes_attempt {step : Step} {position : Position} {attempt : Attempt}
    (h : attempt.From setting token step position run) :
    run.Precedes (attempt.round goOn).run := by
  cases h with
  | sent => exact precedes_of_results (Nat.le_refl _) rfl
  | looping => exact precedes_of_results (Nat.le_refl _) rfl
  | @settled branch result _ early =>
    have hrecord : run.Precedes (record { run with branch } result) :=
      ⟨Nat.le_refl _, [result], rfl, by simp [early.step]⟩
    exact settled_induction hrecord fun h => h.trans (precedes_goOn _)

theorem precedes_round (run : Run) (setting : Setting) (token : Nat) :
    run.Precedes (run.round setting token).run := by
  refine round_induction (P := fun round => run.Precedes round.run)
    (precedes_of_results (Nat.le_refl _) rfl) fun hfrom => ?_
  cases hfrom with
  | ended => exact precedes_of_results (Nat.le_refl _) rfl
  | left => exact precedes_of_results (Nat.le_succ _) rfl
  | astray => exact precedes_of_results (Nat.le_succ _) rfl
  | step _ _ tried =>
    have hentered : run.Precedes { run with branch := none } :=
      precedes_of_results (Nat.le_refl _) rfl
    exact hentered.trans (precedes_attempt tried)
  | @item loop item _ _ _ _ _ _ tried =>
    have hbegun : run.Precedes (run.beginItem loop item) :=
      precedes_of_results (Nat.le_refl _) rfl
    exact hbegun.trans (precedes_attempt tried)

/-- A run goes on to what it advances to. -/
theorem precedes_advance (run : Run) (setting : Setting) (token : Nat) :
    run.Precedes (run.advance setting token).run := by
  fun_induction advance run setting token with
  | case1 run next notices hround ih =>
    have hnext := precedes_round run setting token
    rw [hround] at hnext
    exact hnext.trans ih
  | case2 run sent dispatch notices hround =>
    have hsent := precedes_round run setting token
    rw [hround] at hsent
    exact hsent
  | case3 run finished notices hround =>
    have hfinished := precedes_round run setting token
    rw [hround] at hfinished
    exact hfinished

theorem prefix_record (run : Run) (result : Result) :
    run.results <+: (run.record result).results := List.prefix_append _ _

/-- A run over a reply keeps its results. -/
theorem prefix_resume (run : Run) (setting : Setting) (token : Nat) (pending : Pending)
    (reply : Reply) : run.results <+: (run.resume setting token pending reply).run.results := by
  unfold resume
  split
  · exact prefix_record _ _
  · dsimp only
    split
    · exact prefix_record _ _
    · have hgoOn := (precedes_advance (run.record (run.replyResult pending reply)).goOn setting
        token).keeps
      rw [results_goOn] at hgoOn
      exact (prefix_record _ _).trans hgoOn

end Run

end RequestFlow
