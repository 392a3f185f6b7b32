import RequestFlow.Proofs.Run.References

/-!
# The loops of a run

A loop belongs to a step: it is written at the step, or at the request that the step targets. It is
entered when the step is tried, over the items that there are then, and its variable keeps the name
it was written with. Validation looks at the loops that are written at steps; those of requests it
only sees where a step repeats a request without saying how.

* `Step.loopAt?`: the loop of a step, and the request that it goes over;
* `Step.Acceptable.loopAt`: whether the loop of an acceptable step is acceptable;
* `Run.Opens`, `Run.opens_round`: what comes of a step that has a loop, by the value of its items;
* `Run.Sourced`, `Run.sourced_round`: a loop goes back to its step as long as it is under way.
-/

namespace RequestFlow

/-- The loop that is written at a step. -/
def Step.ownLoop? : Step → Option LoopSpec
  | forEach _ loop => loop
  | _ => none

/-- The request that a step repeats and the loop by which it does: the one that is written at the
step, or else the one that is written at the request. -/
def Step.loopAt? (requests : RequestIndex) (step : Step) : Option (Request × LoopSpec) := do
  let part ← step.requestPart?
  let request ← requests.get? part.targetName
  let spec ← step.ownLoop?.or request.loop
  return (request, spec)

/-- The loop of the step with an index. -/
def Workflow.loopAt? (workflow : Workflow) (requests : RequestIndex) (index : Nat) :
    Option (Request × LoopSpec) :=
  workflow.steps[index]?.bind (Step.loopAt? requests)

section

variable {requests : RequestIndex} {request : Request} {spec : LoopSpec}

theorem Step.loopAt?_eq_some {step : Step} :
    step.loopAt? requests = some (request, spec) ↔
      ∃ part, step.requestPart? = some part ∧ requests.get? part.targetName = some request ∧
        step.ownLoop?.or request.loop = some spec := by
  simp only [loopAt?, Option.bind_eq_bind, Option.pure_def, Option.bind_eq_some_iff,
    Option.some.injEq, Prod.mk.injEq]
  constructor
  · rintro ⟨part, hpart, request, hrequest, spec, hspec, rfl, rfl⟩
    exact ⟨part, hpart, hrequest, hspec⟩
  · rintro ⟨part, hpart, hrequest, hspec⟩
    exact ⟨part, hpart, request, hrequest, spec, hspec, rfl, rfl⟩

/-- The loop of an acceptable step is acceptable, unless the step just runs a request and the loop
is that of the request. -/
theorem Step.Acceptable.loopAt {step : Step} (h : step.Acceptable requests)
    (hloop : step.loopAt? requests = some (request, spec)) :
    spec.Acceptable ∨ ∃ part, step = .request part ∧
      requests.get? part.targetName = some request ∧ request.loop = some spec := by
  obtain ⟨part, hpart, hrequest, hspec⟩ := Step.loopAt?_eq_some.1 hloop
  cases step with
  | request =>
    cases hpart
    exact .inr ⟨part, rfl, hrequest, hspec⟩
  | forEach =>
    obtain ⟨-, own, rfl, hacceptable⟩ := h
    cases hspec
    exact .inl hacceptable
  | conditional => cases hpart
  | switch => cases hpart

end

namespace Run

variable {setting : Setting} {token : Nat} {run : Run} {request : Request} {spec : LoopSpec}

/-! ## Entering a loop -/

/-- The items of a loop as they are where the run is. -/
def loopItems (run : Run) (setting : Setting) (request : Request) (spec : LoopSpec) :
    Except EvalError (List String) :=
  (setting.evaluator spec.items (run.scope setting (some request) .empty .empty)).bind Json.items

/-- The run in a loop at its step, before the first item. -/
def within (run : Run) (spec : LoopSpec) (items : List String) : Run :=
  { run with
    loop := some {
      step := run.index, items, var := Text.trimmed spec.var, binds := run.origin == .workflow } }

/-- What comes of a step that has a loop: it fails where its items have no value, it is skipped
where there are none, and else the loop begins. -/
inductive Opens (run : Run) (setting : Setting) (request : Request) (spec : LoopSpec) :
    Round → Prop where
  | failed {round : Round} {cause : EvalError} {result : Result}
      (value : run.loopItems setting request spec = .error cause)
      (recorded : round.run.results = run.results ++ [result]) (status : result.status = .failed)
      (message : result.message = "for-each items `" ++ spec.items ++ "`: " ++ cause.message)
      (outside : round.run.loop = none) : Opens run setting request spec round
  | skipped {round : Round} {result : Result}
      (value : run.loopItems setting request spec = .ok [])
      (recorded : round.run.results = run.results ++ [result]) (status : result.status = .skipped)
      (outside : round.run.loop = none) : Opens run setting request spec round
  | begun {items : List String} (value : run.loopItems setting request spec = .ok items)
      (some : items ≠ []) :
      Opens run setting request spec (.next (within { run with branch := none } spec items) [])

/-- A step that has a loop is not tried in another way. -/
theorem attempt_of_loopAt {step : Step}
    (h : step.loopAt? setting.requests = some (request, spec)) :
    run.attempt setting token step = run.attemptLoop setting request spec := by
  obtain ⟨part, hpart, hrequest, hspec⟩ := Step.loopAt?_eq_some.1 h
  cases step with
  | request =>
    cases hpart
    rw [attempt, attemptRequest, hrequest]
    simp only [show none.or request.loop = some spec from hspec]
  | forEach _ loop =>
    cases hpart
    rw [attempt, attemptRequest, hrequest]
    simp only [show loop.or request.loop = some spec from hspec]
  | conditional => cases hpart
  | switch => cases hpart

theorem attemptGuarded_ne_looping {part : RequestStep} {loopVars : TextMap} {position : Position}
    (looping : Run) :
    run.attemptGuarded setting token request part loopVars position ≠ .looping looping := by
  unfold attemptGuarded attemptSend
  split
  · nofun
  · split <;> nofun

theorem attemptRequest_ne_looping {step : Step} {part : RequestStep}
    (hpart : step.requestPart? = some part) (h : step.loopAt? setting.requests = none)
    (looping : Run) :
    run.attemptRequest setting token part step.ownLoop? ≠ .looping looping := by
  unfold attemptRequest
  split
  · nofun
  · rename_i request hrequest
    split
    · rename_i spec hspec
      cases h.symm.trans (Step.loopAt?_eq_some.2 ⟨part, hpart, hrequest, hspec⟩)
    · exact attemptGuarded_ne_looping looping

/-- A step without a loop does not begin one. -/
theorem attempt_ne_looping {step : Step} (h : step.loopAt? setting.requests = none)
    (looping : Run) : run.attempt setting token step ≠ .looping looping := by
  have tried : (run.attempt setting token step).From setting token step .none run :=
    from_attempt step
  intro hlooping
  rw [hlooping] at tried
  cases step with
  | request => exact attemptRequest_ne_looping rfl h looping hlooping
  | forEach => exact attemptRequest_ne_looping rfl h looping hlooping
  | conditional =>
    cases tried with
    | looping _ part => cases part
  | switch =>
    cases tried with
    | looping _ part => cases part

/-- What comes of a round that tries a step with a loop. -/
theorem opens_round (plain : run.isCanceled = false) (outside : run.loop = none)
    (h : run.workflow.loopAt? setting.requests run.index = some (request, spec)) :
    run.Opens setting request spec (run.round setting token) := by
  obtain ⟨step, hstep, hloop⟩ := Option.bind_eq_some_iff.1 h
  rw [round_of_step plain outside hstep, attempt_of_loopAt hloop, attemptLoop]
  have hvalue : ((setting.evaluator spec.items
      (scope { run with branch := none } setting (some request) .empty .empty)).bind Json.items) =
      run.loopItems setting request spec := rfl
  have hsettled (result : Result) :
      let round := (Attempt.settled { run with branch := none } result).round goOn
      round.run.results = run.results ++ [result] ∧ round.run.loop = none := by
    refine settled_induction (P := fun later =>
      later.results = run.results ++ [result] ∧ later.loop = none) ⟨rfl, outside⟩ ?_
    rintro ⟨hresults, hnone⟩
    rw [goOn, hnone]
    exact ⟨hresults, hnone⟩
  rw [hvalue]
  split
  · rename_i cause hcause
    obtain ⟨hresults, hnone⟩ := hsettled { (Run.failure { run with branch := none }
      ("for-each items `" ++ spec.items ++ "`: " ++ cause.message) .none) with
        request := some request.name }
    exact .failed hcause hresults rfl rfl hnone
  · rename_i hempty
    obtain ⟨hresults, hnone⟩ := hsettled { (Run.skip { run with branch := none }
      "for-each produced no items" .none) with request := some request.name }
    exact .skipped hempty hresults rfl hnone
  · rename_i items hitems hsome
    exact .begun hsome hitems

/-- A step whose loop has items enters it. -/
theorem round_of_items {items : List String} (plain : run.isCanceled = false)
    (outside : run.loop = none)
    (h : run.workflow.loopAt? setting.requests run.index = some (request, spec))
    (hitems : run.loopItems setting request spec = .ok items) (hsome : items ≠ []) :
    run.round setting token = .next (within { run with branch := none } spec items) [] := by
  have hopens : run.Opens setting request spec (run.round setting token) :=
    opens_round plain outside h
  generalize run.round setting token = round at hopens
  cases hopens with
  | failed value => cases hitems.symm.trans value
  | skipped value =>
    cases hitems.symm.trans value
    exact (hsome rfl).elim
  | begun value =>
    cases hitems.symm.trans value
    rfl

/-- A round that tries a step without a loop leads into none. -/
theorem outside_round (outside : run.loop = none)
    (h : run.workflow.loopAt? setting.requests run.index = none) :
    (run.round setting token).run.loop = none := by
  cases hcanceled : run.isCanceled with
  | true =>
    rw [round_of_canceled hcanceled]
    exact outside
  | false =>
    cases hstep : run.step? with
    | none =>
      rw [round_of_last hcanceled outside hstep]
      exact outside
    | some step =>
      have hloop : step.loopAt? setting.requests = none := by
        rw [Workflow.loopAt?, show run.workflow.steps[run.index]? = some step from hstep] at h
        exact h
      have tried : (attempt { run with branch := none } setting token step).From setting token step
          .none { run with branch := none } := from_attempt step
      have hnot := @attempt_ne_looping setting token { run with branch := none } step hloop
      rw [round_of_step hcanceled outside hstep]
      cases htried : attempt { run with branch := none } setting token step with
      | sent =>
        rw [htried] at tried
        cases tried
        exact outside
      | looping looping => exact (hnot looping htried).elim
      | settled =>
        rw [htried] at tried
        cases tried
        refine settled_induction (P := fun later => later.loop = none) outside fun hnone => ?_
        rw [goOn, hnone]
        exact hnone

/-- A loop that a round enters is that of the step. -/
theorem entered_round {loop : Loop} (outside : run.loop = none)
    (entered : (run.round setting token).run.loop = some loop) : ∃ request spec,
      run.workflow.loopAt? setting.requests run.index = some (request, spec) ∧
        loop.step = run.index ∧ loop.var = Text.trimmed spec.var := by
  cases hcanceled : run.isCanceled with
  | true =>
    rw [round_of_canceled hcanceled] at entered
    cases outside.symm.trans entered
  | false =>
    cases hat : run.workflow.loopAt? setting.requests run.index with
    | none => cases (outside_round outside hat).symm.trans entered
    | some found =>
      obtain ⟨request, spec⟩ := found
      refine ⟨request, spec, rfl, ?_⟩
      have hopens : run.Opens setting request spec (run.round setting token) :=
        opens_round hcanceled outside hat
      generalize run.round setting token = round at hopens entered
      cases hopens with
      | failed _ _ _ _ hnone => cases hnone.symm.trans entered
      | skipped _ _ _ hnone => cases hnone.symm.trans entered
      | begun =>
        cases entered
        exact ⟨rfl, rfl⟩

/-! ## Inside a loop -/

/-- A round in a loop leaves it, or goes on in it: all but the cursor stays. -/
theorem kept_round {loop later : Loop} (inside : run.loop = some loop)
    (kept : (run.round setting token).run.loop = some later) :
    ∃ cursor, later = { loop with cursor } := by
  revert kept
  refine round_induction (P := fun round => round.run.loop = some later →
    ∃ cursor, later = { loop with cursor }) (fun kept => ?_) fun hfrom kept => ?_
  · cases inside.symm.trans kept
    exact ⟨loop.cursor, rfl⟩
  cases hfrom with
  | ended outside => cases inside.symm.trans outside
  | left => cases kept
  | astray => cases kept
  | step outside => cases inside.symm.trans outside
  | @item again item _ _ same _ _ _ tried =>
    cases inside.symm.trans same
    have hposition : Position.mk (loop.cursor + 1) loop.total ≠ .none := by
      intro hnone
      cases hnone
    cases (loop_attempt rfl hposition tried).symm.trans kept
    exact ⟨loop.cursor + 1, rfl⟩

/-- The loop of a run, if any, is that of the step that it names. -/
def Sourced (requests : RequestIndex) (run : Run) : Prop :=
  ∀ loop, run.loop = some loop → ∃ request spec,
    run.workflow.loopAt? requests loop.step = some (request, spec) ∧
      loop.var = Text.trimmed spec.var

theorem sourced_of_outside {requests : RequestIndex} (h : run.loop = none) :
    run.Sourced requests := by
  intro loop hloop
  cases h.symm.trans hloop

theorem sourced_goOn {requests : RequestIndex} (h : run.Sourced requests) :
    run.goOn.Sourced requests := by
  unfold goOn
  split <;> exact h

/-- The loop of a run that tries something, and that of the run that comes of it, is that of the
step under way. -/
theorem loopAt_round {loop : Loop} (hplaced : run.Placed) (h : run.Sourced setting.requests)
    (hloop : run.loop = some loop ∨ (run.round setting token).run.loop = some loop) :
    ∃ request spec, run.workflow.loopAt? setting.requests run.index = some (request, spec) ∧
      loop.step = run.index ∧ loop.var = Text.trimmed spec.var := by
  have hinside {inner : Loop} (inside : run.loop = some inner) : ∃ request spec,
      run.workflow.loopAt? setting.requests run.index = some (request, spec) ∧
        inner.step = run.index ∧ inner.var = Text.trimmed spec.var := by
    obtain ⟨request, spec, hat, hvar⟩ := h inner inside
    have hstep := (hplaced.inLoop inner inside).1
    exact ⟨request, spec, hstep ▸ hat, hstep, hvar⟩
  rcases hloop with inside | later
  · exact hinside inside
  · cases hbefore : run.loop with
    | none => exact entered_round hbefore later
    | some inner =>
      obtain ⟨request, spec, hat, hstep, hvar⟩ := hinside hbefore
      obtain ⟨cursor, rfl⟩ := kept_round hbefore later
      exact ⟨request, spec, hat, hstep, hvar⟩

/-- A round leaves a run in no loop but that of a step. -/
theorem sourced_round (hplaced : run.Placed) (h : run.Sourced setting.requests) :
    (run.round setting token).run.Sourced setting.requests := by
  intro loop hloop
  have hworkflow := workflow_of_basis (basis_round run setting token)
  obtain ⟨request, spec, hat, hstep, hvar⟩ := loopAt_round hplaced h (.inr hloop)
  rw [hworkflow, hstep]
  exact ⟨request, spec, hat, hvar⟩

end Run

end RequestFlow
