import RequestFlow.Proofs.Run.Course
import RequestFlow.Proofs.Workflow.Acceptable

/-!
# What a run refers to

A run goes by indices and by names: the index of its step and that of the next item of its loop, the
name of the request that a step targets or that a branch runs. The indices stay in range whatever
the workflow is, as long as a loop belongs to a step with a request part. The names are those of the
steps, and where the workflow is valid there is a request for each of them; so no round ever finds a
reference that leads nowhere, and the failure that would tell of one is never recorded.

* `Run.Placed`: where a run can be;
* `Run.placed_round`: a round leaves a run where it can be;
* `Run.cursor_of_left`: a loop is left at its end only;
* `Run.known_round`: a round whose step is acceptable does not miss a request.
-/

namespace RequestFlow

namespace Run

variable {setting : Setting} {token : Nat} {run : Run}

/-! ## Indices -/

/-- Where a run can be: at one of its steps or after the last, and in a loop at a step with a
request part, with no more items begun than there are. -/
structure Placed (run : Run) : Prop where
  index_le : run.index ≤ run.stepCount
  inLoop : ∀ loop, run.loop = some loop → loop.step = run.index ∧ loop.cursor ≤ loop.total ∧
    ∃ step, run.step? = some step ∧ step.requestPart?.isSome

theorem placed_start (workflow : Workflow) (origin : Origin) (environment : String)
    (environmentVars : TextMap) : (start workflow origin environment environmentVars).Placed :=
  ⟨Nat.zero_le _, by rintro _ ⟨⟩⟩

/-- A run at one of its steps can go on from there. -/
theorem placed_goOn (h : run.Placed) (hindex : run.index < run.stepCount) : run.goOn.Placed := by
  unfold goOn
  split
  · rename_i hnone
    refine ⟨hindex, fun loop hloop => ?_⟩
    have hsome : run.loop = some loop := hloop
    simp [hsome] at hnone
  · exact h

theorem placed_attempt {step : Step} {position : Position} {attempt : Attempt} (h : run.Placed)
    (hstep : run.step? = some step) (tried : attempt.From setting token step position run) :
    (attempt.round goOn).run.Placed := by
  cases tried with
  | sent => exact ⟨h.index_le, h.inLoop⟩
  | looping _ part place cursor =>
    refine ⟨h.index_le, ?_⟩
    rintro _ ⟨⟩
    exact ⟨place, by simp [cursor], step, hstep, part⟩
  | @settled branch result =>
    have hrecorded : (record { run with branch } result).Placed := ⟨h.index_le, h.inLoop⟩
    exact settled_induction hrecorded fun hplaced => placed_goOn hplaced (index_lt_of_step hstep)

/-- An item that is begun is one of the loop. -/
theorem placed_beginItem {loop : Loop} {item : String} (h : run.Placed)
    (inside : run.loop = some loop) (next : loop.items[loop.cursor]? = some item) :
    (run.beginItem loop item).Placed := by
  obtain ⟨hplace, -, step, hstep, hpart⟩ := h.inLoop loop inside
  refine ⟨h.index_le, ?_⟩
  rintro _ ⟨⟩
  exact ⟨hplace, (List.getElem?_eq_some_iff.1 next).1, step, hstep, hpart⟩

/-- A round leaves a run where it can be. -/
theorem placed_round (h : run.Placed) : (run.round setting token).run.Placed := by
  refine round_induction (P := fun round => round.run.Placed) h fun hfrom => ?_
  cases hfrom with
  | ended => exact h
  | left inside =>
    obtain ⟨-, -, step, hstep, -⟩ := h.inLoop _ inside
    exact ⟨index_lt_of_step hstep, by rintro _ ⟨⟩⟩
  | astray inside _ part =>
    obtain ⟨-, -, step, hstep, hpart⟩ := h.inLoop _ inside
    rw [hstep, Option.bind_some] at part
    simp [part] at hpart
  | step _ next tried =>
    have hentered : Placed { run with branch := none } := ⟨h.index_le, h.inLoop⟩
    exact placed_attempt hentered next tried
  | item inside next place _ tried =>
    exact placed_attempt (placed_beginItem h inside next) place tried

/-- An item of a loop does not end the loop. -/
theorem loop_attempt {step : Step} {position : Position} {attempt : Attempt} {loop : Loop}
    (inside : run.loop = some loop) (hposition : position ≠ .none)
    (tried : attempt.From setting token step position run) :
    (attempt.round goOn).run.loop = some loop := by
  cases tried with
  | sent => exact inside
  | looping outside => exact (hposition outside).elim
  | @settled branch result =>
    refine settled_induction (P := fun later => later.loop = some loop) inside fun h => ?_
    rw [goOn, h, Option.isNone_some, if_neg Bool.false_ne_true, h]

/-- A run leaves a loop at the end of it. -/
theorem cursor_of_left {loop : Loop} (h : run.Placed) (inside : run.loop = some loop)
    (left : (run.round setting token).run.loop = none) : loop.cursor = loop.total := by
  obtain ⟨-, hle, step, hstep, hpart⟩ := h.inLoop loop inside
  revert left
  refine round_induction (P := fun round => round.run.loop = none → loop.cursor = loop.total)
    (fun left => ?_) fun hfrom left => ?_
  · cases inside.symm.trans left
  cases hfrom with
  | ended outside => cases inside.symm.trans outside
  | left again last =>
    cases inside.symm.trans again
    exact Nat.le_antisymm hle (List.getElem?_eq_none_iff.1 last)
  | astray _ _ part =>
    rw [hstep, Option.bind_some] at part
    simp [part] at hpart
  | step outside => cases inside.symm.trans outside
  | @item again item _ _ _ next _ _ tried =>
    have hposition : Position.mk (again.cursor + 1) again.total ≠ .none := by
      intro hnone
      cases hnone
    have hloop := loop_attempt rfl hposition tried
    cases hloop.symm.trans left

end Run

/-! ## The wording of a missing reference -/

/-- The failure of a step or of a branch whose request there is not. -/
def Result.TellsMissing (result : Result) : Prop :=
  (∃ target, result.message = "unknown request '" ++ target ++ "'") ∨
    ∃ label target, result.message =
      "branch '" ++ label ++ "' runs unknown request '" ++ target ++ "'"

/-- A text that begins with something begins as that does. -/
theorem head?_append {first : String} {c : Char} (h : first.toList.head? = some c)
    (second : String) : (first ++ second).toList.head? = some c := by
  rw [String.toList_append, List.head?_append, h]
  rfl

/-- A text that ends with something ends as that does. -/
theorem getLast?_append {second : String} {c : Char} (h : second.toList.getLast? = some c)
    (first : String) : (first ++ second).toList.getLast? = some c := by
  rw [String.toList_append, List.getLast?_append, h]
  rfl

/-- The failure of a missing reference begins with one of two letters, and ends with a quote. -/
theorem Result.ends_of_tellsMissing {result : Result} (h : result.TellsMissing) :
    (result.message.toList.head? = some 'u' ∨ result.message.toList.head? = some 'b') ∧
      result.message.toList.getLast? = some '\'' := by
  rcases h with ⟨target, hmessage⟩ | ⟨label, target, hmessage⟩
  · rw [hmessage]
    exact ⟨.inl (head?_append (head?_append rfl _) _), getLast?_append rfl _⟩
  · rw [hmessage]
    refine ⟨.inr ?_, getLast?_append rfl _⟩
    exact head?_append (head?_append (head?_append (head?_append rfl _) _) _) _

/-! ## Choosing a branch -/

/-- A choice among some actions: a branch that is taken has one of them, and where an expression has
no value the failure begins with the mark of a directive. -/
def Choice.Among (actions : List Action) : Choice → Prop
  | branch _ action => action ∈ actions
  | nothing => True
  | failed message => message.toList.head? = some '@'

namespace Choice

theorem Among.mono {choice : Choice} {actions more : List Action} (h : choice.Among actions)
    (sub : actions ⊆ more) : choice.Among more := by
  cases choice with
  | branch => exact sub h
  | nothing => exact h
  | failed => exact h

theorem among_otherwise (label : String) (action : Option Action) :
    (otherwise label action).Among action.toList := by
  cases action with
  | none => trivial
  | some action => exact List.mem_singleton_self action

theorem among_unevaluated {directive : String} (h : directive.toList.head? = some '@')
    (expression : String) (error : EvalError) (actions : List Action) :
    (unevaluated directive expression error).Among actions :=
  head?_append (head?_append (head?_append (head?_append h _) _) _) _

end Choice

theorem among_chooseAlternative (holds : String → Id (Except EvalError Bool))
    (otherwise : Option Action) (number : Nat) (alternatives : List ConditionalBranch) :
    (chooseAlternative holds otherwise number alternatives).run.Among
      (alternatives.map ConditionalBranch.action ++ otherwise.toList) := by
  induction alternatives generalizing number with
  | nil => exact Choice.among_otherwise "else" otherwise
  | cons branch rest ih =>
    rw [chooseAlternative, Id.run_bind]
    split
    · exact List.mem_cons_self
    · exact (ih (number + 1)).mono (List.subset_cons_self ..)
    · exact Choice.among_unevaluated rfl _ _ _

/-- A conditional step takes one of its branches, if any. -/
theorem ConditionalStep.among_choose (step : ConditionalStep)
    (holds : String → Except EvalError Bool) :
    (step.choose holds).Among (Step.conditional step).actions := by
  have halternatives := among_chooseAlternative (fun text => pure (holds text)) step.otherwise 1
    step.alternatives
  simp only [choose, chooseM, Step.actions]
  cases step.primary with
  | none => exact halternatives
  | some primary =>
    dsimp only
    rw [Id.run_bind]
    split
    · exact List.mem_cons_self
    · exact halternatives.mono (List.subset_cons_self ..)
    · exact Choice.among_unevaluated rfl _ _ _

theorem among_chooseCase (eval : String → Id (Except EvalError Json)) (otherwise : Option Action)
    (subject : Json) (cases : List CaseBranch) :
    (chooseCase eval otherwise subject cases).run.Among
      (cases.map CaseBranch.action ++ otherwise.toList) := by
  induction cases with
  | nil => exact Choice.among_otherwise "default" otherwise
  | cons branch rest ih =>
    rw [chooseCase, Id.run_bind]
    split
    · exact Choice.among_unevaluated rfl _ _ _
    · split
      · exact List.mem_cons_self
      · exact ih.mono (List.subset_cons_self ..)

/-- A switch step takes one of its branches, if any. -/
theorem SwitchStep.among_choose (step : SwitchStep) (eval : String → Except EvalError Json) :
    (step.choose eval).Among (Step.switch step).actions := by
  rw [choose, chooseM, Id.run_bind]
  split
  · exact Choice.among_unevaluated rfl _ _ _
  · exact among_chooseCase ..

/-! ## Trying an acceptable step -/

/-- The early result of a step does not tell of a missing request, unless a branch is written to
fail with these words. -/
def Attempt.Known (step : Step) : Attempt → Prop
  | .settled _ result =>
    result.TellsMissing → ∃ action ∈ step.actions, action.fail = some result.message
  | .sent .. | .looping _ => True

namespace Run

variable {setting : Setting} {token : Nat} {step : Step} {run : Run}

/-- A message that begins with another letter tells of no missing request. -/
theorem known_of_head {result : Result} {c : Char} (h : result.message.toList.head? = some c)
    (hc : c ≠ 'u' ∧ c ≠ 'b') : (Attempt.settled run result).Known step := by
  intro hmissing
  rcases (Result.ends_of_tellsMissing hmissing).1 with hhead | hhead
  · exact (hc.1 (Option.some.inj (h.symm.trans hhead))).elim
  · exact (hc.2 (Option.some.inj (h.symm.trans hhead))).elim

/-- A message that does not end with a quote tells of no missing request. -/
theorem known_of_last {result : Result} {c : Char} (h : result.message.toList.getLast? = some c)
    (hc : c ≠ '\'') : (Attempt.settled run result).Known step := by
  intro hmissing
  exact (hc (Option.some.inj (h.symm.trans (Result.ends_of_tellsMissing hmissing).2))).elim

theorem known_attemptSend (request : Request) (stepVars loopVars : TextMap) (position : Position) :
    (run.attemptSend setting token request stepVars loopVars position).Known step := by
  unfold attemptSend send
  cases Template.renderMap (run.scope setting (some request) .empty loopVars) stepVars with
  | error e => exact known_of_head (c := 's') (head?_append rfl _) (by decide)
  | ok layer => trivial

theorem known_attemptGuarded (request : Request) (part : RequestStep) (loopVars : TextMap)
    (position : Position) :
    (run.attemptGuarded setting token request part loopVars position).Known step := by
  unfold attemptGuarded
  split
  · rename_i result hresult
    cases hguard : part.guard with
    | none => simp [guardResult?, hguard] at hresult
    | some guard =>
      simp only [guardResult?, hguard, Option.bind_some] at hresult
      split at hresult
      · cases hresult
      · cases hresult
        exact known_of_head (c := 'c') (head?_append (head?_append rfl _) _) (by decide)
      · cases hresult
        exact known_of_head (c := 'w') (head?_append (head?_append (head?_append rfl _) _) _)
          (by decide)
  · exact known_attemptSend ..

theorem known_attemptLoop (request : Request) (spec : LoopSpec) :
    (run.attemptLoop setting request spec).Known step := by
  unfold attemptLoop
  split
  · exact known_of_head (c := 'f') (head?_append (head?_append (head?_append rfl _) _) _)
      (by decide)
  · have hmessage : "for-each produced no items".toList.head? = some 'f' := rfl
    exact known_of_head hmessage (by decide)
  · trivial

theorem known_attemptRequest {part : RequestStep} {loop : Option LoopSpec}
    (known : setting.requests.contains part.targetName = true) :
    (run.attemptRequest setting token part loop).Known step := by
  unfold attemptRequest
  split
  · rename_i hmissing
    simp [OrderedMap.contains, hmissing] at known
  · split
    · exact known_attemptLoop ..
    · exact known_attemptGuarded ..

theorem known_attemptAction {action : Action} (h : action.Acceptable setting.requests)
    (haction : action ∈ step.actions) (label : String) (stepVars : TextMap) :
    (run.attemptAction setting token label action stepVars).Known step := by
  unfold attemptAction
  split
  · rename_i message hmeaning
    split
    · exact known_of_last (c := 'e') (getLast?_append rfl _) (by decide)
    · exact fun _ => ⟨action, haction, Action.fail_of_meaning hmeaning⟩
  · exact known_of_last (c := 't') (getLast?_append rfl _) (by decide)
  · rename_i target hmeaning
    split
    · rename_i hmissing
      have hknown := h.known target (Action.target_of_meaning hmeaning)
      simp [OrderedMap.contains, hmissing] at hknown
    · exact known_attemptSend ..

theorem known_attemptChoice {choice : Choice} (h : step.Acceptable setting.requests)
    (hchoice : choice.Among step.actions) {missed : String}
    (hmissed : missed.toList.head? = some 'n') (stepVars : TextMap) :
    (run.attemptChoice setting token stepVars missed choice).Known step := by
  cases choice with
  | failed message => exact known_of_head hchoice (by decide)
  | nothing => exact known_of_head hmissed (by decide)
  | branch label action => exact known_attemptAction (h.action hchoice) hchoice ..

theorem known_attempt (h : step.Acceptable setting.requests) :
    (run.attempt setting token step).Known step := by
  cases step with
  | request step => exact known_attemptRequest (h.target rfl)
  | forEach step loop => exact known_attemptRequest (h.target rfl)
  | conditional step => exact known_attemptChoice h (step.among_choose _) rfl _
  | switch step => exact known_attemptChoice h (step.among_choose _) rfl _

theorem known_attemptItem {part : RequestStep}
    (known : setting.requests.contains part.targetName = true) (loopVars : TextMap)
    (position : Position) :
    (run.attemptItem setting token part loopVars position).Known step := by
  unfold attemptItem
  split
  · rename_i hmissing
    simp [OrderedMap.contains, hmissing] at known
  · exact known_attemptGuarded ..

/-! ## Rounds -/

/-- What a round records: nothing, or one result of the step under way, which does not tell of a
missing request unless a branch is written to fail with these words. -/
def Records (run : Run) (round : Round) : Prop :=
  round.run.results = run.results ∨
    ∃ step result, run.step? = some step ∧ result.step = run.index ∧
      round.run.results = run.results ++ [result] ∧
      (result.TellsMissing → ∃ action ∈ step.actions, action.fail = some result.message)

theorem records_attempt {position : Position} {attempt : Attempt} (place : run.step? = some step)
    (tried : attempt.From setting token step position run) (known : attempt.Known step) :
    run.Records (attempt.round goOn) := by
  cases tried with
  | sent => exact .inl rfl
  | looping => exact .inl rfl
  | @settled branch result _ early =>
    refine .inr ⟨step, result, place, early.step, ?_, known⟩
    exact settled_induction (P := fun later => later.results = run.results ++ [result]) rfl
      (results_goOn _).trans

/-- A round whose step is acceptable does not miss a request. -/
theorem records_round (h : ∀ step, run.step? = some step → step.Acceptable setting.requests) :
    run.Records (run.round setting token) := by
  cases hcanceled : run.isCanceled with
  | true =>
    rw [round_of_canceled hcanceled]
    exact .inl rfl
  | false =>
    refine round_cases hcanceled (fun _ _ => .inl rfl) (fun step _ hstep => ?_)
      (fun _ _ _ => .inl rfl) (fun _ _ _ _ _ => .inl rfl) fun loop item part _ _ hpart => ?_
    · have hentered : ∀ round, Records { run with branch := none } round → run.Records round :=
        fun _ hround => hround
      exact hentered _ (records_attempt hstep (from_attempt step) (known_attempt (h step hstep)))
    · obtain ⟨step, hstep, hpart⟩ := Option.bind_eq_some_iff.1 hpart
      have hbegun : ∀ round, (run.beginItem loop item).Records round → run.Records round :=
        fun _ hround => hround
      have hknown := (h step hstep).target hpart
      exact hbegun _ (records_attempt hstep (from_attemptItem part _) (known_attemptItem hknown _ _))

end Run

end RequestFlow
