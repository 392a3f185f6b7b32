import RequestFlow.Run.Attempt

/-!
# What is left to do

What is left of a run is a pair: steps, and items within a step. An attempt stays at its place in
the workflow, so that going on after it leaves less to do.

* `Run.stays_attempt`, `Run.stays_attemptItem`: attempts stay where they are;
* `Run.less_nextStep`, `Run.less_looping`, `Run.less_item`, `Run.less_leaveLoop`: the ways of
  going on leave less to do.
-/

namespace RequestFlow

namespace Run

/-! ## Where an attempt leaves the run -/

/-- Two runs are at the same place: at the same step of the same workflow, in the same loop. -/
structure SamePlace (a b : Run) : Prop where
  workflow : a.workflow = b.workflow
  index : a.index = b.index
  loop : a.loop = b.loop

end Run

/-- An attempt stays at a place; it begins a loop there only where `loops` allows it. -/
def Attempt.Stays (place : Run) (loops : Prop) : Attempt → Prop
  | .sent run _ _ => run.SamePlace place
  | .settled run _ => run.SamePlace place
  | .looping run =>
    loops ∧ run.workflow = place.workflow ∧ run.index = place.index ∧ run.loop.isSome

namespace Run

theorem SamePlace.refl (run : Run) : run.SamePlace run := ⟨rfl, rfl, rfl⟩

theorem stays_attemptSend (run : Run) (setting : Setting) (token : Nat) (request : Request)
    (stepVars loopVars : TextMap) (position : Position) (loops : Prop) :
    (run.attemptSend setting token request stepVars loopVars position).Stays run loops := by
  unfold attemptSend send
  cases Template.renderMap (run.scope setting (some request) .empty loopVars) stepVars <;>
    exact ⟨rfl, rfl, rfl⟩

theorem stays_attemptGuarded (run : Run) (setting : Setting) (token : Nat) (request : Request)
    (step : RequestStep) (loopVars : TextMap) (position : Position) (loops : Prop) :
    (run.attemptGuarded setting token request step loopVars position).Stays run loops := by
  unfold attemptGuarded
  split
  · exact .refl run
  · exact stays_attemptSend ..

theorem stays_attemptItem (run : Run) (setting : Setting) (token : Nat) (step : RequestStep)
    (loopVars : TextMap) (position : Position) :
    (run.attemptItem setting token step loopVars position).Stays run False := by
  unfold attemptItem
  split
  · exact .refl run
  · exact stays_attemptGuarded ..

theorem stays_attemptLoop (run : Run) (setting : Setting) (request : Request) (spec : LoopSpec) :
    (run.attemptLoop setting request spec).Stays run True := by
  unfold attemptLoop
  split
  · exact .refl run
  · exact .refl run
  · exact ⟨trivial, rfl, rfl, rfl⟩

theorem stays_attemptRequest (run : Run) (setting : Setting) (token : Nat) (step : RequestStep)
    (loop : Option LoopSpec) :
    (run.attemptRequest setting token step loop).Stays run True := by
  unfold attemptRequest
  split
  · exact .refl run
  · split
    · exact stays_attemptLoop ..
    · exact stays_attemptGuarded ..

theorem stays_attemptAction (run : Run) (setting : Setting) (token : Nat) (label : String)
    (action : Action) (stepVars : TextMap) :
    (run.attemptAction setting token label action stepVars).Stays run True := by
  unfold attemptAction
  split
  · exact .refl run
  · exact .refl run
  · split
    · exact .refl run
    · exact stays_attemptSend ..

/-- The label of the branch under way is no part of the place. -/
theorem stays_of_branch {run : Run} {branch : Option String} {loops : Prop} {attempt : Attempt}
    (h : attempt.Stays { run with branch } loops) : attempt.Stays run loops := by
  cases attempt with
  | sent => exact ⟨h.workflow, h.index, h.loop⟩
  | settled => exact ⟨h.workflow, h.index, h.loop⟩
  | looping => exact h

theorem stays_attemptChoice (run : Run) (setting : Setting) (token : Nat) (stepVars : TextMap)
    (missed : String) (choice : Choice) :
    (run.attemptChoice setting token stepVars missed choice).Stays run True := by
  cases choice with
  | failed => exact .refl run
  | nothing => exact .refl run
  | branch => exact stays_of_branch (stays_attemptAction ..)

theorem stays_attempt (run : Run) (setting : Setting) (token : Nat) (step : Step) :
    (run.attempt setting token step).Stays run True := by
  cases step with
  | request => exact stays_attemptRequest ..
  | forEach => exact stays_attemptRequest ..
  | conditional => exact stays_attemptChoice ..
  | switch => exact stays_attemptChoice ..

/-! ## Less to do -/

/-- Less to do: fewer steps, or as many steps and fewer items. -/
def Less (a b : Nat × Nat) : Prop := Prod.Lex (· < ·) (· < ·) a b

theorem less_of_left {a b : Nat × Nat} (h : a.1 < b.1) : Less a b :=
  Prod.Lex.left _ _ h

theorem less_of_right {a b : Nat × Nat} (h : a.1 = b.1) (h' : a.2 < b.2) : Less a b := by
  obtain ⟨a, c⟩ := a
  obtain rfl : a = b.1 := h
  exact Prod.Lex.right _ h'

theorem less_iff {a b : Nat × Nat} : Less a b ↔ a.1 < b.1 ∨ a.1 = b.1 ∧ a.2 < b.2 :=
  Prod.lex_def

/-- Not more to do. -/
def AtMost (a b : Nat × Nat) : Prop := a = b ∨ Less a b

theorem Less.trans_atMost {a b c : Nat × Nat} (h : AtMost a b) (h' : Less b c) : Less a c := by
  cases h with
  | inl h => exact h ▸ h'
  | inr h =>
    rw [less_iff] at *
    omega

theorem stepsLeft_inLoop {run : Run} (h : run.loop.isSome) :
    run.stepsLeft = max 1 (2 * (run.stepCount - run.index)) := by
  unfold stepsLeft
  cases hl : run.loop with
  | none => simp [hl] at h
  | some => rfl

theorem stepsLeft_outside {run : Run} (h : run.loop = none) :
    run.stepsLeft = if 2 * (run.stepCount - run.index) = 0 then 0
      else 2 * (run.stepCount - run.index) + 1 := by
  simp [stepsLeft, h]

theorem index_lt_of_step {run : Run} {step : Step} (h : run.step? = some step) :
    run.index < run.stepCount :=
  (List.getElem?_eq_some_iff.1 h).1

theorem stepCount_eq {a b : Run} (h : a.workflow = b.workflow) : a.stepCount = b.stepCount :=
  congrArg (fun workflow : Workflow => workflow.steps.length) h

/-- Leaving a loop leaves less to do. -/
theorem less_leaveLoop {run place : Run} (hloop : place.loop.isSome)
    (hw : run.workflow = place.workflow) (hi : run.index = place.index) :
    Less run.leaveLoop.remaining place.remaining := by
  have hcount : run.leaveLoop.stepCount = place.stepCount := stepCount_eq hw
  have hindex : run.leaveLoop.index = place.index + 1 := congrArg (· + 1) hi
  apply less_of_left
  show run.leaveLoop.stepsLeft < place.stepsLeft
  rw [stepsLeft_outside rfl, stepsLeft_inLoop hloop, hcount, hindex]
  split <;> omega

/-- Going on after a settled step leaves less to do. -/
theorem less_nextStep {run place : Run} {result : Result} {step : Step}
    (hloop : place.loop = none) (hstep : place.step? = some step) (h : run.SamePlace place) :
    Less (run.record result).nextStep.remaining place.remaining := by
  have hlt := index_lt_of_step hstep
  have hcount : (run.record result).nextStep.stepCount = place.stepCount := stepCount_eq h.workflow
  have hindex : (run.record result).nextStep.index = place.index + 1 := congrArg (· + 1) h.index
  have hnext : (run.record result).nextStep.loop = none := h.loop.trans hloop
  apply less_of_left
  show (run.record result).nextStep.stepsLeft < place.stepsLeft
  rw [stepsLeft_outside hnext, stepsLeft_outside hloop, hcount, hindex]
  split <;> split <;> omega

/-- Beginning a loop leaves less to do. -/
theorem less_looping {run place : Run} {step : Step} (hloop : place.loop = none)
    (hstep : place.step? = some step) (hw : run.workflow = place.workflow)
    (hi : run.index = place.index) (hl : run.loop.isSome) :
    Less run.remaining place.remaining := by
  have hlt := index_lt_of_step hstep
  apply less_of_left
  show run.stepsLeft < place.stepsLeft
  rw [stepsLeft_inLoop hl, stepsLeft_outside hloop, stepCount_eq hw, hi]
  split <;> omega

/-- Going on after an item leaves less to do. -/
theorem less_item {run place : Run} {loop : Loop} {item : String}
    (hloop : place.loop = some loop) (hitem : loop.items[loop.cursor]? = some item)
    (h : run.SamePlace (place.beginItem loop item)) : Less run.remaining place.remaining := by
  have hlt : loop.cursor < loop.items.length := (List.getElem?_eq_some_iff.1 hitem).1
  have hl : run.loop = some { loop with cursor := loop.cursor + 1 } := h.loop
  apply less_of_right
  · show run.stepsLeft = place.stepsLeft
    rw [stepsLeft_inLoop (by simp [hl]), stepsLeft_inLoop (by simp [hloop])]
    rw [stepCount_eq h.workflow, h.index]
    rfl
  · show run.itemsLeft < place.itemsLeft
    simp only [itemsLeft, hl, hloop, Loop.total]
    omega

theorem remaining_of_samePlace {a b : Run} (h : a.SamePlace b) : a.remaining = b.remaining := by
  simp only [remaining, stepsLeft, itemsLeft, stepCount_eq h.workflow, h.index, h.loop]

end Run

end RequestFlow
