import RequestFlow.Proofs.Run.Course

/-!
# Taking a branch

A step that branches asks for the values of its expressions one after the other, as long as none of
them decides. The first branch that applies is taken; an expression without a value ends the search,
and so does the end of the list. What the evaluator says of the expressions that are asked for
decides, and what it says of others does not.

* `Branch`, `Step.Decides`: the branches of a step, and which of them is taken;
* `Inquiry`, `Step.inquiry`: what a step asks for, each question after the answers to those before;
* `decides_inquiry`, `Step.Decides.eq`: a step decides as its inquiry does, and in no other way;
* `ConditionalStep.chooseM_eq`, `SwitchStep.chooseM_eq`: so do the steps when they choose, whatever
  the calls of the evaluator do besides;
* `Step.Evaluates`, `evaluates_inquiry`: an evaluator that writes down its calls has written down
  what the step asks for, and no more.
-/

namespace RequestFlow

/-! ## Branches -/

/-- A branch of a step: it is taken if its expression says so. -/
structure Branch where
  /-- How the expression is called where it has no value. -/
  directive : String
  expression : String
  label : String
  action : Action

/-- The branches of a conditional step, in order. -/
def ConditionalStep.branches (step : ConditionalStep) : List Branch :=
  (step.primary.map fun branch =>
      ⟨"@if condition", branch.condition, "then", branch.action⟩).toList ++
    step.alternatives.mapIdx fun index branch =>
      ⟨"@elif condition", branch.condition, "elif " ++ toString (index + 1), branch.action⟩

/-- The branches of a switch step, in order. -/
def SwitchStep.branches (step : SwitchStep) : List Branch :=
  step.cases.map fun branch =>
    ⟨"@case", branch.value, "case " ++ Text.trimmed branch.value, branch.action⟩

/-- What is said of an expression without a value. -/
def unevaluatedText (directive expression : String) (error : EvalError) : String :=
  directive ++ " `" ++ expression ++ "`: " ++ error.message

/-- Which of some branches is taken, and the expressions that are evaluated for that: those of the
branches that do not apply, and that of the branch that decides. -/
inductive Selects (eval : String → Except EvalError Json) (applies : Json → Bool)
    (fallback : Choice) (branches : List Branch) : List String → Choice → Prop where
  | taken {before after : List Branch} {branch : Branch} {value : Json}
      (split : branches = before ++ branch :: after)
      (passed : ∀ b ∈ before, ∃ v, eval b.expression = .ok v ∧ applies v = false)
      (evaluated : eval branch.expression = .ok value) (holds : applies value = true) :
      Selects eval applies fallback branches
        (before.map Branch.expression ++ [branch.expression]) (.branch branch.label branch.action)
  | failed {before after : List Branch} {branch : Branch} {error : EvalError}
      (split : branches = before ++ branch :: after)
      (passed : ∀ b ∈ before, ∃ v, eval b.expression = .ok v ∧ applies v = false)
      (unevaluated : eval branch.expression = .error error) :
      Selects eval applies fallback branches
        (before.map Branch.expression ++ [branch.expression])
        (.failed (unevaluatedText branch.directive branch.expression error))
  | missed (passed : ∀ b ∈ branches, ∃ v, eval b.expression = .ok v ∧ applies v = false) :
      Selects eval applies fallback branches (branches.map Branch.expression) fallback

/-- The choice where no branch applies: the branch for everything else, if there is one. -/
inductive Fallback (label : String) : Option Action → Choice → Prop where
  | otherwise (action : Action) : Fallback label (some action) (.branch label action)
  | nothing : Fallback label none .nothing

theorem fallback_iff {label : String} {otherwise : Option Action} {choice : Choice} :
    Fallback label otherwise choice ↔ choice = .otherwise label otherwise := by
  constructor
  · rintro (_ | _) <;> rfl
  · rintro rfl
    cases otherwise with
    | none => exact .nothing
    | some action => exact .otherwise action

/-- What a step that branches decides on, and the expressions that are evaluated for that: a
conditional step by the truth of its conditions, a switch step by the values of its cases that are
the same as that of its subject. -/
inductive Step.Decides (eval : String → Except EvalError Json) :
    Step → List String → Choice → Prop where
  | conditional {step : ConditionalStep} {asked : List String} {fallback choice : Choice}
      (falls : Fallback "else" step.otherwise fallback)
      (selects : Selects eval Json.truthy fallback step.branches asked choice) :
      Decides eval (.conditional step) asked choice
  | switch {step : SwitchStep} {subject : Json} {asked : List String} {fallback choice : Choice}
      (evaluated : eval step.subject = .ok subject)
      (falls : Fallback "default" step.otherwise fallback)
      (selects : Selects eval subject.same fallback step.branches asked choice) :
      Decides eval (.switch step) (step.subject :: asked) choice
  | unevaluated {step : SwitchStep} {error : EvalError}
      (unevaluated : eval step.subject = .error error) :
      Decides eval (.switch step) [step.subject]
        (.failed (unevaluatedText "@switch" step.subject error))

/-- An evaluator that writes down what it is called with. -/
def overheard {α : Type} (eval : String → α) (text : String) : StateM (List String) α := do
  modify (· ++ [text])
  return eval text

/-- What a step that branches chooses, and what its evaluator is called with for that, call by
call. -/
inductive Step.Evaluates (eval : String → Except EvalError Json) :
    Step → List String → Choice → Prop where
  | conditional {step : ConditionalStep} {asked : List String} {choice : Choice}
      (chooses : (step.chooseM (overheard fun text => (eval text).map Json.truthy)).run [] =
        pure (choice, asked)) : Evaluates eval (.conditional step) asked choice
  | switch {step : SwitchStep} {asked : List String} {choice : Choice}
      (chooses : (step.chooseM (overheard eval)).run [] = pure (choice, asked)) :
      Evaluates eval (.switch step) asked choice

/-! ## Questions and answers -/

/-- What is asked for on the way to a choice: after each answer the next question, or the choice. -/
inductive Inquiry where
  | settled (choice : Choice)
  | ask (expression : String) (next : Except EvalError Json → Inquiry)

namespace Inquiry

/-- The choice that the answers of an evaluator lead to. -/
def choice (eval : String → Except EvalError Json) : Inquiry → Choice
  | settled choice => choice
  | ask expression next => (next (eval expression)).choice eval

/-- The expressions that an evaluator is asked for, in order. -/
def asked (eval : String → Except EvalError Json) : Inquiry → List String
  | settled _ => []
  | ask expression next => expression :: (next (eval expression)).asked eval

section

variable {m : Type → Type} [Monad m]

/-- The choice with an evaluator in a monad, one call after the other. -/
def follow (eval : String → m (Except EvalError Json)) : Inquiry → m Choice
  | settled choice => pure choice
  | ask expression next => do (next (← eval expression)).follow eval

/-- Calls that do nothing besides lead to the choice. -/
theorem follow_pure [LawfulMonad m] (eval : String → Except EvalError Json) (inquiry : Inquiry) :
    inquiry.follow (fun text => (pure (eval text) : m _)) = pure (inquiry.choice eval) := by
  induction inquiry with
  | settled => rfl
  | ask expression next ih => rw [follow, choice, pure_bind, ih]

end

/-- Calls that are written down are those for what is asked for. -/
theorem follow_overheard (eval : String → Except EvalError Json) (inquiry : Inquiry)
    (before : List String) :
    (inquiry.follow (overheard eval)).run before =
      pure (inquiry.choice eval, before ++ inquiry.asked eval) := by
  induction inquiry generalizing before with
  | settled => rw [asked, List.append_nil]; rfl
  | ask expression next ih =>
    rw [asked, choice, List.append_cons]
    exact ih (eval expression) (before ++ [expression])

/-- Evaluators that agree on what is asked for lead to the same choice. -/
theorem choice_congr {eval other : String → Except EvalError Json} {inquiry : Inquiry}
    (h : ∀ text ∈ inquiry.asked eval, other text = eval text) :
    inquiry.choice other = inquiry.choice eval := by
  induction inquiry with
  | settled => rfl
  | ask expression next ih =>
    rw [asked, List.forall_mem_cons] at h
    rw [choice, choice, h.1]
    exact ih (eval expression) h.2

/-- An error of an expression ends the inquiry, and is told. -/
inductive Strict : Inquiry → Prop where
  | settled (choice : Choice) : Strict (.settled choice)
  | ask {expression : String} {next : Except EvalError Json → Inquiry} (front : String)
      (error : ∀ e, next (.error e) = .settled (.failed (front ++ e.message)))
      (value : ∀ v, Strict (next (.ok v))) : Strict (.ask expression next)

/-- Where an expression has no value, what would have been asked for after it does not matter. -/
theorem Strict.cut {eval other : String → Except EvalError Json} {inquiry : Inquiry}
    {before after : List String} {text : String} {e : EvalError} (strict : inquiry.Strict)
    (split : inquiry.asked eval = before ++ text :: after)
    (same : ∀ earlier ∈ before, other earlier = eval earlier) (failing : other text = .error e) :
    inquiry.asked other = before ++ [text] ∧
      ∃ front, inquiry.choice other = .failed (front ++ e.message) := by
  induction strict generalizing before with
  | settled => simp [asked] at split
  | @ask expression next front error value ih =>
    rw [asked] at split
    rw [asked, choice]
    cases before with
    | nil =>
      obtain ⟨rfl, -⟩ := List.cons.inj split
      rw [failing, error]
      exact ⟨rfl, front, rfl⟩
    | cons earlier before =>
      obtain ⟨rfl, hsplit⟩ := List.cons.inj split
      obtain ⟨hhere, hsame⟩ := List.forall_mem_cons.1 same
      rw [hhere]
      cases hvalue : eval expression with
      | error e =>
        -- the inquiry would have ended here, before the text was asked for
        rw [hvalue, error] at hsplit
        simp [asked] at hsplit
      | ok v =>
        rw [hvalue] at hsplit
        obtain ⟨hasked, hchoice⟩ := ih v hsplit hsame
        exact ⟨congrArg _ hasked, hchoice⟩

end Inquiry

/-- The inquiry among some branches. -/
def inquire (applies : Json → Bool) (fallback : Choice) : List Branch → Inquiry
  | [] => .settled fallback
  | branch :: rest => .ask branch.expression fun
    | .error e => .settled (.failed (unevaluatedText branch.directive branch.expression e))
    | .ok value =>
      if applies value then .settled (.branch branch.label branch.action)
      else inquire applies fallback rest

/-- The inquiry of a step that branches. -/
def Step.inquiry : Step → Inquiry
  | .conditional step => inquire Json.truthy (.otherwise "else" step.otherwise) step.branches
  | .switch step => .ask step.subject fun
    | .error e => .settled (.failed (unevaluatedText "@switch" step.subject e))
    | .ok subject => inquire subject.same (.otherwise "default" step.otherwise) step.branches
  | .request _ | .forEach .. => .settled .nothing

section

variable {eval : String → Except EvalError Json} {applies : Json → Bool} {fallback : Choice}
  {branches : List Branch}

/-- Branches that do not apply are passed over. -/
theorem inquire_passed {before : List Branch} (fallback : Choice) (after : List Branch)
    (passed : ∀ b ∈ before, ∃ v, eval b.expression = .ok v ∧ applies v = false) :
    (inquire applies fallback (before ++ after)).asked eval =
        before.map Branch.expression ++ (inquire applies fallback after).asked eval ∧
      (inquire applies fallback (before ++ after)).choice eval =
        (inquire applies fallback after).choice eval := by
  induction before with
  | nil => exact ⟨rfl, rfl⟩
  | cons branch before ih =>
    obtain ⟨⟨value, hvalue, hpassed⟩, hrest⟩ := List.forall_mem_cons.1 passed
    obtain ⟨hasked, hchoice⟩ := ih hrest
    simp only [List.cons_append, inquire, Inquiry.asked, Inquiry.choice, hvalue, hpassed,
      Bool.false_eq_true, if_false, hasked, hchoice, List.map_cons, and_self]

/-- Only one choice comes of some branches, by the inquiry among them. -/
theorem Selects.eq {asked : List String} {choice : Choice}
    (h : Selects eval applies fallback branches asked choice) :
    asked = (inquire applies fallback branches).asked eval ∧
      choice = (inquire applies fallback branches).choice eval := by
  cases h with
  | @taken before after branch value split passed hvalue holds =>
    obtain ⟨hasked, hchoice⟩ := inquire_passed fallback (branch :: after) passed
    rw [split, hasked, hchoice]
    simp [inquire, Inquiry.asked, Inquiry.choice, hvalue, holds]
  | @failed before after branch error split passed herror =>
    obtain ⟨hasked, hchoice⟩ := inquire_passed fallback (branch :: after) passed
    rw [split, hasked, hchoice]
    simp [inquire, Inquiry.asked, Inquiry.choice, herror]
  | missed passed =>
    obtain ⟨hasked, hchoice⟩ := inquire_passed fallback [] passed
    rw [List.append_nil] at hasked hchoice
    rw [hasked, hchoice]
    simp [inquire, Inquiry.asked, Inquiry.choice]

/-- One more branch in front that does not apply. -/
theorem Selects.pass {branch : Branch} {value : Json} {asked : List String} {choice : Choice}
    (h : Selects eval applies fallback branches asked choice)
    (hvalue : eval branch.expression = .ok value) (hpassed : applies value = false) :
    Selects eval applies fallback (branch :: branches) (branch.expression :: asked) choice := by
  have hall {before : List Branch}
      (passed : ∀ b ∈ before, ∃ v, eval b.expression = .ok v ∧ applies v = false) :
      ∀ b ∈ branch :: before, ∃ v, eval b.expression = .ok v ∧ applies v = false :=
    List.forall_mem_cons.2 ⟨⟨value, hvalue, hpassed⟩, passed⟩
  cases h with
  | taken split passed evaluated holds =>
    rw [split]
    exact .taken (List.cons_append ..).symm (hall passed) evaluated holds
  | failed split passed unevaluated =>
    rw [split]
    exact .failed (List.cons_append ..).symm (hall passed) unevaluated
  | missed passed => exact .missed (hall passed)

/-- The inquiry among some branches selects one of them. -/
theorem selects_inquire (branches : List Branch) :
    Selects eval applies fallback branches ((inquire applies fallback branches).asked eval)
      ((inquire applies fallback branches).choice eval) := by
  induction branches with
  | nil => exact .missed (by simp)
  | cons branch rest ih =>
    simp only [inquire, Inquiry.asked, Inquiry.choice]
    cases hvalue : eval branch.expression with
    | error e => exact @Selects.failed _ _ _ _ [] rest branch e rfl (by simp) hvalue
    | ok value =>
      dsimp only
      cases happlies : applies value with
      | true => exact @Selects.taken _ _ _ _ [] rest branch value rfl (by simp) hvalue happlies
      | false => exact ih.pass hvalue happlies

/-- The inquiry among some branches ends with the first error. -/
theorem strict_inquire (branches : List Branch) : (inquire applies fallback branches).Strict := by
  induction branches with
  | nil => exact .settled fallback
  | cons branch rest ih =>
    refine .ask (branch.directive ++ " `" ++ branch.expression ++ "`: ") (fun _ => rfl)
      fun value => ?_
    dsimp only
    split
    · exact .settled _
    · exact ih

end

/-! ## The inquiry of a step -/

section

variable {eval : String → Except EvalError Json} {step : Step}

theorem strict_inquiry (step : Step) : step.inquiry.Strict := by
  cases step with
  | request => exact .settled _
  | forEach => exact .settled _
  | conditional => exact strict_inquire _
  | switch step =>
    exact .ask ("@switch `" ++ step.subject ++ "`: ") (fun _ => rfl) fun _ => strict_inquire _

/-- A step that branches decides as its inquiry does. -/
theorem decides_inquiry (branching : step.requestPart? = none) :
    step.Decides eval (step.inquiry.asked eval) (step.inquiry.choice eval) := by
  cases step with
  | request => cases branching
  | forEach => cases branching
  | conditional step => exact .conditional (fallback_iff.2 rfl) (selects_inquire step.branches)
  | switch step =>
    simp only [Step.inquiry, Inquiry.asked, Inquiry.choice]
    cases hsubject : eval step.subject with
    | error e => exact .unevaluated hsubject
    | ok subject => exact .switch hsubject (fallback_iff.2 rfl) (selects_inquire step.branches)

/-- A step decides in one way only. -/
theorem Step.Decides.eq {asked : List String} {choice : Choice}
    (h : step.Decides eval asked choice) :
    asked = step.inquiry.asked eval ∧ choice = step.inquiry.choice eval := by
  cases h with
  | conditional falls selects =>
    obtain rfl := fallback_iff.1 falls
    exact selects.eq
  | switch evaluated falls selects =>
    obtain rfl := fallback_iff.1 falls
    obtain ⟨hasked, hchoice⟩ := selects.eq
    simp only [Step.inquiry, Inquiry.asked, Inquiry.choice, evaluated]
    exact ⟨congrArg _ hasked, hchoice⟩
  | unevaluated unevaluated => simp [Step.inquiry, Inquiry.asked, Inquiry.choice, unevaluated]

end

/-! ## Choosing -/

section

variable {m : Type → Type} [Monad m]

theorem chooseAlternative_eq [LawfulMonad m] (eval : String → m (Except EvalError Json))
    (otherwise : Option Action) (number : Nat) (alternatives : List ConditionalBranch) :
    chooseAlternative (fun text => Except.map Json.truthy <$> eval text) otherwise number
        alternatives =
      (inquire Json.truthy (.otherwise "else" otherwise)
        (alternatives.mapIdx fun index branch =>
          ⟨"@elif condition", branch.condition, "elif " ++ toString (index + number),
            branch.action⟩)).follow eval := by
  induction alternatives generalizing number with
  | nil => rfl
  | cons branch rest ih =>
    -- the alternatives that are left count on from the next number
    have hnumber (index : Nat) : index + 1 + number = index + (number + 1) := by omega
    simp only [chooseAlternative, ih, List.mapIdx_cons, inquire, Inquiry.follow, Nat.zero_add,
      hnumber, bind_map_left]
    refine bind_congr fun value => ?_
    cases value with
    | error e => rfl
    | ok value => cases hvalue : value.truthy <;> simp [Except.map, hvalue, Inquiry.follow]

/-- A conditional step chooses by its inquiry. -/
theorem ConditionalStep.chooseM_eq [LawfulMonad m] (step : ConditionalStep)
    (eval : String → m (Except EvalError Json)) :
    step.chooseM (fun text => Except.map Json.truthy <$> eval text) =
      (Step.conditional step).inquiry.follow eval := by
  simp only [chooseM, Step.inquiry, branches, chooseAlternative_eq]
  cases step.primary with
  | none => rfl
  | some primary =>
    simp only [Option.map_some, Option.toList_some, List.singleton_append, inquire, Inquiry.follow,
      bind_map_left]
    refine bind_congr fun value => ?_
    cases value with
    | error e => rfl
    | ok value => cases hvalue : value.truthy <;> simp [Except.map, hvalue, Inquiry.follow]

theorem chooseCase_eq (eval : String → m (Except EvalError Json)) (otherwise : Option Action)
    (subject : Json) (cases : List CaseBranch) :
    chooseCase eval otherwise subject cases =
      (inquire subject.same (.otherwise "default" otherwise)
        (cases.map fun branch =>
          ⟨"@case", branch.value, "case " ++ Text.trimmed branch.value, branch.action⟩)).follow
        eval := by
  induction cases with
  | nil => rfl
  | cons branch rest ih =>
    simp only [chooseCase, ih, List.map_cons, inquire, Inquiry.follow]
    refine bind_congr fun value => ?_
    cases value with
    | error e => rfl
    | ok value => cases hvalue : subject.same value <;> simp [hvalue, Inquiry.follow]

/-- So does a switch step. -/
theorem SwitchStep.chooseM_eq (step : SwitchStep) (eval : String → m (Except EvalError Json)) :
    step.chooseM eval = (Step.switch step).inquiry.follow eval := by
  simp only [chooseM, Step.inquiry, Inquiry.follow]
  refine bind_congr fun value => ?_
  cases value with
  | error e => rfl
  | ok subject => exact chooseCase_eq eval step.otherwise subject step.cases

end

section

variable {eval : String → Except EvalError Json}

theorem ConditionalStep.choose_eq (step : ConditionalStep) :
    step.choose (fun text => (eval text).map Json.truthy) =
      (Step.conditional step).inquiry.choice eval := by
  have hchoose := (step.chooseM_eq fun text => (pure (eval text) : Id _)).trans
    ((Step.conditional step).inquiry.follow_pure eval)
  exact congrArg Id.run hchoose

theorem SwitchStep.choose_eq (step : SwitchStep) :
    step.choose eval = (Step.switch step).inquiry.choice eval := by
  have hchoose := (step.chooseM_eq fun text => (pure (eval text) : Id _)).trans
    ((Step.switch step).inquiry.follow_pure eval)
  exact congrArg Id.run hchoose

/-- For its choice a step calls the evaluator once for each expression of its inquiry, in order. -/
theorem evaluates_inquiry {step : Step} (branching : step.requestPart? = none) :
    step.Evaluates eval (step.inquiry.asked eval) (step.inquiry.choice eval) := by
  cases step with
  | request => cases branching
  | forEach => cases branching
  | conditional step =>
    have htruth : (overheard fun text => (eval text).map Json.truthy) =
      fun text => Except.map Json.truthy <$> overheard eval text := rfl
    refine .conditional ?_
    rw [htruth, step.chooseM_eq, Inquiry.follow_overheard, List.nil_append]
  | switch step =>
    refine .switch ?_
    rw [step.chooseM_eq, Inquiry.follow_overheard, List.nil_append]

end

end RequestFlow
