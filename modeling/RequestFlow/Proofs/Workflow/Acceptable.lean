import RequestFlow.Workflow.Validation

/-!
# Acceptable workflows

What a workflow has to be like before it may run, said without an order of checks: every request it
names is in the index, no branch both runs a request and fails, and nothing is blank that will be
evaluated. Validation accepts these workflows and no others, and where it does not accept one it
tells the first step that is at fault.

* `Step.Acceptable`: the steps that may run;
* `Step.check_iff`: a step passes its check if and only if it is acceptable;
* `Workflow.steps_of_validate`: the steps of a valid workflow are acceptable;
* `Workflow.first_of_validate`: a step that is told is the first that is not acceptable.
-/

namespace RequestFlow

/-- What a branch may do: the request it runs is in the index, and then it does not fail as well. -/
structure Action.Acceptable (requests : RequestIndex) (action : Action) : Prop where
  known : ∀ target, action.target? = some target → requests.contains target = true
  exclusive : action.target?.isSome → action.fail = none

/-- The request of the step is in the index. -/
structure RequestStep.Acceptable (requests : RequestIndex) (step : RequestStep) : Prop where
  named : step.targetName ≠ ""
  known : requests.contains step.targetName = true

/-- The loop says what it goes over and by which name. -/
structure LoopSpec.Acceptable (spec : LoopSpec) : Prop where
  items : Text.isBlankText spec.items = false
  var : Text.isBlankText spec.var = false

/-- A step that may run. -/
def Step.Acceptable (requests : RequestIndex) : Step → Prop
  | request step => step.Acceptable requests
  | forEach step loop => step.Acceptable requests ∧ ∃ spec, loop = some spec ∧ spec.Acceptable
  | conditional step =>
    step.primary.isSome ∧
      (∀ branch ∈ step.primary.toList ++ step.alternatives,
        Text.isBlankText branch.condition = false) ∧
      ∀ action ∈ (conditional step).actions, action.Acceptable requests
  | switch step =>
    Text.isBlankText step.subject = false ∧ step.cases ≠ [] ∧
      ∀ action ∈ (switch step).actions, action.Acceptable requests

variable {requests : RequestIndex}

/-! ## Checks one by one -/

/-- Two checks in turn. -/
theorem andThen_iff {ε : Type} {first second : Except ε Unit} :
    (first >>= fun _ => second) = .ok () ↔ first = .ok () ∧ second = .ok () := by
  cases first with
  | error fault => exact iff_of_false nofun nofun
  | ok => exact (and_iff_right rfl).symm

theorem checkEach_iff {α : Type} {check : α → Except StepFault Unit} {items : List α} :
    checkEach check items = .ok () ↔ ∀ item ∈ items, check item = .ok () := by
  induction items with
  | nil => simp [checkEach]
  | cons item rest ih =>
    rw [checkEach, andThen_iff, ih, List.forall_mem_cons]

theorem Action.check_iff {directive : BranchDirective} {action : Action} :
    action.check requests directive = .ok () ↔ action.Acceptable requests := by
  unfold Action.check
  cases htarget : action.target? with
  | none =>
    refine iff_of_true rfl ⟨?_, ?_⟩
    · simp [htarget]
    · simp [htarget]
  | some target =>
    dsimp only
    constructor
    · intro h
      split at h
      · cases h
      · rename_i hfail
        split at h
        · rename_i hknown
          refine ⟨?_, fun _ => by simpa using hfail⟩
          intro other hother
          cases htarget.symm.trans hother
          exact hknown
        · cases h
    · intro h
      rw [h.exclusive (by simp [htarget]), if_neg (by simp), if_pos (h.known target htarget)]

theorem RequestStep.check_iff {step : RequestStep} :
    step.check requests = .ok () ↔ step.Acceptable requests := by
  unfold RequestStep.check
  split
  · rename_i hblank
    exact iff_of_false nofun fun h => h.named hblank
  · rename_i hnamed
    split
    · rename_i hknown
      exact iff_of_true rfl ⟨hnamed, hknown⟩
    · rename_i hunknown
      exact iff_of_false nofun fun h => hunknown h.known

theorem LoopSpec.check_iff {loop : Option LoopSpec} :
    LoopSpec.check loop = .ok () ↔ ∃ spec, loop = some spec ∧ spec.Acceptable := by
  cases loop with
  | none => exact iff_of_false nofun nofun
  | some spec =>
    simp only [LoopSpec.check, Option.some.injEq, exists_eq_left']
    split
    · rename_i hitems
      exact iff_of_false nofun fun h => by simp [h.items] at hitems
    · rename_i hitems
      split
      · rename_i hvar
        exact iff_of_false nofun fun h => by simp [h.var] at hvar
      · rename_i hvar
        exact iff_of_true rfl ⟨by simpa using hitems, by simpa using hvar⟩

theorem ConditionalBranch.check_iff {directive : BranchDirective} {branch : ConditionalBranch} :
    branch.check requests directive = .ok () ↔
      Text.isBlankText branch.condition = false ∧ branch.action.Acceptable requests := by
  unfold ConditionalBranch.check
  split
  · rename_i hblank
    exact iff_of_false nofun fun h => by simp [h.1] at hblank
  · rename_i hcondition
    rw [Action.check_iff]
    exact (and_iff_right (by simpa using hcondition)).symm

/-! ## Steps -/

theorem ConditionalStep.check_iff {step : ConditionalStep} :
    (Step.conditional step).check requests = .ok () ↔
      (Step.conditional step).Acceptable requests := by
  simp only [Step.check, Step.Acceptable, Step.actions]
  cases step.primary with
  | none => exact iff_of_false (by rintro ⟨⟩) (by rintro ⟨⟨⟩, -⟩)
  | some primary =>
    simp only [andThen_iff, checkEach_iff, ConditionalBranch.check_iff, Action.check_iff]
    simp only [Option.isSome_some, Option.toList_some, true_and, List.cons_append, List.nil_append,
      List.map_cons, List.map_nil, List.forall_mem_cons, List.forall_mem_append,
      List.forall_mem_map, forall_and]
    constructor
    · rintro ⟨⟨hcondition, haction⟩, ⟨hconditions, hactions⟩, hotherwise⟩
      exact ⟨⟨hcondition, hconditions⟩, haction, hactions, hotherwise⟩
    · rintro ⟨⟨hcondition, hconditions⟩, haction, hactions, hotherwise⟩
      exact ⟨⟨hcondition, haction⟩, ⟨hconditions, hactions⟩, hotherwise⟩

theorem SwitchStep.check_iff {step : SwitchStep} :
    (Step.switch step).check requests = .ok () ↔ (Step.switch step).Acceptable requests := by
  simp only [Step.check, Step.Acceptable, Step.actions]
  cases hsubject : Text.isBlankText step.subject with
  | true => exact iff_of_false (by rintro ⟨⟩) (by rintro ⟨⟨⟩, -⟩)
  | false =>
    cases hcases : step.cases with
    | nil => exact iff_of_false (by rintro ⟨⟩) fun h => h.2.1 rfl
    | cons branch rest =>
      simp only [List.isEmpty_cons, Bool.false_eq_true, if_false, andThen_iff, checkEach_iff,
        Action.check_iff]
      simp only [List.forall_mem_append, List.forall_mem_map, true_and, ne_eq, reduceCtorEq,
        not_false_eq_true]

/-- A step passes its check if and only if it may run. -/
theorem Step.check_iff {step : Step} : step.check requests = .ok () ↔ step.Acceptable requests := by
  cases step with
  | request step => exact RequestStep.check_iff
  | forEach step loop =>
    rw [Step.check, andThen_iff, RequestStep.check_iff, LoopSpec.check_iff]
    rfl
  | conditional step => exact ConditionalStep.check_iff
  | switch step => exact SwitchStep.check_iff

/-! ## What an acceptable step names -/

/-- The request that an acceptable step targets is in the index. -/
theorem Step.Acceptable.target {step : Step} {part : RequestStep} (h : step.Acceptable requests)
    (hpart : step.requestPart? = some part) : requests.contains part.targetName = true := by
  cases step with
  | request step =>
    cases hpart
    exact RequestStep.Acceptable.known h
  | forEach step loop =>
    cases hpart
    exact h.1.known
  | conditional => cases hpart
  | switch => cases hpart

/-- What a branch of an acceptable step runs is in the index. -/
theorem Step.Acceptable.action {step : Step} {action : Action} (h : step.Acceptable requests)
    (haction : action ∈ step.actions) : action.Acceptable requests := by
  cases step with
  | request => cases haction
  | forEach => cases haction
  | conditional => exact h.2.2 action haction
  | switch => exact h.2.2 action haction

/-- A branch that fails does so in the words of its author. -/
theorem Action.fail_of_meaning {action : Action} {message : String}
    (h : action.meaning = .fail message) : action.fail = some message := by
  unfold meaning at h
  split at h
  · rename_i hfail
    cases h
    exact hfail
  · split at h <;> cases h

/-- A branch that runs a request names it. -/
theorem Action.target_of_meaning {action : Action} {target : String}
    (h : action.meaning = .run target) : action.target? = some target := by
  unfold meaning at h
  split at h
  · cases h
  · split at h
    · rename_i htarget
      cases h
      exact htarget
    · cases h

/-! ## Workflows -/

/-- A fault that is told of some steps, counted from a number on, is that of the first step at
fault. -/
theorem checkSteps_error {workflow told : String} {first number : Nat} {steps : List Step}
    {fault : StepFault}
    (h : checkSteps requests workflow first steps = .error (.step told number fault)) :
    told = workflow ∧ ∃ before step after, steps = before ++ step :: after ∧
      number = first + before.length ∧ (∀ earlier ∈ before, earlier.Acceptable requests) ∧
      step.check requests = .error fault := by
  induction steps generalizing first with
  | nil => cases h
  | cons step rest ih =>
    rw [checkSteps] at h
    cases hcheck : step.check requests with
    | ok =>
      rw [hcheck] at h
      obtain ⟨htold, before, faulty, after, hrest, hnumber, hbefore, hfault⟩ := ih h
      refine ⟨htold, step :: before, faulty, after, by rw [hrest, List.cons_append], ?_, ?_, hfault⟩
      · rw [hnumber, List.length_cons]
        omega
      · exact List.forall_mem_cons.2 ⟨Step.check_iff.1 hcheck, hbefore⟩
    | error other =>
      rw [hcheck] at h
      cases h
      exact ⟨rfl, [], step, rest, rfl, rfl, by simp, hcheck⟩

theorem checkSteps_iff {workflow : String} {first : Nat} {steps : List Step} :
    checkSteps requests workflow first steps = .ok () ↔
      ∀ step ∈ steps, step.Acceptable requests := by
  induction steps generalizing first with
  | nil => simp [checkSteps]
  | cons step rest ih =>
    rw [checkSteps, List.forall_mem_cons, ← Step.check_iff]
    cases step.check requests with
    | ok => exact ih.trans (and_iff_right rfl).symm
    | error fault => exact iff_of_false nofun nofun

/-- A workflow is valid if and only if it has steps and all of them may run. -/
theorem Workflow.validate_iff {workflow : Workflow} :
    workflow.validate requests = .ok () ↔
      workflow.steps ≠ [] ∧ ∀ step ∈ workflow.steps, step.Acceptable requests := by
  unfold Workflow.validate
  split
  · rename_i hempty
    exact iff_of_false nofun fun h => h.1 (List.isEmpty_iff.1 hempty)
  · rename_i hsteps
    rw [checkSteps_iff]
    exact (and_iff_right fun hnil => hsteps (List.isEmpty_iff.2 hnil)).symm

/-- The steps of a valid workflow may run. -/
theorem Workflow.steps_of_validate {workflow : Workflow} (h : workflow.validate requests = .ok ())
    {index : Nat} {step : Step} (hstep : workflow.steps[index]? = some step) :
    step.Acceptable requests :=
  (validate_iff.1 h).2 step (List.mem_of_getElem? hstep)

/-- A step that is told is at fault, and no step before it is. -/
theorem Workflow.first_of_validate {workflow : Workflow} {told : String} {number : Nat}
    {fault : StepFault} (h : workflow.validate requests = .error (.step told number fault)) :
    told = workflow.name ∧ ∃ before step after, workflow.steps = before ++ step :: after ∧
      number = before.length + 1 ∧ (∀ earlier ∈ before, earlier.Acceptable requests) ∧
      ¬ step.Acceptable requests ∧ step.check requests = .error fault := by
  unfold Workflow.validate at h
  split at h
  · cases h
  · obtain ⟨htold, before, step, after, hsteps, hnumber, hbefore, hfault⟩ := checkSteps_error h
    refine ⟨htold, before, step, after, hsteps, by omega, hbefore, ?_, hfault⟩
    intro hacceptable
    cases hfault.symm.trans (Step.check_iff.2 hacceptable)

end RequestFlow
