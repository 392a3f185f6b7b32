import RequestFlow.Proofs.Workflow.Acceptable
import RequestFlow.Proofs.Workflow.Parts

/-!
# What the directives say

The directives of a workflow say which workflow it is: two workflows that may run on the same
requests and have the same directives are equal. The texts in a workflow may hold whatever looks
like a directive, for they are written in quotes then; only what is written without quotes, as names
and keys are, has to do without the signs that end it.

* `Step.Recordable`, `Workflow.Recordable`: what is asked of what is written without quotes;
* `RequestStep.legible_text`, `ConditionalStep.legible_text`, `SwitchStep.legible_text`: the steps
  of each kind;
* `Step.legible_text`: the kind of a step is told by its directive, and the step by what follows;
* `Workflow.directives_eq_iff`: the same directives, the same workflow.
-/

namespace RequestFlow

open Text Directive

/-! ## Steps -/

/-- What is asked of a step for it to be read back: a name that shows, if it has one, keys that do
not hold the sign that ends them, and a loop variable on one line. -/
structure Step.Recordable (step : Step) : Prop where
  name : Shown step.writtenName
  vars : Keyed step.vars
  expect : ∀ part, step.requestPart? = some part → Keyed part.expect
  var : ∀ part spec, step = .forEach part (some spec) → '\n' ∉ spec.var.toList

/-- No method begins with the sign that begins the line of a directive. -/
def Unmarked (requests : RequestIndex) : Prop :=
  ∀ name request, requests.get? name = some request → request.method.toList.head? ≠ some '#'

variable {requests : RequestIndex}

namespace RequestStep

/-- The line of the request, if there is one. -/
def requestLine (requests : RequestIndex) (step : RequestStep) : List Char :=
  lines ((requests.get? (trimmed step.target)).map fun request =>
    request.method ++ " " ++ request.url).toList

/-- A request step as it is written, behind its directive. -/
def text (requests : RequestIndex) (step : RequestStep) : List Char :=
  " using=".toList ++ (valueText step.target ++
    (each " when=" valueText step.guard.toList ++ (commonText (step.name, step.policy) ++
      (pairsText "\n# @vars " step.vars ++ (pairsText "\n# @expect " step.expect ++
        requestLine requests step)))))

theorem lines_directives {step : RequestStep} (h : (Step.request step).Recordable) :
    lines (step.directives requests) = "\n# @step".toList ++ text requests step := by
  have hname : Shown step.name := h.name
  have hfirst : ("# @step " ++ pair "using" step.target).toList =
      "# @step".toList ++ (" using=".toList ++ valueText step.target) := by
    simp [pair, valueText]
  have hmark : "\n# @step".toList = '\n' :: "# @step".toList := by simp
  unfold RequestStep.directives text requestLine
  rw [lines_append, lines_append, lines_cons, lines_pairLines "vars" "\n# @vars " (by decide),
    lines_pairLines "expect" "\n# @expect " (by decide), hmark, String.toList_append,
    String.toList_append, hfirst, toList_part "when" " when=" (by decide), toList_common hname]
  simp only [List.append_assoc, List.cons_append]

/-- The line of a request is told from the lines of directives. -/
theorem distinct_line {mark : String} {cs : List Char} {request : Request}
    (hmark : mark.toList = '\n' :: '#' :: cs) (h : request.method.toList.head? ≠ some '#') :
    Distinct mark ["\n" ++ (request.method ++ " " ++ request.url)] := by
  refine ⟨by simp [hmark], fun other hother => ?_⟩
  cases List.mem_singleton.1 hother
  cases hmethod : request.method.toList with
  | nil => simp [hmark, hmethod, List.cons_prefix_cons]
  | cons c rest =>
    have hc : c ≠ '#' := by simpa [hmethod] using h
    simp [hmark, hmethod, List.cons_prefix_cons, hc, hc.symm]

/-- A request step is legible once its request is known, and its request is known by its target. -/
theorem legible_text (unmarked : Unmarked requests) :
    Legible [" using="] ["\n\n# @"]
      (fun step => (Step.request step).Recordable ∧ step.Acceptable requests) (text requests) := by
  have hvalue : Legible [""] [" ", "\n"] _ valueText := legible_quote (by decide)
  refine (hvalue.seq (f := RequestStep.target) (by simp) fun step hstep => ?_).marked " using="
  obtain ⟨request, hrequest⟩ := Option.isSome_iff_exists.1 hstep.2.known
  -- steps with one target have the same line at their end, so that it is a mark itself
  let line := "\n" ++ (request.method ++ " " ++ request.url)
  have hline : Legible [line] ["\n\n# @"] (fun _ : Unit => True) fun _ => line.toList ++ [] :=
    (Legible.nothing fun _ _ _ _ => rfl).marked line
  have hvars : Distinct "\n# @vars " [line] := distinct_line rfl (unmarked _ _ hrequest)
  have hexpect : Distinct "\n# @expect " [line] := distinct_line rfl (unmarked _ _ hrequest)
  have hlast : Led ['\n'] [line] := by simp [Led, line]
  have hlines : Led ['\n'] ["\n# @expect ", line] := hlast.cons (by decide)
  have hbelow : Led ['\n'] ["\n# @vars ", "\n# @expect ", line] := hlines.cons (by decide)
  have hled : Led [' ', '\n']
      [" when=", " name=", " on-failure=", "\n# @vars ", "\n# @expect ", line] :=
    (((hbelow.mono (by simp)).cons (by decide)).cons (by decide)).cons (by decide)
  have hguard : Distinct " when=" [" name=", " on-failure=", "\n# @vars ", "\n# @expect ", line] :=
    .cons (by decide) (.cons (by decide) (hbelow.distinct rfl (by decide)))
  have hparts := (legible_part " when=" hled hguard).pair ((legible_common hbelow).pair
    ((legible_pairs hlines (.cons (by decide) hvars)).pair
      ((legible_pairs hlast hexpect).pair hline)))
  refine legible_bounded hled ((hparts.comap (fun step : RequestStep =>
    (step.guard, (step.name, step.policy), step.vars, step.expect, ())) ?_ ?_).congr ?_)
  · exact fun part hpart => ⟨trivial, trivial, hpart.1.1.vars, hpart.1.1.expect part rfl, trivial⟩
  · rintro ⟨⟩ ⟨⟩ ⟨-, rfl⟩ ⟨-, hother⟩ hsame
    cases hother
    cases hsame
    rfl
  · rintro other ⟨-, hother⟩
    have hfound : requests.get? (trimmed other.target) = some request := by
      rw [hother]
      exact hrequest
    have hwritten : requestLine requests other = line.toList ++ [] := by
      simp [requestLine, hfound, line, lines, each]
    rw [hwritten]

end RequestStep

namespace ConditionalStep

/-- A branch with its condition, as it is written. -/
def branchText (branch : ConditionalBranch) : List Char :=
  choiceText (branch.condition, branch.action)

/-- A conditional step as it is written, behind its directive. -/
def text (step : ConditionalStep) : List Char :=
  each " cond=" branchText step.primary.toList ++ (commonText (step.name, step.policy) ++
    (pairsText "\n# @vars " step.vars ++ (each "\n# @elif cond=" branchText step.alternatives ++
      each "\n# @else" actionText step.otherwise.toList)))

theorem toList_branch (branch : ConditionalBranch) :
    branch.directive.toList = "cond=".toList ++ branchText branch := by
  unfold ConditionalBranch.directive branchText choiceText
  simp [toList_action, pair, valueText]

theorem lines_directives {step : ConditionalStep} (h : (Step.conditional step).Recordable) :
    lines step.directives = "\n# @if".toList ++ text step := by
  have hname : Shown step.name := h.name
  have hprimary : (part ConditionalBranch.directive step.primary).toList =
      each " cond=" branchText step.primary.toList := by
    cases step.primary <;> simp [part, each, toList_branch]
  have halternatives : lines (step.alternatives.map fun branch => "# @elif " ++ branch.directive) =
      each "\n# @elif cond=" branchText step.alternatives := by
    simp [lines, each, List.flatMap_map, toList_branch]
  have hotherwise : lines (step.otherwise.toList.map fun action => "# @else" ++ action.directive) =
      each "\n# @else" actionText step.otherwise.toList := by
    simp [lines, each, List.flatMap_map, toList_action]
  have hmark : "\n# @if".toList = '\n' :: "# @if".toList := by simp
  unfold ConditionalStep.directives text
  rw [lines_append, lines_append, lines_cons, lines_pairLines "vars" "\n# @vars " (by decide),
    halternatives, hotherwise, String.toList_append, String.toList_append, hprimary,
    toList_common hname, hmark]
  simp only [List.append_assoc, List.cons_append]

theorem legible_branch {after : List String} (h : Led [' ', '\n'] after) (hrun : Distinct " run=" after)
    (hfail : Distinct " fail=" after) : Legible [""] after (fun _ => True) branchText := by
  refine (legible_choice h hrun hfail).comap
    (fun branch : ConditionalBranch => (branch.condition, branch.action)) (by simp) ?_
  rintro ⟨⟩ ⟨⟩ - - hsame
  cases hsame
  rfl

/-- A conditional step is legible: each of its branches is told by the mark of its kind. -/
theorem legible_text :
    Legible [" ", "\n"] ["\n\n# @"] (fun step => (Step.conditional step).Recordable) text := by
  have hotherwise : Legible ["\n# @else", "\n\n# @"] ["\n\n# @"] _ _ :=
    (legible_action (by decide) (by decide) (by decide)).optional (by decide)
  have halternatives : Legible ["\n# @elif cond=", "\n# @else", "\n\n# @"] _ _ _ :=
    (legible_branch (by decide) (by decide) (by decide)).each (by decide)
  have hprimary : Legible [" cond=", " name=", " on-failure=", "\n# @vars ", "\n# @elif cond=",
      "\n# @else", "\n\n# @"] _ _ _ :=
    (legible_branch (by decide) (by decide) (by decide)).optional (by decide)
  have hparts := hprimary.pair ((legible_common (by decide)).pair
    ((legible_pairs (by decide) (by decide)).pair (halternatives.pair hotherwise)))
  refine legible_bounded (by decide) (hparts.comap (fun step : ConditionalStep =>
    (step.primary, (step.name, step.policy), step.vars, step.alternatives, step.otherwise)) ?_ ?_)
  · exact fun step hstep => ⟨by simp, trivial, hstep.vars, by simp, by simp⟩
  · rintro ⟨⟩ ⟨⟩ - - hsame
    cases hsame
    rfl

end ConditionalStep

namespace SwitchStep

/-- A branch with its value, as it is written. -/
def branchText (branch : CaseBranch) : List Char :=
  choiceText (branch.value, branch.action)

/-- A switch step as it is written, behind its directive. -/
def text (step : SwitchStep) : List Char :=
  " ".toList ++ (valueText step.subject ++ (commonText (step.name, step.policy) ++
    (pairsText "\n# @vars " step.vars ++ (each "\n# @case " branchText step.cases ++
      each "\n# @default" actionText step.otherwise.toList))))

theorem lines_directives {step : SwitchStep} (h : (Step.switch step).Recordable) :
    lines step.directives = "\n# @switch".toList ++ text step := by
  have hname : Shown step.name := h.name
  have hcases : lines (step.cases.map fun branch =>
      "# @case " ++ quote branch.value ++ branch.action.directive) =
      each "\n# @case " branchText step.cases := by
    simp [lines, each, List.flatMap_map, toList_action, branchText, choiceText, valueText]
  have hotherwise : lines (step.otherwise.toList.map fun action =>
      "# @default" ++ action.directive) = each "\n# @default" actionText step.otherwise.toList := by
    simp [lines, each, List.flatMap_map, toList_action]
  have hmark : "\n# @switch".toList ++ " ".toList = '\n' :: "# @switch ".toList := by simp
  unfold SwitchStep.directives text valueText
  rw [lines_append, lines_append, lines_cons, lines_pairLines "vars" "\n# @vars " (by decide),
    hcases, hotherwise, String.toList_append, String.toList_append, toList_common hname,
    ← List.append_assoc, hmark]
  simp only [List.append_assoc, List.cons_append]

/-- A switch step is legible, as a conditional step is. -/
theorem legible_text :
    Legible [" ", "\n"] ["\n\n# @"] (fun step => (Step.switch step).Recordable) text := by
  have hotherwise : Legible ["\n# @default", "\n\n# @"] ["\n\n# @"] _ _ :=
    (legible_action (by decide) (by decide) (by decide)).optional (by decide)
  have hbranch : Legible [""] ["\n# @case ", "\n# @default", "\n\n# @"] (fun _ => True)
      branchText := by
    refine (legible_choice (by decide) (by decide) (by decide)).comap
      (fun branch : CaseBranch => (branch.value, branch.action)) (by simp) ?_
    rintro ⟨⟩ ⟨⟩ - - hsame
    cases hsame
    rfl
  have hvars : Legible ["\n# @vars ", "\n# @case ", "\n# @default", "\n\n# @"] _ _ _ :=
    legible_pairs (by decide) (by decide)
  have hparts := (legible_quote (by decide)).pair ((legible_common (by decide)).pair
    (hvars.pair ((hbranch.each (by decide)).pair hotherwise)))
  refine legible_bounded (by decide) ((hparts.comap (fun step : SwitchStep =>
    (step.subject, (step.name, step.policy), step.vars, step.cases, step.otherwise)) ?_ ?_).marked
      " ")
  · exact fun step hstep => ⟨trivial, trivial, hstep.vars, by simp, by simp⟩
  · rintro ⟨⟩ ⟨⟩ - - hsame
    cases hsame
    rfl

end SwitchStep

namespace Step

/-- A step as it is written, behind its directive. -/
def text (requests : RequestIndex) : Step → List Char
  | request step => step.text requests
  | forEach step loop => loop.toList.flatMap fun spec =>
    " items=".toList ++ (valueText spec.items ++ (" as=".toList ++ (spec.var.toList ++
      ("\n# @step".toList ++ step.text requests))))
  | conditional step => step.text
  | switch step => step.text

theorem Recordable.part {step : RequestStep} {loop : Option LoopSpec}
    (h : (forEach step loop).Recordable) : (request step).Recordable :=
  ⟨h.name, h.vars, h.expect, nofun⟩

theorem lines_directives {step : Step} (h : step.Recordable) (hstep : step.Acceptable requests) :
    lines ("" :: step.directives requests) =
      "\n\n# @".toList ++ (step.directive.toList ++ step.text requests) := by
  cases step with
  | request step =>
    have hlines : lines (step.directives requests) = _ := RequestStep.lines_directives h
    simp [lines_cons, Step.directives, hlines, directive, text]
  | forEach step loop =>
    obtain ⟨spec, rfl, -⟩ := hstep.2
    have hlines : lines (step.directives requests) = _ := RequestStep.lines_directives h.part
    simp [lines_cons, Step.directives, hlines, directive, text, LoopSpec.directive, pair, valueText]
  | conditional step =>
    have hlines : lines step.directives = _ := ConditionalStep.lines_directives h
    simp [lines_cons, Step.directives, hlines, directive, text]
  | switch step =>
    have hlines : lines step.directives = _ := SwitchStep.lines_directives h
    simp [lines_cons, Step.directives, hlines, directive, text]

/-- A loop is legible: its variable ends with its line, and the step that it repeats follows. -/
theorem legible_forEach (unmarked : Unmarked requests) :
    Legible [" ", "\n"] ["\n\n# @"]
      (fun both : RequestStep × LoopSpec => (forEach both.1 (some both.2)).Recordable ∧
        (forEach both.1 (some both.2)).Acceptable requests)
      (fun both => text requests (forEach both.1 (some both.2))) := by
  have hvar : Legible [""] ["\n# @step"] (fun var : String => ∀ c ∈ ['\n'], c ∉ var.toList)
      String.toList :=
    legible_until (by decide)
  have hitems : Legible [""] [" as="] (fun _ => True) valueText := legible_quote (by decide)
  have hstep := (RequestStep.legible_text unmarked).marked "\n# @step"
  have hparts := (hitems.pair ((hvar.pair hstep).marked " as=")).marked " items="
  refine legible_bounded (by decide) ((hparts.comap (fun both : RequestStep × LoopSpec =>
    (both.2.items, both.2.var, both.1)) ?_ ?_).congr ?_)
  · rintro ⟨step, spec⟩ ⟨hrecordable, hacceptable⟩
    exact ⟨trivial, by simpa using hrecordable.var step spec rfl, hrecordable.part, hacceptable.1⟩
  · rintro ⟨_, ⟨_, _⟩⟩ ⟨_, ⟨_, _⟩⟩ - - hsame
    cases hsame
    rfl
  · rintro ⟨step, spec⟩ -
    simp [text]

/-- A step is legible: its directive tells its kind, and what follows tells the rest. -/
theorem legible_text (unmarked : Unmarked requests) :
    Legible [""] ["\n\n# @"] (fun step : Step => step.Recordable ∧ step.Acceptable requests)
      (fun step => step.directive.toList ++ step.text requests) := by
  have hdirective : Legible [""] [" ", "\n"]
      (fun text : String => ∀ c ∈ [' ', '\n'], c ∉ text.toList) String.toList :=
    legible_until (by decide)
  refine hdirective.seq (f := Step.directive) (fun step _ => ?_) fun step _ => ?_
  · cases step <;> simp [directive]
  -- the steps with one directive are of one kind, so that they are read as steps of that kind are
  cases step with
  | request step =>
    have htext := legible_bounded (by decide) (RequestStep.legible_text unmarked)
    refine .through Step.request (htext.mono fun part hpart => hpart.1) ?_
    rintro other ⟨-, hkind⟩
    cases other with
    | request part => exact ⟨part, rfl⟩
    | conditional _ | switch _ | forEach _ _ => simp [directive] at hkind
  | forEach step loop =>
    refine .through (fun both : RequestStep × LoopSpec => forEach both.1 (some both.2))
      ((legible_forEach unmarked).mono fun both hboth => hboth.1) ?_
    rintro other ⟨⟨-, hacceptable⟩, hkind⟩
    cases other with
    | forEach part loop =>
      obtain ⟨spec, rfl, -⟩ := hacceptable.2
      exact ⟨(part, spec), rfl⟩
    | request _ | conditional _ | switch _ => simp [directive] at hkind
  | conditional step =>
    have htext := ConditionalStep.legible_text
    refine .through Step.conditional (htext.mono fun part hpart => hpart.1.1) ?_
    rintro other ⟨-, hkind⟩
    cases other with
    | conditional part => exact ⟨part, rfl⟩
    | request _ | switch _ | forEach _ _ => simp [directive] at hkind
  | switch step =>
    have htext := SwitchStep.legible_text
    refine .through Step.switch (htext.mono fun part hpart => hpart.1.1) ?_
    rintro other ⟨-, hkind⟩
    cases other with
    | switch part => exact ⟨part, rfl⟩
    | request _ | conditional _ | forEach _ _ => simp [directive] at hkind

end Step

/-! ## Workflows -/

namespace Workflow

/-- What is asked of a workflow for it to be read back: texts on one line, a description that shows
and has no blanks around it, tags that do not hold the sign between them, and keys and steps as
they have to be. -/
structure Recordable (workflow : Workflow) : Prop where
  name : '\n' ∉ workflow.name.toList
  shown : Shown workflow.description
  description : ∀ text, workflow.description = some text →
    trimmed text = text ∧ '\n' ∉ text.toList
  tags : ∀ tag ∈ workflow.tags, ',' ∉ tag.toList ∧ '\n' ∉ tag.toList
  options : Keyed workflow.options
  steps : ∀ step ∈ workflow.steps, step.Recordable

/-- The policy, unless it goes without saying. -/
def writtenPolicy (policy : Policy) : Option Policy := if policy = .stop then none else some policy

theorem writtenPolicy_injective : Function.Injective writtenPolicy := by
  intro policy other hsame
  cases policy <;> cases other <;> simp_all [writtenPolicy]

/-- A workflow as it is written. -/
def text (requests : RequestIndex) (workflow : Workflow) : List Char :=
  "\n# @workflow ".toList ++ (workflow.name.toList ++
    (each "\n# @description " String.toList workflow.description.toList ++
      (joined "\n# @tags " ", " String.toList workflow.tags ++
        (each "\n# @on-failure " policyText (writtenPolicy workflow.policy).toList ++
          (each "\n# @option " pairText workflow.options.entries ++
            each "\n\n# @" (fun step => step.directive.toList ++ step.text requests)
              workflow.steps)))))

theorem lines_steps {steps : List Step} (hrecordable : ∀ step ∈ steps, step.Recordable)
    (hacceptable : ∀ step ∈ steps, step.Acceptable requests) :
    lines (steps.flatMap fun step => "" :: step.directives requests) =
      each "\n\n# @" (fun step => step.directive.toList ++ step.text requests) steps := by
  induction steps with
  | nil => rfl
  | cons step steps ih =>
    rw [List.forall_mem_cons] at hrecordable hacceptable
    rw [List.flatMap_cons, lines_append, Step.lines_directives hrecordable.1 hacceptable.1,
      ih hrecordable.2 hacceptable.2, each_cons, List.append_assoc]

theorem lines_header {workflow : Workflow} (h : workflow.Recordable) :
    lines workflow.headerDirectives = "\n# @workflow ".toList ++ (workflow.name.toList ++
      (each "\n# @description " String.toList workflow.description.toList ++
        (joined "\n# @tags " ", " String.toList workflow.tags ++
          (each "\n# @on-failure " policyText (writtenPolicy workflow.policy).toList ++
            each "\n# @option " pairText workflow.options.entries)))) := by
  have hdescription : lines ((nonBlank? workflow.description).toList.map fun description =>
      "# @description " ++ trimmed description) =
      each "\n# @description " String.toList workflow.description.toList := by
    rw [h.shown.nonBlank?]
    cases hwritten : workflow.description with
    | none => rfl
    | some text => simp [lines, each, (h.description text hwritten).1]
  have htags : lines (if workflow.tags.isEmpty then []
      else ["# @tags " ++ ", ".intercalate workflow.tags]) =
      joined "\n# @tags " ", " String.toList workflow.tags := by
    split
    · rename_i hempty
      rw [List.isEmpty_iff.1 hempty]
      rfl
    · rename_i hnonempty
      rw [joined_eq_intercalate _ _ _ fun hnil => hnonempty (by simp [hnil])]
      simp [lines, each, String.toList_intercalate]
  have hpolicy : lines (if workflow.policy = .stop then []
      else ["# @on-failure " ++ workflow.policy.text]) =
      each "\n# @on-failure " policyText (writtenPolicy workflow.policy).toList := by
    unfold writtenPolicy
    split
    · rfl
    · simp [lines, each, policyText]
  have hoptions : lines (workflow.options.entries.map fun entry =>
      "# @option " ++ pair entry.1 entry.2) =
      each "\n# @option " pairText workflow.options.entries := by
    simp [lines, each, List.flatMap_map, pairText]
  have hmark : "\n# @workflow ".toList = '\n' :: "# @workflow ".toList := by simp
  unfold headerDirectives
  rw [lines_append, lines_append, lines_append, lines_cons, hdescription, htags, hpolicy, hoptions,
    String.toList_append, hmark]
  simp only [List.append_assoc, List.cons_append]

theorem toList_directives {workflow : Workflow} (h : workflow.Recordable)
    (hsteps : ∀ step ∈ workflow.steps, step.Acceptable requests) :
    '\n' :: (workflow.directives requests).toList = workflow.text requests := by
  have hne : workflow.directiveLines requests ≠ [] := by simp [directiveLines, headerDirectives]
  have hlines : '\n' :: (workflow.directives requests).toList =
      lines (workflow.directiveLines requests) := by
    rw [lines, ← joined_self, joined_eq_intercalate _ _ _ hne, Workflow.directives,
      String.toList_intercalate]
    rfl
  unfold text
  rw [hlines, directiveLines, lines_append, lines_header h, lines_steps h.steps hsteps]
  simp only [List.append_assoc]

/-- A workflow is legible, from its name to its last step. -/
theorem legible_text (unmarked : Unmarked requests) :
    Legible ["\n# @workflow "] [] (fun workflow : Workflow => workflow.Recordable ∧
      ∀ step ∈ workflow.steps, step.Acceptable requests) (text requests) := by
  have hsteps : Legible ["\n\n# @"] [] _ _ := (Step.legible_text unmarked).each (by decide)
  have hoptions : Legible ["\n# @option ", "\n\n# @"] ["\n\n# @"] _ _ :=
    (legible_pair (by decide)).each (by decide)
  have hpolicy : Legible ["\n# @on-failure ", "\n# @option ", "\n\n# @"] _ _ _ :=
    (legible_policy (by decide)).optional (by decide)
  have htag : Legible [""] [", ", "\n# @on-failure ", "\n# @option ", "\n\n# @"]
      (fun tag : String => ∀ c ∈ [',', '\n'], c ∉ tag.toList) String.toList :=
    legible_until (by decide)
  have htags : Legible ["\n# @tags ", "\n# @on-failure ", "\n# @option ", "\n\n# @"] _ _ _ :=
    htag.joined (by decide) (by decide)
  have hdescription : Legible ["\n# @description ", "\n# @tags ", "\n# @on-failure ",
      "\n# @option ", "\n\n# @"] _ _ _ :=
    (@legible_until _ ['\n'] (by decide)).optional (by decide)
  have hname : Legible [""] ["\n# @description ", "\n# @tags ", "\n# @on-failure ",
      "\n# @option ", "\n\n# @"] (fun name : String => ∀ c ∈ ['\n'], c ∉ name.toList)
      String.toList :=
    legible_until (by decide)
  have hparts := (hname.pair (hdescription.pair (htags.pair (hpolicy.pair
    (hoptions.pair hsteps))))).marked "\n# @workflow "
  refine hparts.comap (fun workflow : Workflow => (workflow.name, workflow.description,
    workflow.tags, writtenPolicy workflow.policy, workflow.options.entries, workflow.steps)) ?_ ?_
  · intro workflow ⟨h, hacceptable⟩
    have hsteps : ∀ step ∈ workflow.steps, step.Recordable ∧ step.Acceptable requests :=
      fun step hstep => ⟨h.steps step hstep, hacceptable step hstep⟩
    refine ⟨?_, ?_, ?_, by simp, h.options, hsteps⟩
    · simpa using h.name
    · intro text htext
      simpa using (h.description text htext).2
    · intro tag htag
      simpa using h.tags tag htag
  · rintro ⟨⟩ ⟨⟩ - - hsame
    simp only [Prod.mk.injEq] at hsame
    obtain ⟨rfl, rfl, rfl, hpolicies, hentries, rfl⟩ := hsame
    cases writtenPolicy_injective hpolicies
    cases OrderedMap.ext hentries
    rfl

end Workflow

/-- Two workflows that may run on the same requests have the same directives if and only if they are
equal, with the order of their options, variables and expectations. -/
theorem Workflow.directives_eq_iff (unmarked : Unmarked requests) {first second : Workflow}
    (hfirst : first.validate requests = .ok ()) (hsecond : second.validate requests = .ok ())
    (recordable : first.Recordable) (recordable' : second.Recordable) :
    first.directives requests = second.directives requests ↔ first = second := by
  have hacceptable := (validate_iff.1 hfirst).2
  have hacceptable' := (validate_iff.1 hsecond).2
  refine ⟨fun hsame => ?_, fun hsame => hsame ▸ rfl⟩
  have htext : first.text requests = second.text requests := by
    rw [← toList_directives recordable hacceptable, ← toList_directives recordable' hacceptable',
      hsame]
  exact ((legible_text unmarked).unique ⟨recordable, hacceptable⟩ ⟨recordable', hacceptable'⟩
    (.inl rfl) (.inl rfl) (congrArg (· ++ []) htext)).1

/-- A variable whose value looks like the line of an expectation, and an expectation. -/
theorem Workflow.directives_eq_iff_lookalike :
    let requests : RequestIndex := .ofList [("ping", { name := "ping", url := "http://host" })]
    let step : RequestStep := { target := "ping" }
    let first : Workflow :=
      { name := "deploy"
        steps := [.request { step with vars := .ofList [("a", "1\n# @expect status=200")] }] }
    let second : Workflow :=
      { name := "deploy"
        steps := [.request { step with
          vars := .ofList [("a", "1")], expect := .ofList [("status", "200")] }] }
    first.directives requests ≠ second.directives requests := by
  intro requests step first second hsame
  have unmarked : Unmarked requests := by
    intro name request hfound
    have hrequest : request = { name := "ping", url := "http://host" } := by
      by_cases hname : "ping" = name
      · subst hname
        exact (Option.some.inj hfound).symm
      · simp [requests, OrderedMap.ofList, OrderedMap.insertAll, OrderedMap.insert,
          OrderedMap.put, OrderedMap.get?, OrderedMap.find?, OrderedMap.empty, hname] at hfound
    subst hrequest
    decide
  have hstep (part : RequestStep) (hname : part.name = none) (hvars : Keyed part.vars)
      (hexpect : Keyed part.expect) : (Step.request part).Recordable := by
    refine ⟨?_, hvars, ?_, by simp⟩
    · simp [Shown, Step.writtenName, hname]
    · simpa [Step.requestPart?] using hexpect
  have hdeploy (part : RequestStep) (h : (Step.request part).Recordable) :
      { name := "deploy", steps := [.request part] : Workflow }.Recordable :=
    { name := by simp, shown := by simp [Shown], description := by simp, tags := by simp
      options := by simp [Keyed, OrderedMap.empty], steps := List.forall_mem_singleton.2 h }
  have recordable : first.Recordable := hdeploy _ (hstep _ rfl (by decide) (by decide))
  have recordable' : second.Recordable := hdeploy _ (hstep _ rfl (by decide) (by decide))
  have hequal : first = second :=
    (Workflow.directives_eq_iff unmarked (by decide) (by decide) recordable recordable').1 hsame
  revert hequal
  decide

end RequestFlow
