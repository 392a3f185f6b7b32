import RequestFlow.Proofs.Walk.Basic

/-!
# What replies decide

A reply is classified as a success or a failure, and may end a walk. Nothing else of it comes back:
the variables, the items of loops and the branches are the same whatever the replies. So two walks
that differ in their replies do the same for as long as both go on.

* `Walk.Within`: a walk does what another does, as far as it gets;
* `Plan.within_steps`: so does a walk whose replies fail wherever those of the other fail;
* `Plan.prefix_or_prefix_walk`: of the requests of two walks, those of one come first in the other.
-/

namespace RequestFlow

/-- The reply to a request of a workflow is classified as a success. -/
def Workflow.passes (workflow : Workflow) (dispatch : Dispatch) (reply : Reply) : Bool :=
  (reply.verdict (workflow.steps[dispatch.step]?.bind Step.requestPart?) .elapsed).status ==
    .succeeded

namespace Walk

/-- A walk does what another does, as far as it gets: it is stopped on the way, or both come to the
same end. -/
inductive Within (walk other : Walk) : Prop where
  | stopped (hstopped : walk.stopped = true) (sent : walk.dispatches <+: other.dispatches)
  | through (hgoes : walk.stopped = false) (hother : other.stopped = false)
      (sent : walk.dispatches = other.dispatches) (vars : walk.vars = other.vars)

namespace Within

variable {walk other : Walk}

theorem refl (walk : Walk) : walk.Within walk := by
  cases h : walk.stopped with
  | true => exact .stopped h (List.prefix_refl _)
  | false => exact .through h h rfl rfl

theorem isPrefix (h : walk.Within other) : walk.dispatches <+: other.dispatches := by
  cases h with
  | stopped _ sent => exact sent
  | through _ _ sent => exact sent ▸ List.prefix_refl _

theorem andThen {follow next : Walk → Walk} (h : walk.Within other)
    (hfollow : other.stopped = false → walk.dispatches = other.dispatches →
      walk.vars = other.vars → (follow walk).Within (next other)) :
    (walk.andThen follow).Within (other.andThen next) := by
  cases h with
  | stopped hstopped sent =>
    have hprefix : other.dispatches <+: (other.andThen next).dispatches := by
      unfold Walk.andThen
      split
      · exact List.prefix_refl _
      · exact List.prefix_append _ _
    rw [Walk.andThen, if_pos hstopped]
    exact .stopped hstopped (sent.trans hprefix)
  | through hgoes hother sent vars =>
    have hrest := hfollow hother sent vars
    rw [Walk.andThen, Walk.andThen, hgoes, hother, if_neg Bool.false_ne_true,
      if_neg Bool.false_ne_true, sent]
    cases hrest with
    | stopped hstopped sent =>
      exact .stopped hstopped ((List.prefix_append_right_inj _).2 sent)
    | through hgoes hother sent vars =>
      exact .through hgoes hother (congrArg (other.dispatches ++ ·) sent) vars

end Within

end Walk

namespace Plan

/-- The plan under other replies. -/
def answering (plan : Plan) (reply : Nat → Dispatch → Reply) : Plan := { plan with reply }

/-- Wherever another reply to one of these requests is a success, the reply of the plan is one. -/
def Eases (plan : Plan) (other : Nat → Dispatch → Reply) (sent : Nat) (dispatches : List Dispatch) :
    Prop :=
  ∀ number dispatch, dispatches[number]? = some dispatch →
    plan.workflow.passes dispatch (other (sent + number) dispatch) →
    plan.workflow.passes dispatch (plan.reply (sent + number) dispatch)

variable {plan : Plan} {other : Nat → Dispatch → Reply} {place : Place} {sent : Nat}
  {vars : TextMap}

theorem scope_answering : (plan.answering other).scope = plan.scope := rfl

theorem setting_answering : (plan.answering other).setting = plan.setting := rfl

/-- The replies to the first part of a walk, and to the rest. -/
theorem eases_andThen {walk : Walk} {follow : Walk → Walk}
    (h : plan.Eases other sent (walk.andThen follow).dispatches) :
    plan.Eases other sent walk.dispatches ∧ (walk.stopped = false →
      plan.Eases other (sent + walk.dispatches.length) (follow walk).dispatches) := by
  unfold Walk.andThen at h
  split at h
  · rename_i hstopped
    refine ⟨h, fun hgoes => ?_⟩
    cases hstopped.symm.trans hgoes
  · refine ⟨fun number dispatch hsent => ?_, fun _ number dispatch hsent => ?_⟩
    · have hlt := (List.getElem?_eq_some_iff.1 hsent).1
      exact h number dispatch ((List.getElem?_append_left hlt).trans hsent)
    · rw [Nat.add_assoc]
      refine h (walk.dispatches.length + number) dispatch ?_
      rw [List.getElem?_append_right (Nat.le_add_right _ _), Nat.add_sub_cancel_left]
      exact hsent

/-! ## One result -/

/-- The result that a reply brings stops the walk only if the reply is a failure. -/
theorem stops_answer (request : Request) (reply : Reply) (policy : Policy) :
    (place.answer request reply).stops policy =
      (!((reply.verdict place.step.requestPart? .elapsed).status == .succeeded) &&
        policy == .stop) := by
  have hstatus : (place.answer request reply).status =
    (reply.verdict place.step.requestPart? .elapsed).status := rfl
  rw [Result.stops, hstatus]
  rcases reply.status_verdict place.step.requestPart? .elapsed with hpasses | hfails
  · rw [hpasses]
    rfl
  · rw [hfails]
    rfl

theorem within_answered {layer : TextMap} {request : Request}
    (hstep : plan.workflow.steps[place.index]? = some place.step)
    (h : plan.Eases other sent (plan.answered place sent vars layer request).dispatches) :
    ((plan.answering other).answered place sent vars layer request).Within
      (plan.answered place sent vars layer request) := by
  let dispatch := plan.dispatch place sent vars layer request
  let policy := plan.workflow.policyFor place.step
  have hpasses : ∀ reply : Reply, plan.workflow.passes dispatch reply =
      ((reply.verdict place.step.requestPart? .elapsed).status == .succeeded) := by
    intro reply
    show ((reply.verdict (plan.workflow.steps[place.index]?.bind Step.requestPart?)
      .elapsed).status == .succeeded) = _
    rw [hstep]
    rfl
  have hother : ((plan.answering other).answered place sent vars layer request).stopped =
      (!(plan.workflow.passes dispatch (other sent dispatch)) && policy == .stop) := by
    rw [hpasses]
    exact stops_answer request _ policy
  have hplan : (plan.answered place sent vars layer request).stopped =
      (!(plan.workflow.passes dispatch (plan.reply sent dispatch)) && policy == .stop) := by
    rw [hpasses]
    exact stops_answer request _ policy
  have heases := h 0 dispatch rfl
  cases hstopped : ((plan.answering other).answered place sent vars layer request).stopped with
  | true => exact .stopped hstopped (List.prefix_refl _)
  | false =>
    refine .through hstopped ?_ rfl rfl
    rw [hplan]
    rw [hother] at hstopped
    cases hpolicy : policy == .stop with
    | false => rw [Bool.and_false]
    | true =>
      have hgood : plan.workflow.passes dispatch (other sent dispatch) = true := by
        simpa [hpolicy] using hstopped
      have hbetter : plan.workflow.passes dispatch (plan.reply sent dispatch) = true := heases hgood
      rw [hbetter]
      rfl

theorem within_send {request : Request} {stepVars : TextMap}
    (hstep : plan.workflow.steps[place.index]? = some place.step)
    (h : plan.Eases other sent (plan.send place sent vars request stepVars).dispatches) :
    ((plan.answering other).send place sent vars request stepVars).Within
      (plan.send place sent vars request stepVars) := by
  unfold send at h ⊢
  rw [scope_answering]
  cases hlayer :
      Template.renderMap (plan.scope vars (some request) .empty place.loopVars) stepVars with
  | error e => exact .refl _
  | ok layer =>
    rw [hlayer] at h
    exact within_answered hstep h

theorem within_guarded {request : Request} {part : RequestStep}
    (hstep : plan.workflow.steps[place.index]? = some place.step)
    (h : plan.Eases other sent (plan.guarded place sent vars request part).dispatches) :
    ((plan.answering other).guarded place sent vars request part).Within
      (plan.guarded place sent vars request part) := by
  unfold guarded at h ⊢
  rw [scope_answering, setting_answering]
  cases hguard : part.guard with
  | none =>
    rw [hguard] at h
    exact within_send hstep h
  | some guard =>
    rw [hguard] at h
    dsimp only at h ⊢
    cases hholds : plan.setting.evaluator.condition guard
        (plan.scope vars (some request) .empty place.loopVars) with
    | error e => exact .refl _
    | ok holds =>
      rw [hholds] at h
      cases holds with
      | true => exact within_send hstep h
      | false => exact .refl _

/-! ## Loops and steps -/

theorem within_items {request : Request} {part : RequestStep} {var : String} {total iteration : Nat}
    (hstep : plan.workflow.steps[place.index]? = some place.step) (rest : List String)
    (h : plan.Eases other sent
      (plan.items place request part var total iteration sent vars rest).dispatches) :
    ((plan.answering other).items place request part var total iteration sent vars rest).Within
      (plan.items place request part var total iteration sent vars rest) := by
  induction rest generalizing iteration sent vars with
  | nil => exact .refl _
  | cons item rest ih =>
    rw [items] at h
    obtain ⟨hfirst, hrest⟩ := eases_andThen h
    rw [items, items]
    refine Walk.Within.andThen (within_guarded hstep hfirst) fun hgoes hsent hvars => ?_
    rw [hsent, hvars]
    exact ih (hrest hgoes)

theorem within_loop {request : Request} {part : RequestStep} {spec : LoopSpec}
    (hstep : plan.workflow.steps[place.index]? = some place.step)
    (h : plan.Eases other sent (plan.loop place sent vars request part spec).dispatches) :
    ((plan.answering other).loop place sent vars request part spec).Within
      (plan.loop place sent vars request part spec) := by
  unfold loop at h ⊢
  rw [scope_answering, setting_answering]
  cases hitems : (plan.setting.evaluator spec.items
      (plan.scope vars (some request) .empty .empty)).bind Json.items with
  | error e => exact .refl _
  | ok items =>
    rw [hitems] at h
    cases items with
    | nil => exact .refl _
    | cons item rest => exact within_items hstep (item :: rest) h

theorem within_request {part : RequestStep} {own : Option LoopSpec}
    (hstep : plan.workflow.steps[place.index]? = some place.step)
    (h : plan.Eases other sent (plan.request place sent vars part own).dispatches) :
    ((plan.answering other).request place sent vars part own).Within
      (plan.request place sent vars part own) := by
  unfold Plan.request at h ⊢
  rw [setting_answering]
  cases hknown : plan.setting.requests.get? part.targetName with
  | none => exact .refl _
  | some request =>
    rw [hknown] at h
    dsimp only at h ⊢
    cases hspec : own.or request.loop with
    | none =>
      rw [hspec] at h
      exact within_guarded hstep h
    | some spec =>
      rw [hspec] at h
      exact within_loop hstep h

theorem within_action {label : String} {action : Action} {stepVars : TextMap}
    (hstep : plan.workflow.steps[place.index]? = some place.step)
    (h : plan.Eases other sent (plan.action place sent vars label action stepVars).dispatches) :
    ((plan.answering other).action place sent vars label action stepVars).Within
      (plan.action place sent vars label action stepVars) := by
  unfold Plan.action at h ⊢
  rw [setting_answering]
  cases hmeaning : action.meaning with
  | fail message => exact .refl _
  | nothing => exact .refl _
  | run target =>
    rw [hmeaning] at h
    dsimp only at h ⊢
    cases hknown : plan.setting.requests.get? target with
    | none => exact .refl _
    | some request =>
      rw [hknown] at h
      exact within_send hstep h

theorem within_choice {stepVars : TextMap} {missed : String} {choice : Choice}
    (hstep : plan.workflow.steps[place.index]? = some place.step)
    (h : plan.Eases other sent (plan.choice place sent vars stepVars missed choice).dispatches) :
    ((plan.answering other).choice place sent vars stepVars missed choice).Within
      (plan.choice place sent vars stepVars missed choice) := by
  cases choice with
  | failed message => exact .refl _
  | nothing => exact .refl _
  | branch label action =>
    have hplace : plan.workflow.steps[({ place with branch := some label } : Place).index]? =
        some place.step := hstep
    exact within_action hplace h

theorem within_step (hstep : plan.workflow.steps[place.index]? = some place.step)
    (h : plan.Eases other sent (plan.step place sent vars).dispatches) :
    ((plan.answering other).step place sent vars).Within (plan.step place sent vars) := by
  unfold Plan.step at h ⊢
  cases hcase : place.step with
  | request part =>
    rw [hcase] at h
    exact within_request hstep h
  | forEach part own =>
    rw [hcase] at h
    exact within_request hstep h
  | conditional step =>
    rw [hcase] at h
    exact within_choice hstep h
  | switch step =>
    rw [hcase] at h
    exact within_choice hstep h

theorem within_steps {index : Nat} (rest : List Step)
    (hrest : plan.workflow.steps.drop index = rest)
    (h : plan.Eases other sent (plan.steps index sent vars rest).dispatches) :
    ((plan.answering other).steps index sent vars rest).Within
      (plan.steps index sent vars rest) := by
  induction rest generalizing index sent vars with
  | nil => exact .refl _
  | cons step rest ih =>
    obtain ⟨hstep, hdrop⟩ := next_of_drop hrest
    rw [steps] at h
    obtain ⟨hfirst, hlater⟩ := eases_andThen h
    rw [steps, steps]
    refine Walk.Within.andThen (within_step hstep hfirst) fun hgoes hsent hvars => ?_
    rw [hsent, hvars]
    exact ih hdrop (hlater hgoes)

/-! ## The whole walk -/

/-- A walk sends no more than one whose replies are successes wherever its own are. -/
theorem prefix_walk (h : plan.Eases other 0 plan.walk.dispatches) :
    (plan.answering other).walk.dispatches <+: plan.walk.dispatches :=
  (within_steps plan.workflow.steps List.drop_zero h).isPrefix

/-- The better of two replies to each request. -/
def best (workflow : Workflow) (first second : Nat → Dispatch → Reply) (number : Nat)
    (dispatch : Dispatch) : Reply :=
  if workflow.passes dispatch (first number dispatch) then first number dispatch
  else second number dispatch

theorem passes_best {workflow : Workflow} {first second : Nat → Dispatch → Reply} {number : Nat}
    {dispatch : Dispatch}
    (h : workflow.passes dispatch (first number dispatch) ∨
      workflow.passes dispatch (second number dispatch)) :
    workflow.passes dispatch (best workflow first second number dispatch) := by
  unfold best
  split
  · rename_i hfirst
    exact hfirst
  · rename_i hfirst
    exact h.resolve_left hfirst

/-- Of two walks that differ in their replies, one begins with the requests of the other. -/
theorem prefix_or_prefix_walk (plan : Plan) (first second : Nat → Dispatch → Reply) :
    (plan.answering first).walk.dispatches <+: (plan.answering second).walk.dispatches ∨
      (plan.answering second).walk.dispatches <+: (plan.answering first).walk.dispatches := by
  let both := plan.answering (best plan.workflow first second)
  have hfirst : both.Eases first 0 both.walk.dispatches :=
    fun _ _ _ hpasses => passes_best (.inl hpasses)
  have hsecond : both.Eases second 0 both.walk.dispatches :=
    fun _ _ _ hpasses => passes_best (.inr hpasses)
  have hone := prefix_walk hfirst
  have htwo := prefix_walk hsecond
  exact List.prefix_or_prefix_of_prefix hone htwo

end Plan

end RequestFlow
