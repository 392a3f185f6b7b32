import RequestFlow.Proofs.Walk.Replies

/-!
# Items that do not touch each other

Where a run keeps no items, the step of a loop has neither a guard nor variables, and a failure lets
the run go on, one item has nothing to do with another. The walk over the items then sends one
request for each, in order, with the item over what was in scope before the loop, and has one result
for each. The replies come up in the results only.

* `Plan.Separates`: a plan and a step for which that is so;
* `Place.item`, `Plan.itemDispatch`, `Plan.itemResult`: the place of an item, its request and its
  result, by the number of the item;
* `Plan.guarded_of_separates`: the walk over one item;
* `Plan.items_of_separates`: the walk over all of them;
* `Plan.step_of_items`: the walk over a step that loops over them.
-/

namespace RequestFlow

/-- The place of the item with a number, counted from zero, at a step that loops. -/
def Place.item (place : Place) (var : String) (total number : Nat) (item : String) : Place :=
  { place with
    position := ⟨number + 1, total⟩
    loopVars := OrderedMap.empty.insert var item }

namespace Plan

/-- Nothing of an item of the step is left for the next one: the item is not kept, nothing stands
between it and its request, and no reply ends the walk. -/
structure Separates (plan : Plan) (step : Step) (part : RequestStep) : Prop where
  forgets : plan.origin ≠ .workflow
  unguarded : part.guard = none
  bare : part.vars = .empty
  proceeds : plan.workflow.policyFor step = .proceed

/-- The request of the item with a number, where `sent` requests went out before the loop. -/
def itemDispatch (plan : Plan) (place : Place) (sent : Nat) (vars : TextMap) (request : Request)
    (var : String) (total number : Nat) (item : String) : Dispatch :=
  plan.dispatch (place.item var total number item) (sent + number) vars .empty request

/-- The result of the item with a number. -/
def itemResult (plan : Plan) (place : Place) (sent : Nat) (vars : TextMap) (request : Request)
    (var : String) (total number : Nat) (item : String) : Result :=
  (place.item var total number item).answer request
    (plan.reply (sent + number)
      (plan.itemDispatch place sent vars request var total number item))

variable {plan : Plan} {place : Place} {part : RequestStep} {sent : Nat} {vars : TextMap}
  {request : Request}

/-- The walk over one item. -/
theorem guarded_of_separates (h : plan.Separates place.step part) :
    plan.guarded place sent vars request part =
      { dispatches := [plan.dispatch place sent vars .empty request]
        results := [place.answer request
          (plan.reply sent (plan.dispatch place sent vars .empty request))]
        vars } := by
  have hgoes (reply : Reply) :
      (place.answer request reply).stops (plan.workflow.policyFor place.step) = false := by
    rw [h.proceeds, stops_answer]
    exact Bool.and_false _
  have hlayer : Template.renderMap (plan.scope vars (some request) .empty place.loopVars)
      .empty = .ok .empty := rfl
  have hvars : vars.overlay .empty = vars := rfl
  simp only [guarded, h.unguarded, send, h.bare, hlayer, hvars, answered, settle, hgoes]

/-- The walk over the items that are left: `done` of them are behind it. -/
theorem items_from_of_separates (h : plan.Separates place.step part) (var : String)
    (total done : Nat) (rest : List String) :
    plan.items place request part var total (done + 1) (sent + done) vars rest =
      { dispatches := rest.mapIdx fun number =>
          plan.itemDispatch place sent vars request var total (done + number)
        results := rest.mapIdx fun number =>
          plan.itemResult place sent vars request var total (done + number)
        vars } := by
  -- On the items that are left; their numbers go on from those behind them.
  induction rest generalizing done with
  | nil => rfl
  | cons item rest ih =>
    have hnumber (number : Nat) : done + 1 + number = done + (number + 1) := by omega
    have hfirst : plan.guarded (place.item var total done item) (sent + done) vars request part =
        { dispatches := [plan.itemDispatch place sent vars request var total done item]
          results := [plan.itemResult place sent vars request var total done item]
          vars } := guarded_of_separates h
    have hrest := ih (done + 1)
    simp only [hnumber] at hrest
    rw [items, if_neg h.forgets]
    show (plan.guarded (place.item var total done item) (sent + done) vars request part).andThen _ =
      _
    rw [hfirst, Walk.andThen, if_neg Bool.false_ne_true]
    simp only [List.length_singleton, Nat.add_assoc, hrest, List.mapIdx_cons, Nat.add_zero,
      List.singleton_append]

/-- The walk over the items of a loop sends a request for each and has a result for each, in their
order; neither the replies nor the items before make a difference to the requests. -/
theorem items_of_separates (h : plan.Separates place.step part) (var : String)
    (items : List String) :
    plan.items place request part var items.length 1 sent vars items =
      { dispatches := items.mapIdx (plan.itemDispatch place sent vars request var items.length)
        results := items.mapIdx (plan.itemResult place sent vars request var items.length)
        vars } := by
  have hall : plan.items place request part var items.length (0 + 1) (sent + 0) vars items = _ :=
    items_from_of_separates h var items.length 0 items
  simp only [Nat.zero_add] at hall
  exact hall

/-- A step that loops over items that there are comes to the walk over them. -/
theorem step_of_items {own : Option LoopSpec} {spec : LoopSpec} {items : List String}
    (hstep : place.step = .forEach part own)
    (hknown : plan.setting.requests.get? part.targetName = some request)
    (hspec : own.or request.loop = some spec)
    (hitems : (plan.setting.evaluator spec.items
      (plan.scope vars (some request) .empty .empty)).bind Json.items = .ok items)
    (hsome : items ≠ []) :
    plan.step place sent vars =
      plan.items place request part (Text.trimmed spec.var) items.length 1 sent vars items := by
  have hrequest : plan.request place sent vars part own =
      plan.loop place sent vars request part spec := by
    simp only [Plan.request, hknown, hspec]
  rw [step, hstep]
  show plan.request place sent vars part own = _
  rw [hrequest, loop, hitems]
  cases items with
  | nil => exact (hsome rfl).elim
  | cons item rest => rfl

end Plan

end RequestFlow
