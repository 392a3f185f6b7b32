import RequestFlow.Proofs.Run.Course
import RequestFlow.Proofs.Variables

/-!
# The variables of a run

Two things add to the variables of a run: an item of a loop that is begun, in a run that came about
by the name of a workflow, and a request that goes out with the variables of its step. Nothing else
does. What a round of a run writes can therefore be told before and after it, and the variables of
a run are those it was started with and what has been written since.

* `Attempt.Through`: what trying a step comes to, with the sending of its request left as it is;
* `Run.Enters`, `Run.enters_round`: what a round tries, and with which variables;
* `Run.writes`: what a round writes;
* `Run.vars_round`, `Run.vars_course`, `Run.vars_advance`: the variables after what has been
  written;
* `Run.sends_round`: the values of all names in a request that goes out;
* `Run.attemptSend_of_unfilled`: what comes of a step whose variables cannot be filled in.
-/

namespace RequestFlow

/-- What trying a step comes to, where the variables of the step are `texts` and the loop adds
`loopVars`: an early result, a loop, or an attempt to send a request of the index. -/
inductive Attempt.Through (setting : Setting) (token : Nat) (texts loopVars : TextMap)
    (position : Position) (run : Run) : Attempt → Prop where
  | early (branch : Option String) (result : Result) :
      Through setting token texts loopVars position run (.settled { run with branch } result)
  | looping {loop : Loop} (binds : loop.binds = (run.origin == .workflow)) :
      Through setting token texts loopVars position run (.looping { run with loop := some loop })
  | sends (branch : Option String) {key : String} {request : Request}
      (known : setting.requests.get? key = some request) :
      Through setting token texts loopVars position run
        (Run.attemptSend { run with branch } setting token request texts loopVars position)

/-- The variables of a step with a request part are those of that part. -/
theorem Step.vars_of_requestPart {step : Step} {part : RequestStep}
    (h : step.requestPart? = some part) : step.vars = part.vars := by
  cases step <;> cases h <;> rfl

namespace Run

variable {setting : Setting} {token : Nat} {texts loopVars : TextMap} {position : Position}
  {run : Run}

/-! ## Trying a step -/

theorem through_early (result : Result) :
    (Attempt.settled run result).Through setting token texts loopVars position run :=
  .early run.branch result

theorem through_guarded {key : String} {request : Request} {part : RequestStep}
    (known : setting.requests.get? key = some request) :
    (run.attemptGuarded setting token request part loopVars position).Through setting token
      part.vars loopVars position run := by
  unfold attemptGuarded
  split
  · exact through_early _
  · exact .sends run.branch known

theorem through_loop (request : Request) (spec : LoopSpec) :
    (run.attemptLoop setting request spec).Through setting token texts .empty .none run := by
  unfold attemptLoop
  split
  · exact through_early _
  · exact through_early _
  · exact .looping rfl

theorem through_request (part : RequestStep) (loop : Option LoopSpec) :
    (run.attemptRequest setting token part loop).Through setting token part.vars .empty .none
      run := by
  unfold attemptRequest
  split
  · exact through_early _
  · rename_i request hrequest
    split
    · exact through_loop request _
    · exact through_guarded hrequest

theorem through_choice (missed : String) (choice : Choice) :
    (run.attemptChoice setting token texts missed choice).Through setting token texts .empty .none
      run := by
  cases choice with
  | failed => exact through_early _
  | nothing => exact through_early _
  | branch label action =>
    simp only [attemptChoice, attemptAction]
    split
    · exact .early (some label) _
    · exact .early (some label) _
    · split
      · exact .early (some label) _
      · rename_i request hrequest
        exact .sends (some label) hrequest

theorem through_attempt (step : Step) :
    (run.attempt setting token step).Through setting token step.vars .empty .none run := by
  cases step with
  | request => exact through_request _ _
  | forEach => exact through_request _ _
  | conditional => exact through_choice _ _
  | switch => exact through_choice _ _

theorem through_attemptItem (part : RequestStep) :
    (run.attemptItem setting token part loopVars position).Through setting token part.vars loopVars
      position run := by
  unfold attemptItem
  split
  · exact through_early _
  · rename_i request hrequest
    exact through_guarded hrequest

/-! ## Sending a request -/

/-- A step whose variables cannot all be filled in fails, and the run stays as it is. -/
theorem attemptSend_of_unfilled {request : Request} {name text : String}
    (htext : texts.get? name = some text)
    (h : ∀ value, Template.render (run.scope setting (some request) .empty loopVars) text ≠
      .ok value) :
    ∃ result, run.attemptSend setting token request texts loopVars position =
        .settled run result ∧ result.status = .failed ∧ result.Early run position := by
  cases hlayer : Template.renderMap (run.scope setting (some request) .empty loopVars) texts with
  | ok layer =>
    obtain ⟨value, hvalue, -⟩ := (Template.fills_of_renderMap hlayer).rendered name text htext
    exact (h value hvalue).elim
  | error e =>
    simp only [attemptSend, send, hlayer]
    exact ⟨_, rfl, rfl, early_named (early_failure ..) _⟩

/-- A result is recorded once, and touches neither the variables nor the request that is out. -/
theorem round_settled (run : Run) (result : Result) :
    let round := (Attempt.settled run result).round goOn
    round.dispatch? = none ∧ round.run.results = run.results ++ [result] ∧
      round.run.vars = run.vars ∧ round.run.pending = run.pending := by
  simp only [Attempt.round, settle]
  split
  · exact ⟨rfl, rfl, rfl, rfl⟩
  · unfold goOn
    split <;> exact ⟨rfl, rfl, rfl, rfl⟩

/-- What trying a step does with variables: if no request goes out, nothing; else those of the step
are filled in. -/
inductive Carries (run : Run) (setting : Setting) (texts loopVars : TextMap) : Round → Prop where
  | silent {round : Round} (quiet : round.dispatch? = none) (vars : round.run.vars = run.vars)
      (pending : round.run.pending = run.pending) : Carries run setting texts loopVars round
  | sent {sent : Run} {dispatch : Dispatch} {notices : List Notice} {key : String}
      {layer : TextMap} (known : setting.requests.get? key = some dispatch.request)
      (filled : Template.renderMap
        (run.scope setting (some dispatch.request) .empty loopVars) texts = .ok layer)
      (vars : sent.vars = run.vars.overlay layer)
      (scope : dispatch.vars = sent.scope setting (some dispatch.request) layer loopVars)
      (same : sent.basis = run.basis) (environment : dispatch.environment = run.environment) :
      Carries run setting texts loopVars (.sent sent dispatch notices)

theorem carries_attempt {attempt : Attempt}
    (tried : attempt.Through setting token texts loopVars position run) :
    run.Carries setting texts loopVars (attempt.round goOn) := by
  cases tried with
  | early branch result =>
    obtain ⟨hquiet, -, hvars, hpending⟩ := round_settled { run with branch } result
    exact .silent hquiet hvars hpending
  | looping => exact .silent rfl rfl rfl
  | @sends branch key request known =>
    cases hlayer : Template.renderMap
        (Run.scope { run with branch } setting (some request) .empty loopVars) texts with
    | ok layer =>
      simp only [attemptSend, send, hlayer]
      exact .sent known hlayer rfl rfl rfl rfl
    | error e =>
      simp only [attemptSend, send, hlayer]
      obtain ⟨hquiet, -, hvars, hpending⟩ := round_settled { run with branch } _
      exact .silent hquiet hvars hpending

/-! ## Entering a round -/

/-- The loop of the run, if any, keeps its items among the variables if and only if the run came
about by the name of a workflow. -/
def Binds (run : Run) : Prop :=
  ∀ loop, run.loop = some loop → loop.binds = (run.origin == .workflow)

/-- The variable of the loop and the item that a round of the run begins, if it begins one. -/
def begins? (run : Run) : Option (String × String) :=
  if run.isCanceled then none
  else run.loop.bind fun loop => loop.items[loop.cursor]?.map fun item => (loop.var, item)

/-- What the loop adds to the variables of the round. -/
def itemLayer (run : Run) : TextMap :=
  match run.begins? with
  | none => .empty
  | some (var, item) => OrderedMap.empty.insert var item

/-- The variables of the run once the item has been begun. -/
def itemVars (run : Run) : TextMap :=
  match run.begins? with
  | none => run.vars
  | some (var, item) => if run.origin = .workflow then run.vars.insert var item else run.vars

/-- The variables of the step under way, as the author wrote them. -/
def stepTexts (run : Run) : TextMap :=
  match run.step? with
  | some (.request step) => step.vars
  | some (.conditional step) => step.vars
  | some (.switch step) => step.vars
  | some (.forEach step _) => step.vars
  | none => .empty

theorem stepTexts_of_step {step : Step} (h : run.step? = some step) :
    run.stepTexts = step.vars := by
  rw [stepTexts, h]
  cases step <;> rfl

/-- What a round tries: nothing, or the step under way with the variables of the run once the item
has been begun. -/
inductive Enters (run : Run) (setting : Setting) (token : Nat) : Round → Prop where
  | passes {round : Round} (quiet : round.dispatch? = none) (vars : round.run.vars = run.itemVars)
      (pending : round.run.pending = run.pending) (binds : round.run.Binds) :
      Enters run setting token round
  | tries {entered : Run} {attempt : Attempt} {position : Position}
      (vars : entered.vars = run.itemVars) (pending : entered.pending = run.pending)
      (same : entered.basis = run.basis) (binds : entered.Binds)
      (tried : attempt.Through setting token run.stepTexts run.itemLayer position entered) :
      Enters run setting token (attempt.round goOn)

theorem itemVars_of_none (h : run.begins? = none) : run.itemVars = run.vars := by
  rw [itemVars, h]

theorem itemLayer_of_none (h : run.begins? = none) : run.itemLayer = .empty := by
  rw [itemLayer, h]

theorem enters_round (h : run.Binds) : run.Enters setting token (run.round setting token) := by
  cases hcanceled : run.isCanceled with
  | true =>
    have hbegins : run.begins? = none := by rw [begins?, if_pos hcanceled]
    rw [round_of_canceled hcanceled]
    exact .passes rfl (itemVars_of_none hbegins).symm rfl h
  | false =>
    have hbegins : run.begins? = run.loop.bind fun loop =>
        loop.items[loop.cursor]?.map fun item => (loop.var, item) := by
      rw [begins?, hcanceled, if_neg Bool.false_ne_true]
    have hvars {loop : Loop} {item : String} (hloop : run.loop = some loop)
        (hbegins : run.begins? = some (loop.var, item)) :
        (run.beginItem loop item).vars = run.itemVars := by
      rw [itemVars, hbegins, beginItem, h loop hloop]
      cases run.origin <;> rfl
    refine round_cases hcanceled (fun hloop _ => ?_) (fun step hloop hstep => ?_)
      (fun loop hloop hitem => ?_) (fun loop item hloop hitem _ => ?_)
      fun loop item part hloop hitem hpart => ?_
    · rw [hloop, Option.bind_none] at hbegins
      exact .passes rfl (itemVars_of_none hbegins).symm rfl h
    · rw [hloop, Option.bind_none] at hbegins
      have tried : (attempt { run with branch := none } setting token step).Through setting token
          run.stepTexts run.itemLayer .none { run with branch := none } := by
        rw [itemLayer_of_none hbegins, stepTexts_of_step hstep]
        exact through_attempt step
      exact @Enters.tries run setting token { run with branch := none } _ .none
        (itemVars_of_none hbegins).symm rfl rfl h tried
    · rw [hloop, Option.bind_some, hitem, Option.map_none] at hbegins
      exact .passes rfl (itemVars_of_none hbegins).symm rfl (by rintro _ ⟨⟩)
    · rw [hloop, Option.bind_some, hitem, Option.map_some] at hbegins
      exact .passes rfl (hvars hloop hbegins) rfl (by rintro _ ⟨⟩)
    · rw [hloop, Option.bind_some, hitem, Option.map_some] at hbegins
      obtain ⟨step, hstep, hsome⟩ := Option.bind_eq_some_iff.1 hpart
      have hbinds : (run.beginItem loop item).Binds := by
        rintro _ ⟨⟩
        exact h loop hloop
      have tried : ((run.beginItem loop item).attemptItem setting token part
          (OrderedMap.empty.insert loop.var item) ⟨loop.cursor + 1, loop.total⟩).Through
            setting token run.stepTexts run.itemLayer ⟨loop.cursor + 1, loop.total⟩
              (run.beginItem loop item) := by
        rw [itemLayer, hbegins, stepTexts_of_step hstep, Step.vars_of_requestPart hsome]
        exact through_attemptItem part
      exact .tries (hvars hloop hbegins) rfl rfl hbinds tried

/-! ## What a round does with variables -/

/-- What is in scope in a round, with these variables of the run and these of the step. -/
def scopeWith (run : Run) (setting : Setting) (request : Request) (vars step : TextMap) : TextMap :=
  Layers.merge {
    document := setting.vars
    request := request.vars
    environment := run.environmentVars
    workflow := vars
    step
    loop := run.itemLayer }

/-- What the variables of the step are filled in with: everything in scope but themselves. -/
def baseScope (run : Run) (setting : Setting) (request : Request) : TextMap :=
  run.scopeWith setting request run.itemVars .empty

/-- What a round does with variables. Without a request it only begins an item; with one, the
variables of the step are filled in, become variables of the run and go out with the request. -/
inductive Flows (run : Run) (setting : Setting) : Round → Prop where
  | silent {round : Round} (quiet : round.dispatch? = none) (vars : round.run.vars = run.itemVars)
      (pending : round.run.pending = run.pending) : Flows run setting round
  | sent {sent : Run} {dispatch : Dispatch} {notices : List Notice} {key : String}
      {layer : TextMap} (known : setting.requests.get? key = some dispatch.request)
      (filled : Template.renderMap (run.baseScope setting dispatch.request) run.stepTexts =
        .ok layer)
      (vars : sent.vars = run.itemVars.overlay layer)
      (scope : dispatch.vars =
        run.scopeWith setting dispatch.request (run.itemVars.overlay layer) layer)
      (environment : dispatch.environment = run.environment) :
      Flows run setting (.sent sent dispatch notices)

theorem scope_of_basis {other : Run} (same : other.basis = run.basis) (request : Request)
    (step : TextMap) :
    other.scope setting (some request) step run.itemLayer =
      run.scopeWith setting request other.vars step := by
  simp only [basis, Prod.mk.injEq] at same
  simp only [scope, scopeWith, same.2.2.2, Option.map_some, Option.getD_some]

theorem flows_round (h : run.Binds) : run.Flows setting (run.round setting token) := by
  have henters : run.Enters setting token (run.round setting token) := enters_round h
  generalize run.round setting token = round at henters
  cases henters with
  | passes quiet vars pending => exact .silent quiet vars pending
  | tries hvars hpending hsame _ tried =>
    have hcarries := carries_attempt tried
    generalize Attempt.round goOn _ = round at hcarries
    cases hcarries with
    | silent quiet vars pending => exact .silent quiet (vars.trans hvars) (pending.trans hpending)
    | sent known filled vars scope same environment =>
      rw [scope_of_basis hsame, hvars] at filled
      rw [hvars] at vars
      rw [scope_of_basis (same.trans hsame), vars] at scope
      exact .sent known filled vars scope
        (environment.trans (congrArg (fun basis => basis.2.2.1) hsame))

/-! ## Loops that bind -/

theorem binds_goOn (h : run.Binds) : run.goOn.Binds := by
  unfold goOn
  split <;> exact h

theorem binds_settled (h : run.Binds) (result : Result) :
    ((Attempt.settled run result).round goOn).run.Binds :=
  settled_induction (P := Binds) h binds_goOn

theorem binds_attempt {attempt : Attempt} (h : run.Binds)
    (tried : attempt.Through setting token texts loopVars position run) :
    (attempt.round goOn).run.Binds := by
  cases tried with
  | early branch result =>
    have hbranch : Binds { run with branch } := h
    exact binds_settled hbranch result
  | looping binds =>
    rintro _ ⟨⟩
    exact binds
  | @sends branch key request known =>
    have hbranch : Binds { run with branch } := h
    simp only [attemptSend]
    split
    · rename_i sent dispatch hsent
      unfold send at hsent
      split at hsent <;> cases hsent
      exact h
    · exact binds_settled hbranch _

/-- A loop binds as the origin of its run says. -/
theorem binds_round (h : run.Binds) : (run.round setting token).run.Binds := by
  have henters : run.Enters setting token (run.round setting token) := enters_round h
  generalize run.round setting token = round at henters
  cases henters with
  | passes _ _ _ binds => exact binds
  | tries _ _ _ binds tried => exact binds_attempt binds tried

end Run

/-! ## What is written -/

/-- What adds to the variables of a run. -/
inductive Write where
  /-- An item of a loop has been begun. -/
  | item (var value : String)
  /-- A request has gone out with the variables of its step. -/
  | request (dispatch : Dispatch) (layer : TextMap)

/-- The variables that are written, in order. The item of a loop is kept where the run came about by
the name of a workflow. -/
def Write.pairs (origin : Origin) : Write → List (String × String)
  | item var value => if origin = .workflow then [(var, value)] else []
  | request _ layer => layer.entries

/-- The request that has gone out. -/
def Write.dispatch? : Write → Option Dispatch
  | item _ _ => none
  | request dispatch _ => some dispatch

namespace Run

variable {setting : Setting} {token : Nat} {run : Run}

/-- The variables of the step under way, filled in for a request. -/
def stepLayer (run : Run) (setting : Setting) (request : Request) : TextMap :=
  match Template.renderMap (run.baseScope setting request) run.stepTexts with
  | .ok layer => layer
  | .error _ => .empty

/-- What a round of the run writes: the item that it begins, and the request that it sends. -/
def writes (run : Run) (setting : Setting) (round : Round) : List Write :=
  (run.begins?.map fun begun => Write.item begun.1 begun.2).toList ++
    (round.dispatch?.map fun dispatch =>
      Write.request dispatch (run.stepLayer setting dispatch.request)).toList

/-- The variables of the run after something has been written. -/
def written (run : Run) (writes : List Write) : TextMap :=
  run.vars.insertAll (writes.flatMap (Write.pairs run.origin))

theorem stepLayer_of_filled {request : Request} {layer : TextMap}
    (h : Template.renderMap (run.baseScope setting request) run.stepTexts = .ok layer) :
    run.stepLayer setting request = layer := by
  rw [stepLayer, h]

/-- Beginning an item writes it. -/
theorem itemVars_eq (run : Run) :
    run.itemVars =
      run.written (run.begins?.map fun begun => Write.item begun.1 begun.2).toList := by
  unfold itemVars written
  cases run.begins? with
  | none => rfl
  | some begun =>
    simp only [Option.map_some, Option.toList_some, List.flatMap_cons, List.flatMap_nil,
      List.append_nil, Write.pairs]
    split <;> rfl

/-- The variables of a run after a round are those before, with what the round writes. -/
theorem vars_round (h : run.Binds) :
    (run.round setting token).run.vars =
      run.written (run.writes setting (run.round setting token)) := by
  have hflows : run.Flows setting (run.round setting token) := flows_round h
  generalize run.round setting token = round at hflows
  cases hflows with
  | silent quiet vars =>
    rw [writes, quiet, Option.map_none, Option.toList_none, List.append_nil, ← itemVars_eq]
    exact vars
  | @sent sent dispatch notices key layer known filled vars =>
    show sent.vars = _
    rw [vars, itemVars_eq, writes, written, written, List.flatMap_append,
      OrderedMap.insertAll_append]
    simp only [Round.dispatch?, Option.map_some, Option.toList_some, stepLayer_of_filled filled,
      List.flatMap_cons, List.flatMap_nil, List.append_nil]
    rfl

/-- What has been written first and what has been written then. -/
theorem written_append {later : Run} {first : List Write} (h : later.vars = run.written first)
    (same : later.basis = run.basis) (second : List Write) :
    later.written second = run.written (first ++ second) := by
  have horigin : later.origin = run.origin := congrArg (fun basis => basis.2.1) same
  rw [written, h, horigin, written, written, List.flatMap_append, OrderedMap.insertAll_append]

/-- What some rounds of a course write, in order. -/
def courseWrites (setting : Setting) (course : List (Run × Round)) : List Write :=
  course.flatMap fun taken => taken.1.writes setting taken.2

/-- The requests that are written are those that the rounds send. -/
theorem dispatches_courseWrites (course : List (Run × Round)) :
    (courseWrites setting course).filterMap Write.dispatch? =
      course.filterMap fun taken => taken.2.dispatch? := by
  induction course with
  | nil => rfl
  | cons taken rest ih =>
    have hwrites : (taken.1.writes setting taken.2).filterMap Write.dispatch? =
        taken.2.dispatch?.toList := by
      rw [writes, List.filterMap_append]
      cases taken.1.begins? <;> cases taken.2.dispatch? <;> rfl
    rw [courseWrites, List.flatMap_cons, List.filterMap_append, hwrites, List.filterMap_cons]
    rw [courseWrites] at ih
    rw [ih]
    cases taken.2.dispatch? <;> rfl

/-- Before each round of a course the variables are those that were written in the rounds before. -/
theorem vars_course (h : run.Binds) {before after : List (Run × Round)} {taken : Run × Round}
    (hcourse : run.course setting token = before ++ taken :: after) :
    taken.1.vars = run.written (courseWrites setting before) := by
  fun_induction course run setting token generalizing before with
  | case1 run next notices hround ih =>
    cases before with
    | nil =>
      cases hcourse
      rfl
    | cons first rest =>
      obtain ⟨rfl, hrest⟩ := List.cons.inj hcourse
      have hlater : (run.round setting token).run = next := congrArg Round.run hround
      have hnext : (run.round setting token).run.Binds := binds_round h
      have hvars : (run.round setting token).run.vars = _ := vars_round h
      have hbasis := basis_round run setting token
      rw [hlater] at hnext hvars hbasis
      rw [ih hnext hrest, written_append hvars hbasis]
      rfl
  | case2 run =>
    cases before with
    | nil =>
      cases hcourse
      rfl
    | cons first rest => simp at hcourse

/-- The variables of a run that has advanced are those that were written in its course. -/
theorem vars_advance (h : run.Binds) :
    (run.advance setting token).run.vars =
      run.written (courseWrites setting (run.course setting token)) := by
  obtain ⟨before, last, hcourse, -, hrun, -⟩ := course_advance run setting token
  have hlast : last ∈ run.course setting token := by
    rw [hcourse]
    exact List.mem_append_right before (List.mem_singleton_self last)
  have hbefore := vars_course h hcourse
  obtain ⟨⟨hbinds, hbasis⟩, hround⟩ := mem_course
    (P := fun later => later.Binds ∧ later.basis = run.basis)
    (fun later hlater => ⟨binds_round hlater.1, (basis_round ..).trans hlater.2⟩) ⟨h, rfl⟩ hlast
  have hvars : (last.1.round setting token).run.vars = _ := vars_round hbinds
  rw [← hround] at hvars
  rw [hrun, hvars, written_append hbefore hbasis, hcourse]
  simp [courseWrites]

/-! ## Requests that go out -/

/-- A request that goes out: the variables of its step are filled in with what is in scope without
them, and a name has the value of the item, else of the step, of the run, of the environment, of the
request or of the document, in this order, and else none. -/
structure Sends (run : Run) (setting : Setting) (dispatch : Dispatch) (layer : TextMap) : Prop where
  known : ∃ key, setting.requests.get? key = some dispatch.request
  environment : dispatch.environment = run.environment
  filled : Template.Fills (run.baseScope setting dispatch.request) run.stepTexts layer
  value : ∀ name, dispatch.vars.get? name =
    (run.itemLayer.get? name).or ((layer.get? name).or ((run.itemVars.get? name).or
      ((run.environmentVars.get? name).or ((dispatch.request.vars.get? name).or
        (setting.vars.get? name)))))

/-- A round without a request only begins an item. -/
theorem silent_round (h : run.Binds) (quiet : (run.round setting token).dispatch? = none) :
    (run.round setting token).run.vars = run.itemVars ∧
      (run.round setting token).run.pending = run.pending := by
  have hflows : run.Flows setting (run.round setting token) := flows_round h
  generalize run.round setting token = round at hflows quiet
  cases hflows with
  | silent _ vars pending => exact ⟨vars, pending⟩
  | sent => cases quiet

/-- A round with a request sends it with the variables of its step, and keeps these. -/
theorem sends_round {dispatch : Dispatch} (h : run.Binds)
    (sent : (run.round setting token).dispatch? = some dispatch) :
    run.Sends setting dispatch (run.stepLayer setting dispatch.request) ∧
      (run.round setting token).run.vars =
        run.itemVars.overlay (run.stepLayer setting dispatch.request) := by
  have hflows : run.Flows setting (run.round setting token) := flows_round h
  generalize run.round setting token = round at hflows sent
  cases hflows with
  | silent quiet => cases quiet.symm.trans sent
  | sent known filled vars scope environment =>
    cases sent
    rename_i key layer
    rw [stepLayer_of_filled filled]
    refine ⟨⟨⟨key, known⟩, environment, Template.fills_of_renderMap filled, fun name => ?_⟩, vars⟩
    rw [scope, scopeWith, Layers.get?_merge, OrderedMap.get?_overlay]
    -- The run has taken over the layer of the step, which counts before it anyway.
    cases layer.get? name with
    | none => rfl
    | some value => rfl

end Run

end RequestFlow
