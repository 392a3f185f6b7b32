import RequestFlow.Proofs.Expression.Items
import RequestFlow.Proofs.Run.Loops
import RequestFlow.Proofs.Run.Variables
import RequestFlow.Proofs.Session.References

/-!
# The loops of a session's runs

A session runs valid workflows only, and validation does not accept a step that repeats a request
over nothing or without a name for the items. That does not reach the loop of a request which a step
just runs: it is entered as it was written, blank or not. But for those, no run takes an item under
an empty name, and no loop fails for want of an expression. Only the last of this is particular to
an evaluator: it is the expression language in which a blank expression has no value.

* `Session.lasting_sourced`: the loop of a run is always that of its step;
* `Session.loops_sourced`: what loops are entered, and how, in every session that can be reached;
* `Session.loop_unchecked`: a valid workflow that takes an item under an empty name.
-/

namespace RequestFlow

open Text

theorem LoopSpec.Acceptable.trimmed_ne {spec : LoopSpec} (h : spec.Acceptable) :
    trimmed spec.var ≠ "" := by
  rw [ne_eq, trimmed_eq_empty_iff, h.var]
  exact Bool.false_ne_true

namespace Run

variable {run : Run}

/-- An item is begun under the name of the loop. -/
theorem var_of_begins {var item : String} (h : run.begins? = some (var, item)) :
    ∃ loop, run.loop = some loop ∧ loop.var = var := by
  unfold begins? at h
  split at h
  · cases h
  · obtain ⟨loop, hloop, hitem⟩ := Option.bind_eq_some_iff.1 h
    obtain ⟨_, -, heq⟩ := Option.map_eq_some_iff.1 hitem
    cases heq
    exact ⟨loop, hloop, rfl⟩

end Run

namespace Session

variable {σ : Type} {session : Session σ}

/-- The loop of a run is always that of its step. -/
theorem lasting_sourced (session : Session σ) :
    session.Lasting fun run => run.Placed ∧ run.Sourced session.document.requestIndex where
  start h := ⟨(lasting_placed session).start h, Run.sourced_of_outside rfl⟩
  called reason h := ⟨(lasting_placed session).called reason h.1, h.2⟩
  replied result rests h :=
    ⟨(lasting_placed session).replied result rests h.1, Run.sourced_goOn h.2⟩
  round run h := ⟨(lasting_placed session).round run h.1, Run.sourced_round h.1 h.2⟩

/-- How the loops of a round go back to the step under way. -/
structure Traces (setting : Setting) (run : Run) (round : Round) : Prop where
  /-- The loop of the step is acceptable, unless the step just runs a request that has one. -/
  checked : ∀ request spec, run.workflow.loopAt? setting.requests run.index = some (request, spec) →
    spec.Acceptable ∨ ∃ part, run.step? = some (.request part) ∧
      setting.requests.get? part.targetName = some request ∧ request.loop = some spec
  /-- A step that has a loop is tried by way of it. -/
  opens : ∀ request spec, run.workflow.loopAt? setting.requests run.index = some (request, spec) →
    run.loop = none → run.Opens setting request spec round
  /-- The items lack an expression where the one that is written is blank. -/
  blank : setting.evaluator = evaluate → ∀ request spec,
    run.workflow.loopAt? setting.requests run.index = some (request, spec) →
      (run.loopItems setting request spec = .error .emptyExpression ↔
        isBlankText spec.items = true)
  /-- The loop before the round, and the one after it, is that of the step. -/
  source : ∀ loop, run.loop = some loop ∨ round.run.loop = some loop → ∃ request spec,
    run.workflow.loopAt? setting.requests run.index = some (request, spec) ∧
      loop.step = run.index ∧ loop.var = trimmed spec.var
  /-- So is the name under which the round begins an item. -/
  item : ∀ var item, run.begins? = some (var, item) → ∃ request spec,
    run.workflow.loopAt? setting.requests run.index = some (request, spec) ∧ var = trimmed spec.var

/-- The loops of a round have items and a name for them. -/
structure Named (setting : Setting) (run : Run) (round : Round) : Prop where
  loop : ∀ loop, run.loop = some loop ∨ round.run.loop = some loop → loop.var ≠ ""
  item : ∀ var item, run.begins? = some (var, item) → var ≠ ""
  items : ∀ request spec, run.workflow.loopAt? setting.requests run.index = some (request, spec) →
    isBlankText spec.items = false ∧ (setting.evaluator = evaluate →
      run.loopItems setting request spec ≠ .error .emptyExpression)

/-- The loops are as they should be where that of the step is acceptable. -/
theorem Traces.named {setting : Setting} {run : Run} {round : Round} (h : Traces setting run round)
    (acceptable : ∀ request spec,
      run.workflow.loopAt? setting.requests run.index = some (request, spec) → spec.Acceptable) :
    Named setting run round where
  loop loop hloop := by
    obtain ⟨request, spec, hat, -, hvar⟩ := h.source loop hloop
    rw [hvar]
    exact (acceptable request spec hat).trimmed_ne
  item var item hitem := by
    obtain ⟨request, spec, hat, hvar⟩ := h.item var item hitem
    rw [hvar]
    exact (acceptable request spec hat).trimmed_ne
  items request spec hat := by
    have hitems := (acceptable request spec hat).items
    refine ⟨hitems, fun hevaluator hempty => ?_⟩
    cases hitems.symm.trans ((h.blank hevaluator request spec hat).1 hempty)

theorem traces_round {setting : Setting} {token : Nat} {run : Run} (hplaced : run.Placed)
    (hsourced : run.Sourced setting.requests) (plain : run.cancellation = none)
    (acceptable : ∀ step, run.step? = some step → step.Acceptable setting.requests) :
    Traces setting run (run.round setting token) where
  checked request spec hat := by
    obtain ⟨step, hstep, hloop⟩ := Option.bind_eq_some_iff.1 hat
    refine ((acceptable step hstep).loopAt hloop).imp_right ?_
    rintro ⟨part, rfl, hrequest⟩
    exact ⟨part, hstep, hrequest⟩
  opens request spec hat outside := by
    have hcanceled : run.isCanceled = false := by rw [Run.isCanceled, plain, Option.isSome_none]
    exact Run.opens_round hcanceled outside hat
  blank hevaluator request spec _ := by
    rw [Run.loopItems, hevaluator]
    exact Expression.items_of_blank spec.items _
  source loop hloop := Run.loopAt_round hplaced hsourced hloop
  item var item hitem := by
    obtain ⟨loop, hloop, rfl⟩ := Run.var_of_begins hitem
    have hinside : run.loop = some loop ∨ (run.round setting token).run.loop = some loop :=
      .inl hloop
    obtain ⟨request, spec, hat, -, hvar⟩ := Run.loopAt_round hplaced hsourced hinside
    exact ⟨request, spec, hat, hvar⟩

/-- The loops of every round go back to the step under way, which validation has looked at; and they
are as they should be unless the step just runs a request whose own loop is not. -/
theorem loops_sourced (document : Document) (evaluator : Evaluator)
    (recorder : Option (Recorder σ)) (store : σ) :
    let fresh := new document evaluator recorder store
    (∀ messages message, ∀ taken ∈ (fresh.after messages).course message,
      Traces fresh.setting taken.1 taken.2 ∧
      ((∀ part request spec, taken.1.step? = some (.request part) →
          document.requestIndex.get? part.targetName = some request → request.loop = some spec →
            spec.Acceptable) →
        Named fresh.setting taken.1 taken.2)) ∧
    ∀ messages run, (fresh.after messages).run = some run → run.Sourced document.requestIndex := by
  intro fresh
  have hrest (messages : List Message) : (fresh.after messages).AtRest :=
    atRest_after document evaluator recorder store messages
  have hplanned (messages : List Message) :
      (fresh.after messages).Has (fresh.after messages).Planned :=
    planned_after (atRest_of_idle rfl) (by rintro _ ⟨⟩) messages
  have hsourced (messages : List Message) : (fresh.after messages).Has fun run =>
      run.Placed ∧ run.Sourced document.requestIndex := by
    refine has_after_of_basis (fun later same => ?_) (atRest_of_idle rfl) (by rintro _ ⟨⟩) messages
    have hdocument : later.document = document := congrArg Prod.fst same
    exact hdocument ▸ lasting_sourced later
  refine ⟨fun messages message taken htaken => ?_, fun messages run hrun =>
    (hsourced messages run hrun).2⟩
  have hdocument : (fresh.after messages).document = document :=
    document_after fresh messages
  obtain ⟨hgood, -⟩ := (lasting_planned _).course (hrest messages) (hplanned messages) htaken
  obtain ⟨⟨hplace, hsource⟩, hround⟩ := (lasting_sourced _).course (hrest messages)
    (hdocument ▸ hsourced messages) htaken
  have hacceptable : ∀ step, taken.1.step? = some step →
      step.Acceptable (fresh.after messages).document.requestIndex :=
    fun step hstep => hgood.acceptable hstep
  rw [hdocument] at hsource hacceptable
  have htraces : Traces fresh.setting taken.1 taken.2 := by
    rw [hround, setting_after]
    exact traces_round hplace hsource (plain_course (hrest messages) htaken) hacceptable
  refine ⟨htraces, fun hown => htraces.named fun request spec hat => ?_⟩
  rcases htraces.checked request spec hat with hacceptable | ⟨part, hstep, hrequest, hloop⟩
  · exact hacceptable
  · exact hown part request spec hstep hrequest hloop

/-- A step that just runs a request with a loop, whose expression and name are not blank. -/
theorem loops_sourced_own :
    let spec : LoopSpec := ⟨"[\"a\"]", "host"⟩
    let request : Request := { name := "item", url := "http://host/items", loop := some spec }
    let workflow : Workflow := { name := "batch", steps := [.request { target := "item" }] }
    let fresh : Session Unit :=
      new { requests := [request], workflows := [workflow] } evaluate none ()
    let run := Run.start workflow .workflow "" .empty
    let round := run.round fresh.setting 1
    (run, round) ∈ fresh.course (.start (.workflow "batch") "") ∧
      workflow.loopAt? fresh.setting.requests run.index = some (request, spec) ∧
      spec.Acceptable ∧ Named fresh.setting run round := by
  intro spec request workflow fresh run round
  have hmem : (run, round) ∈ fresh.course (.start (.workflow "batch") "") := by
    have hadvancing : fresh.advancing? (.start (.workflow "batch") "") = some run := rfl
    rw [course, hadvancing]
    exact Run.head_mem_course run fresh.setting 1
  have hacceptable : spec.Acceptable := ⟨by decide, by decide⟩
  obtain ⟨-, hnamed⟩ := (loops_sourced _ evaluate none ()).1 [] _ _ hmem
  refine ⟨hmem, rfl, hacceptable, hnamed fun part found own hstep hfound hown => ?_⟩
  cases hstep
  cases hfound
  cases hown
  exact hacceptable

end Session

/-! ## A loop that is not checked -/

namespace Nameless

/-- A loop over a list, without a name for the items. -/
def spec : LoopSpec := ⟨"[\"a\"]", ""⟩

/-- A request with that loop. -/
def request : Request := { name := "item", url := "http://host/items", loop := some spec }

/-- The request, just run. -/
def workflow : Workflow := { name := "batch", steps := [.request { target := "item" }] }

/-- A session over a document with both. -/
def session : Session Unit :=
  .new { requests := [request], workflows := [workflow] } evaluate none ()

theorem accepts : session.Accepts (.workflow "batch") "" workflow .workflow .empty :=
  ⟨rfl, rfl, rfl, rfl⟩

end Nameless

namespace Session

/-- A workflow that is valid, and sends its request with an item under no name. -/
theorem loop_unchecked :
    Nameless.workflow.validate Nameless.session.document.requestIndex = .ok () ∧
      ∃ dispatch, (Drive.start Nameless.session (.workflow "batch") "").answer =
          .ok (.dispatch dispatch) ∧
        dispatch.request = Nameless.request ∧ dispatch.vars.get? "" = some "a" := by
  refine ⟨Nameless.accepts.valid, ?_⟩
  let run : Run := .start Nameless.workflow .workflow "" .empty
  have hitems : run.loopItems Nameless.session.setting Nameless.request Nameless.spec =
      .ok ["a"] := by
    have hevaluator : Nameless.session.setting.evaluator = evaluate := rfl
    have hlisting : Nameless.spec.items = String.ofList (Expression.listing ["a"]) := rfl
    rw [Run.loopItems, hevaluator, hlisting]
    exact Expression.evaluate_items (by decide) _
  have hfirst : run.round Nameless.session.setting 1 =
      .next (run.within Nameless.spec ["a"]) [] :=
    Run.round_of_items rfl rfl rfl hitems (by simp)
  obtain ⟨sent, dispatch, notices, hsecond, hrequest, hvars⟩ : ∃ sent dispatch notices,
      (run.within Nameless.spec ["a"]).round Nameless.session.setting 1 =
        .sent sent dispatch notices ∧ dispatch.request = Nameless.request ∧
          dispatch.vars.get? "" = some "a" := ⟨_, _, _, rfl, rfl, rfl⟩
  exact ⟨dispatch, answer_of_rounds Nameless.accepts hfirst hsecond, hrequest, hvars⟩

end Session

end RequestFlow
