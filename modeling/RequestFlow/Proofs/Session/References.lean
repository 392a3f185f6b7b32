import RequestFlow.Proofs.Run.References
import RequestFlow.Proofs.Session.Moves

/-!
# What a session refers to

A session runs valid workflows only. So whatever it is told, its runs find every request that a step
or a branch names, leave their loops at the end of them only, and are at a step that there is. The
other way round, a start that is turned down over a step names the first step that is at fault.

* `Session.lasting_placed`: a run is always where it can be;
* `Session.references_found`: all of this, for every session that can be reached.
-/

namespace RequestFlow

/-- A run whose references lead somewhere: it is where it can be, and the request of its step and
those that branches of its step run are in the index. -/
structure Run.Refers (requests : RequestIndex) (run : Run) : Prop extends run.Placed where
  target : ∀ step part, run.step? = some step → step.requestPart? = some part →
    requests.contains part.targetName = true
  branch : ∀ step action name, run.step? = some step → action ∈ step.actions →
    action.meaning = .run name → requests.contains name = true

namespace Session

variable {σ : Type} {session : Session σ}

/-- A run is always where it can be. -/
theorem lasting_placed (session : Session σ) : session.Lasting Run.Placed where
  start _ := Run.placed_start ..
  called _ h := ⟨h.index_le, h.inLoop⟩
  replied _ rests h := Run.placed_goOn ⟨h.index_le, h.inLoop⟩ rests.index_lt
  round _ h := Run.placed_round h

/-- The steps of a run may all run. -/
theorem Planned.acceptable {run : Run} {step : Step} (h : session.Planned run)
    (hstep : run.step? = some step) : step.Acceptable session.document.requestIndex :=
  Workflow.steps_of_validate h.valid hstep

theorem refers_of_planned {run : Run} (h : session.Planned run) (hplaced : run.Placed) :
    run.Refers session.document.requestIndex where
  toPlaced := hplaced
  target _ _ hstep hpart := (h.acceptable hstep).target hpart
  branch _ _ name hstep haction hmeaning :=
    ((h.acceptable hstep).action haction).known name (Action.target_of_meaning hmeaning)

/-- A round finds what it refers to. -/
theorem refers_course (h : session.AtRest) (hplanned : session.Has session.Planned)
    (hplaced : session.Has Run.Placed) {message : Message} {taken : Run × Round}
    (htaken : taken ∈ session.course message) :
    taken.1.Refers session.document.requestIndex ∧ taken.1.Records taken.2 ∧
      ∀ loop, taken.1.loop = some loop → taken.2.run.loop = none → loop.cursor = loop.total := by
  obtain ⟨hgood, -⟩ := (lasting_planned session).course h hplanned htaken
  obtain ⟨hplace, hround⟩ := (lasting_placed session).course h hplaced htaken
  rw [hround]
  refine ⟨refers_of_planned hgood hplace, ?_, ?_⟩
  · exact Run.records_round fun step hstep => hgood.acceptable hstep
  · exact fun loop inside left => Run.cursor_of_left hplace inside left

/-- Every round of every run finds what it refers to: the requests of its step are in the index, it
records no failure over a missing request, and it leaves a loop at the end of it only. A run at rest
waits at a step that there is. And a step that validation tells is the first one at fault. -/
theorem references_found (document : Document) (evaluator : Evaluator)
    (recorder : Option (Recorder σ)) (store : σ) :
    let fresh := new document evaluator recorder store
    (∀ messages message, ∀ taken ∈ (fresh.after messages).course message,
      taken.1.Refers document.requestIndex ∧ taken.1.Records taken.2 ∧
        ∀ loop, taken.1.loop = some loop → taken.2.run.loop = none → loop.cursor = loop.total) ∧
    (∀ messages run, (fresh.after messages).run = some run → run.Placed ∧
      ∃ pending, run.pending = some pending ∧ pending.step < run.stepCount) ∧
    ∀ (workflow : Workflow) (told : String) (number : Nat) (fault : StepFault),
      workflow.validate document.requestIndex = .error (.step told number fault) →
        told = workflow.name ∧ ∃ before step after, workflow.steps = before ++ step :: after ∧
          number = before.length + 1 ∧
          (∀ earlier ∈ before, earlier.Acceptable document.requestIndex) ∧
          ¬ step.Acceptable document.requestIndex ∧
          step.check document.requestIndex = .error fault := by
  intro fresh
  have hrest (messages : List Message) : (fresh.after messages).AtRest :=
    atRest_after document evaluator recorder store messages
  have hplanned (messages : List Message) :
      (fresh.after messages).Has (fresh.after messages).Planned :=
    planned_after (atRest_of_idle rfl) (by rintro _ ⟨⟩) messages
  have hplaced (messages : List Message) : (fresh.after messages).Has Run.Placed :=
    has_after lasting_placed (atRest_of_idle rfl) (by rintro _ ⟨⟩) messages
  have hdocument (messages : List Message) : (fresh.after messages).document = document :=
    document_after fresh messages
  refine ⟨fun messages message taken htaken => ?_, fun messages run hrun => ?_, ?_⟩
  · have hrefers := refers_course (hrest messages) (hplanned messages) (hplaced messages) htaken
    rwa [hdocument] at hrefers
  · obtain ⟨pending, hpending⟩ := hrest messages run hrun
    refine ⟨hplaced messages run hrun, pending, hpending.isPending, ?_⟩
    rw [hpending.step]
    exact hpending.index_lt
  · exact fun workflow told number fault h => Workflow.first_of_validate h

end Session

end RequestFlow
