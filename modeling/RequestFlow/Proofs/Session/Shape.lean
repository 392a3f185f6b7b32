import RequestFlow.Proofs.Run.Shape
import RequestFlow.Proofs.Session.Stages

/-!
# The results of a session

The results of a run only grow: a message and each round that it brings about adds some at the end,
and when the run is over they stand in its report. At every time they are in the order of the steps.

* `Run.results_course`: the results along the rounds of a course;
* `Session.results_receive`: the results along a message;
* `Session.results_in_order`: all of this, for every session that can be reached.
-/

namespace RequestFlow

/-- The results of a report are in order: items of a loop are left only of the last step, where its
last result stopped the run. -/
def Ending.InOrder (ending : Ending) : Prop :=
  ending.workflow.InOrder ending.report.results fun index =>
    ∃ last, ending.report.results.getLast? = some last ∧ last.step = index ∧
      last.stops (ending.workflow.policyAt last.step) = true

/-- The results of the rounds of a course: each run that takes a round has those from before, and
keeps its own through the round and to the end. -/
theorem Run.results_course {setting : Setting} {token : Nat} {run : Run} {taken : Run × Round}
    (htaken : taken ∈ run.course setting token) :
    run.results <+: taken.1.results ∧ taken.1.results <+: taken.2.run.results ∧
      taken.2.run.results <+: (run.advance setting token).run.results := by
  fun_induction Run.course run setting token with
  | case1 run next notices hround ih =>
    have hfirst := (precedes_round run setting token).keeps
    have hnext : next.results <+: (next.advance setting token).run.results :=
      (precedes_advance next setting token).keeps
    rw [advance_of_next hround]
    rw [hround] at hfirst
    rcases List.mem_cons.1 htaken with rfl | htaken
    · exact ⟨List.prefix_refl _, hround ▸ hfirst, hround ▸ hnext⟩
    · obtain ⟨hbefore, hthrough, hafter⟩ := ih htaken
      exact ⟨hfirst.trans hbefore, hthrough, hafter⟩
  | case2 run hlast =>
    have hfirst := (precedes_round run setting token).keeps
    rw [List.mem_singleton.1 htaken]
    refine ⟨List.prefix_refl _, hfirst, ?_⟩
    cases hround : run.round setting token with
    | next next notices => exact (hlast next notices hround).elim
    | sent =>
      rw [advance_of_sent hround]
      exact List.prefix_refl _
    | finished =>
      rw [advance_of_finished hround]
      exact List.prefix_refl _

namespace Session

variable {σ : Type} {session : Session σ}

/-- The results of the active run. -/
def results (session : Session σ) : List Result := (session.run.map Run.results).getD []

end Session

/-- The results that there are after a reaction: those of the report that it brings, or else those
of the active run. -/
def Reaction.results {σ : Type} (reaction : Reaction σ (Except StartFault Command)) :
    List Result :=
  ((reported? reaction.answer).map Report.results).getD reaction.session.results

namespace Session

variable {σ : Type} {session : Session σ}

theorem results_of_run {run : Run} (h : session.run = some run) : session.results = run.results := by
  rw [results, h]
  rfl

/-- The results of a transition that is taken over are told or stay with the run. -/
theorem results_follow {transition : Transition}
    (h : transition.Sound session.document session.nextToken) (notices : List Notice) :
    (((session.follow transition).announce notices).map Except.ok).results =
      transition.run.results := by
  unfold follow
  cases hdispatch : transition.dispatch with
  | some dispatch => rfl
  | none =>
    dsimp only
    rw [finish_of_open session h.finalized]
    rfl

/-- The results along a message: a run keeps those that it has, through every round. -/
theorem results_receive (h : session.AtRest) (message : Message) :
    session.results <+: (session.receive message).results ∧
      ∀ taken ∈ session.course message, session.results <+: taken.1.results ∧
        taken.1.results <+: taken.2.run.results ∧
        taken.2.run.results <+: (session.receive message).results := by
  have hmoves := moves_receive h message
  generalize session.course message = course at hmoves
  generalize session.receive message = reaction at hmoves
  cases hmoves with
  | ignored quiet =>
    refine ⟨?_, by rintro _ ⟨⟩⟩
    rcases quiet with ⟨fault, rfl⟩ | rfl <;> exact List.prefix_refl _
  | called reason active =>
    refine ⟨?_, by rintro _ ⟨⟩⟩
    rw [results_of_run active]
    exact List.prefix_refl _
  | @began _ environment workflow origin vars accepts =>
    have hnone : session.results = [] := by
      rw [results, accepts.idle]
      rfl
    have hresults : ((session.begin (.start workflow origin environment vars)).map .ok).results =
        _ := results_follow (Run.sound_advance (Run.underWay_start ..)) _
    rw [hnone, hresults]
    refine ⟨List.nil_prefix, fun taken htaken => ?_⟩
    exact ⟨List.nil_prefix, (Run.results_course htaken).2⟩
  | @ended run closed pending reply notices active rests resumes =>
    have hprefix := Run.prefix_resume run.taken session.setting session.nextToken pending reply
    have hresults : (((session.finish closed).announce notices).map Except.ok).results =
        closed.results := results_follow (sound_of_ended rests resumes) []
    refine ⟨?_, by rintro _ ⟨⟩⟩
    rw [results_of_run active, hresults]
    rw [resumes] at hprefix
    exact hprefix
  | @resumed run _ _ result active rests plain recorded goes =>
    have hrecorded : run.results <+: (run.taken.record result).goOn.results := by
      rw [Run.results_goOn]
      exact Run.prefix_record run.taken result
    have hresults : (((session.follow ((run.taken.record result).goOn.advance session.setting
        session.nextToken)).announce (run.taken.resultNotices result)).map Except.ok).results = _ :=
      results_follow (Run.sound_advance (rests.underWay plain (recorded ▸ rfl) goes)) _
    rw [results_of_run active, hresults]
    refine ⟨hrecorded.trans (Run.precedes_advance _ _ _).keeps, fun taken htaken => ?_⟩
    obtain ⟨hbefore, hafter⟩ := Run.results_course htaken
    exact ⟨hrecorded.trans hbefore, hafter⟩

/-- The results of every run on its way, and those of every report, are in order: they begin with
the first step and leave none out, and a step has one result or those of the first items of a loop,
all of them unless the run is still in that loop or has ended there. Results are only added, by
messages and by the rounds that they bring about. -/
theorem results_in_order (document : Document) (evaluator : Evaluator)
    (recorder : Option (Recorder σ)) (store : σ) (messages : List Message) :
    let fresh := new document evaluator recorder store
    let session := fresh.after messages
    (∀ run, session.run = some run → run.InOrder) ∧
      (∀ message, session.results <+: (session.receive message).results ∧
        ∀ taken ∈ session.course message,
          taken.2 = taken.1.round session.setting session.nextToken ∧ taken.1.InOrder ∧
          session.results <+: taken.1.results ∧ taken.1.results <+: taken.2.run.results ∧
          taken.2.run.results <+: (session.receive message).results) ∧
      (fresh.endings messages).map Ending.report = (fresh.answers messages).filterMap reported? ∧
      ∀ ending ∈ fresh.endings messages, ending.InOrder := by
  intro fresh session
  have hfresh : fresh.AtRest := atRest_of_idle rfl
  have hplanned : fresh.Has fresh.Planned := by rintro _ ⟨⟩
  have htallied : fresh.Has (Run.Tally · 1) := by rintro _ ⟨⟩
  have hrest : session.AtRest := atRest_after document evaluator recorder store messages
  have htally : session.Has (Run.Tally · 1) := Stages.tallied_lead.after hfresh htallied messages
  refine ⟨fun run hrun => ?_, fun message => ?_, endings_reported hfresh hplanned messages,
    fun ending hending => ?_⟩
  · obtain ⟨pending, hatRest⟩ := hrest run hrun
    refine (htally run hrun).inOrder fun loop hloop => ?_
    obtain ⟨hstep, -, hcursor, -⟩ := hatRest.inLoop loop hloop
    exact ⟨hstep, hcursor⟩
  · obtain ⟨hresults, hcourse⟩ := results_receive hrest message
    refine ⟨hresults, fun taken htaken => ?_⟩
    obtain ⟨⟨hunderWay, htaking⟩, hround⟩ := Stages.tallied_lead.mem_course hrest htally htaken
    refine ⟨hround, htaking.inOrder fun loop hloop => ?_, hcourse taken htaken⟩
    obtain ⟨hstep, hcursor, -⟩ := hunderWay.inLoop loop hloop
    exact ⟨hstep, hcursor⟩
  · obtain ⟨closed, hclosed, rfl⟩ :=
      Stages.tallied_lead.endings hfresh htallied messages ending hending
    exact hclosed

end Session

end RequestFlow
