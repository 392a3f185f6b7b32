import RequestFlow.Proofs.Run.Course

/-!
# The stages of a run

A run is between two rounds, or at rest with a request out, or over. Three properties, one for each
stage, hold throughout if they hold of a run before its first step and each way from one stage to
the next leads from the one property to the other.

* `Stages`, `Stages.Lead`: three such properties, and what is to be shown of them;
* `Stages.Lead.advance`: a run under way advances to one of the other stages;
* `Stages.Lead.resume`: so does a run at rest, over a reply;
* `Stages.Lead.course`: the rounds on the way are taken by runs under way.
-/

namespace RequestFlow

/-- What is to hold of a run at each of its stages. -/
structure Stages where
  /-- Between two rounds. -/
  underWay : Run → Prop
  /-- With a request out. -/
  atRest : Run → Prop
  /-- When the run has come to its end. -/
  ended : Run → Prop

/-- A round leads to a run that is as its stage asks. -/
def Round.Meets (stages : Stages) : Round → Prop
  | next run _ => stages.underWay run
  | sent run _ _ => stages.atRest run
  | finished run _ => stages.ended run

/-- A transition leads to a run that is as its stage asks. -/
structure Transition.Meets (stages : Stages) (transition : Transition) : Prop where
  sent : transition.dispatch ≠ none → stages.atRest transition.run
  ended : transition.dispatch = none → stages.ended transition.run

namespace Stages

/-- The properties hold before the first step, and lead to each other. -/
structure Lead (stages : Stages) : Prop where
  start : ∀ workflow origin environment vars,
    stages.underWay (.start workflow origin environment vars)
  round : ∀ {setting token} {run : Run}, run.UnderWay → stages.underWay run →
    (run.round setting token).Meets stages
  /-- A call to stop is noted while a request is out. -/
  called : ∀ {run : Run} cancellation, stages.atRest run → stages.atRest { run with cancellation }
  /-- The request that was out comes back after a call to stop. -/
  canceled : ∀ {requests token pending} {run : Run} cancellation reply reason,
    run.AtRest requests token pending → stages.atRest run →
      stages.ended (Run.record { run.taken with cancellation := some cancellation }
        (Run.canceledResult pending reply reason))
  /-- A reply stops the run. -/
  stopped : ∀ {requests token pending reply} {run : Run},
    run.AtRest requests token pending → stages.atRest run → run.cancellation = none →
      run.taken.stopsAt (run.taken.replyResult pending reply) = true →
      stages.ended (run.taken.record (run.taken.replyResult pending reply))
  /-- The run goes on over a reply. -/
  answered : ∀ {requests token pending reply} {run : Run},
    run.AtRest requests token pending → stages.atRest run →
      stages.underWay (run.taken.record (run.taken.replyResult pending reply)).goOn

variable {stages : Stages} {document : Document} {evaluator : Evaluator} {token : Nat} {run : Run}

theorem meets_announce {transition : Transition} (h : transition.Meets stages)
    (notices : List Notice) : (transition.announce notices).Meets stages := ⟨h.sent, h.ended⟩

/-- A round that goes on leaves the run under way, and as that stage asks. -/
theorem Lead.next {next : Run} {notices : List Notice} (lead : stages.Lead)
    (h : run.UnderWay ∧ stages.underWay run)
    (hround : run.round (document.setting evaluator) token = .next next notices) :
    next.UnderWay ∧ stages.underWay next := by
  have hsound : (run.round (document.setting evaluator) token).Sound document token :=
    Run.sound_round h.1
  have hmeets : (run.round (document.setting evaluator) token).Meets stages := lead.round h.1 h.2
  rw [hround] at hsound hmeets
  exact ⟨hsound, hmeets⟩

/-- A run under way advances until it is at rest or over. -/
theorem Lead.advance (lead : stages.Lead) (h : run.UnderWay ∧ stages.underWay run) :
    (run.advance (document.setting evaluator) token).Meets stages := by
  fun_induction Run.advance run (document.setting evaluator) token with
  | case1 run next notices hround ih => exact meets_announce (ih (lead.next h hround)) notices
  | case2 run sent dispatch notices hround =>
    have hmeets : (run.round (document.setting evaluator) token).Meets stages := lead.round h.1 h.2
    rw [hround] at hmeets
    exact ⟨fun _ => hmeets, fun hnone => by cases hnone⟩
  | case3 run finished notices hround =>
    have hmeets : (run.round (document.setting evaluator) token).Meets stages := lead.round h.1 h.2
    rw [hround] at hmeets
    exact ⟨fun hsome => absurd rfl hsome, fun _ => hmeets⟩

/-- A reply that does not stop the run leaves it under way, and as that stage asks. -/
theorem Lead.goOn {requests : RequestIndex} {pending : Pending} {reply : Reply}
    (lead : stages.Lead) (rests : run.AtRest requests token pending) (h : stages.atRest run)
    (plain : run.cancellation = none)
    (goes : run.taken.stopsAt (run.taken.replyResult pending reply) = false) :
    (run.taken.record (run.taken.replyResult pending reply)).goOn.UnderWay ∧
      stages.underWay (run.taken.record (run.taken.replyResult pending reply)).goOn :=
  ⟨rests.underWay plain rfl goes, lead.answered rests h⟩

/-- A run at rest goes on over a reply until it is at rest again or over. -/
theorem Lead.resume {requests : RequestIndex} {pending : Pending} (lead : stages.Lead)
    (rests : run.AtRest requests token pending) (h : stages.atRest run) (reply : Reply) :
    (run.taken.resume (document.setting evaluator) token pending reply).Meets stages := by
  cases hcancellation : run.cancellation with
  | some cancellation =>
    have hcalled : run.taken.cancellation = some cancellation := hcancellation
    simp only [Run.resume, hcalled]
    exact ⟨fun hsome => absurd rfl hsome, fun _ => lead.canceled _ reply _ rests h⟩
  | none =>
    have hplain : run.taken.cancellation = none := hcancellation
    rw [Run.resume_eq hplain]
    split
    · rename_i hstop
      exact ⟨fun hsome => absurd rfl hsome, fun _ => lead.stopped rests h hcancellation hstop⟩
    · rename_i hstop
      have hgoes := lead.goOn rests h hcancellation (by simpa using hstop)
      exact meets_announce (lead.advance hgoes) _

/-- The rounds on the way are taken by runs under way. -/
theorem Lead.course {taken : Run × Round} (lead : stages.Lead)
    (h : run.UnderWay ∧ stages.underWay run)
    (htaken : taken ∈ run.course (document.setting evaluator) token) :
    (taken.1.UnderWay ∧ stages.underWay taken.1) ∧
      taken.2 = taken.1.round (document.setting evaluator) token :=
  Run.mem_course_of_next (P := fun run => run.UnderWay ∧ stages.underWay run)
    (fun _ _ _ h hround => lead.next h hround) h htaken

end Stages

end RequestFlow
