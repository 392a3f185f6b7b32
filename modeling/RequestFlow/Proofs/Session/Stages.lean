import RequestFlow.Proofs.Run.Stages
import RequestFlow.Proofs.Session.History

/-!
# The stages of the runs of a session

Properties of the stages of a run that lead to each other hold of every run of a session: at rest
between messages, under way while one is handled, and over when it is reported.

* `Stages.Lead.receive`, `Stages.Lead.after`: the active run is as its stage asks;
* `Stages.Lead.mem_course`: so is every run that takes a round while a message is handled;
* `Stages.Lead.endings`: every report is on a run that is over as that stage asks.
-/

namespace RequestFlow

namespace Stages

open Session

variable {σ : Type} {session : Session σ} {stages : Stages}

theorem has_follow {transition : Transition} (h : transition.Meets stages) :
    (session.follow transition).session.Has stages.atRest := by
  unfold follow
  split
  · rename_i dispatch hdispatch
    rintro _ ⟨⟩
    exact h.sent (hdispatch ▸ Option.some_ne_none dispatch)
  · intro run hrun
    cases (run_finish session transition.run).symm.trans hrun

/-- Every message leaves the active run as its stage asks. -/
theorem Lead.receive (lead : stages.Lead) (h : session.AtRest) (holds : session.Has stages.atRest)
    (message : Message) : (session.receive message).session.Has stages.atRest := by
  have hmoves := moves_receive h message
  generalize session.course message = course at hmoves
  generalize session.receive message = reaction at hmoves
  cases hmoves with
  | ignored => exact holds
  | called reason active =>
    rintro _ ⟨⟩
    exact lead.called _ (holds _ active)
  | began => exact has_follow (lead.advance ⟨Run.underWay_start .., lead.start ..⟩)
  | ended =>
    intro run hrun
    cases (run_finish session _).symm.trans hrun
  | resumed active rests plain recorded goes =>
    subst recorded
    exact has_follow (lead.advance (lead.goOn rests (holds _ active) plain goes))

/-- So do any messages. -/
theorem Lead.after (lead : stages.Lead) (h : session.AtRest) (holds : session.Has stages.atRest)
    (messages : List Message) : (session.after messages).Has stages.atRest :=
  (after_induction (P := fun later => later.AtRest ∧ later.Has stages.atRest)
    (fun later message hlater =>
      ⟨atRest_receive later message hlater.1, lead.receive hlater.1 hlater.2 message⟩)
    ⟨h, holds⟩ messages).2

/-- The runs that take a round while a message is handled are under way, as that stage asks. -/
theorem Lead.mem_course (lead : stages.Lead) (h : session.AtRest)
    (holds : session.Has stages.atRest) {message : Message} {taken : Run × Round}
    (htaken : taken ∈ session.course message) :
    (taken.1.UnderWay ∧ stages.underWay taken.1) ∧
      taken.2 = taken.1.round session.setting session.nextToken := by
  have hmoves := moves_receive h message
  generalize session.course message = course at hmoves htaken
  generalize session.receive message = reaction at hmoves
  cases hmoves with
  | ignored => cases htaken
  | called => cases htaken
  | began => exact lead.course ⟨Run.underWay_start .., lead.start ..⟩ htaken
  | ended => cases htaken
  | resumed active rests plain recorded goes =>
    subst recorded
    exact lead.course (lead.goOn rests (holds _ active) plain goes) htaken

/-! ## Endings -/

/-- A transition that is taken over and brings a report leaves its run over. -/
theorem ending_follow {transition : Transition} {workflow : Workflow} {ending : Ending}
    (sound : transition.Sound session.document session.nextToken)
    (meets : transition.Meets stages) (same : transition.run.workflow = workflow)
    (h : (reported? (.ok (session.follow transition).answer)).map (Ending.mk workflow) =
      some ending) :
    ∃ closed : Run, stages.ended closed ∧
      ending = ⟨closed.workflow, closed.report session.document⟩ := by
  subst same
  cases hdispatch : transition.dispatch with
  | some dispatch => simp [follow, hdispatch, reported?] at h
  | none =>
    simp only [follow, hdispatch, Reaction.announce, finish_of_open session sound.finalized] at h
    cases h
    exact ⟨transition.run, meets.ended hdispatch, rfl⟩

/-- A message that ends a run leaves it over. -/
theorem Lead.ending (lead : stages.Lead) (h : session.AtRest) (holds : session.Has stages.atRest)
    {message : Message} {ending : Ending} (hending : session.ending? message = some ending) :
    ∃ closed : Run, stages.ended closed ∧
      ending = ⟨closed.workflow, closed.report session.document⟩ := by
  have hmoves := moves_receive h message
  obtain ⟨workflow, hsubject, hreport⟩ := Option.bind_eq_some_iff.1 hending
  generalize session.course message = course at hmoves
  generalize session.receive message = reaction at hmoves hreport
  cases hmoves with
  | ignored quiet => rcases quiet with ⟨fault, rfl⟩ | rfl <;> cases hreport
  | called => cases hreport
  | @began target environment planned origin vars accepts =>
    have hplanned : some planned = some workflow := by
      rw [← hsubject, subject?, accepts.planned, Option.map_some]
    cases hplanned
    exact ending_follow (Run.sound_advance (Run.underWay_start ..))
      (lead.advance ⟨Run.underWay_start .., lead.start ..⟩)
      (congrArg Prod.fst (Run.basis_advance _ _ _)) hreport
  | @ended run closed pending reply notices active rests resumes =>
    have hbasis := Run.basis_resume run.taken session.setting session.nextToken pending reply
    have hmeets : (run.taken.resume session.setting session.nextToken pending reply).Meets stages :=
      lead.resume rests (holds run active) reply
    have hrun : some run.workflow = some workflow := by
      rw [← hsubject, subject?, active, Option.map_some]
    cases hrun
    rw [resumes] at hmeets hbasis
    exact ending_follow (sound_of_ended rests resumes) hmeets (congrArg Prod.fst hbasis) hreport
  | @resumed run pending reply result active rests plain recorded goes =>
    have hbasis := (Run.basis_advance _ session.setting session.nextToken).trans
      (Run.basis_goOn (run.taken.record result))
    have hrun : some run.workflow = some workflow := by
      rw [← hsubject, subject?, active, Option.map_some]
    cases hrun
    subst recorded
    have hgoes := lead.goOn rests (holds run active) plain goes
    exact ending_follow (Run.sound_advance hgoes.1) (lead.advance hgoes)
      (congrArg Prod.fst hbasis) hreport

/-- Every report is on a run that is over, as that stage asks. -/
theorem Lead.endings (lead : stages.Lead) (h : session.AtRest) (holds : session.Has stages.atRest)
    (messages : List Message) :
    ∀ ending ∈ session.endings messages, ∃ closed : Run, stages.ended closed ∧
      ending = ⟨closed.workflow, closed.report session.document⟩ := by
  induction messages generalizing session with
  | nil => simp [Session.endings]
  | cons message rest ih =>
    have hrest := ih (atRest_receive session message h) (lead.receive h holds message)
    rw [document_receive] at hrest
    intro ending hmem
    rw [Session.endings, List.mem_append, Option.mem_toList] at hmem
    rcases hmem with hending | hmem
    · exact lead.ending h holds hending
    · exact hrest ending hmem

end Stages

end RequestFlow
