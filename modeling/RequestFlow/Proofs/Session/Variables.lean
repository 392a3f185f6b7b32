import RequestFlow.Proofs.Run.Variables
import RequestFlow.Proofs.Session.Traceless

/-!
# The variables of a session's runs

A journal is kept beside a session: of the active run it lists the items that have been begun and
the requests that have gone out, each with the variables of its step. At any time the variables of
the run are those it was started with, and over them what the journal lists. With every request goes
the value of each name as the layers give it.

* `Session.journal`: what the active run has written;
* `Session.Journaled`: the variables of the active run are those of its journal;
* `Session.journaled_receive`: a message keeps them so;
* `Session.variables_flow`: all of this, for every session that can be reached.
-/

namespace RequestFlow

namespace Run

variable {setting : Setting} {token : Nat} {run : Run}

/-- The variables that the run was started with, and over them what has been written since. -/
def since (run : Run) (writes : List Write) : TextMap :=
  run.workflow.initialVariables.insertAll (writes.flatMap (Write.pairs run.origin))

theorem since_of_basis {later : Run} (same : later.basis = run.basis) (writes : List Write) :
    later.since writes = run.since writes := by
  simp only [basis, Prod.mk.injEq] at same
  rw [since, since, same.1, same.2.1]

theorem written_since {earlier : List Write} (h : run.vars = run.since earlier)
    (writes : List Write) : run.written writes = run.since (earlier ++ writes) := by
  rw [written, h, since, since, List.flatMap_append, OrderedMap.insertAll_append]

/-- A reply writes nothing. -/
theorem since_replied {earlier : List Write} (h : run.vars = run.since earlier)
    (result : Result) :
    (run.taken.record result).goOn.vars = (run.taken.record result).goOn.since earlier := by
  have hbasis : (run.taken.record result).goOn.basis = run.basis :=
    basis_goOn (run.taken.record result)
  rw [since_of_basis hbasis]
  unfold goOn
  split <;> exact h

theorem binds_replied (h : run.Binds) (result : Result) : (run.taken.record result).goOn.Binds :=
  binds_goOn (show (run.taken.record result).Binds from h)

/-- Before each round of a course the variables are those of the journal so far. -/
theorem since_course {earlier : List Write} (h : run.Binds) (hvars : run.vars = run.since earlier)
    {before after : List (Run × Round)} {taken : Run × Round}
    (hcourse : run.course setting token = before ++ taken :: after) :
    taken.1.vars = taken.1.since (earlier ++ courseWrites setting before) := by
  have hmem : taken ∈ run.course setting token := by
    rw [hcourse]
    exact List.mem_append_right before List.mem_cons_self
  have hbasis := (mem_course (P := fun later => later.basis = run.basis)
    (fun later hlater => (basis_round later setting token).trans hlater) rfl hmem).1
  rw [vars_course h hcourse, written_since hvars, since_of_basis hbasis]

/-- So are they once the run has advanced. -/
theorem since_advance {earlier : List Write} (h : run.Binds)
    (hvars : run.vars = run.since earlier) :
    (run.advance setting token).run.vars = (run.advance setting token).run.since
      (earlier ++ courseWrites setting (run.course setting token)) := by
  rw [vars_advance h, written_since hvars, since_of_basis (basis_advance run setting token)]

end Run

namespace Session

variable {σ : Type} {session : Session σ}

/-- What a message makes the active run write. -/
def writes (session : Session σ) (message : Message) : List Write :=
  Run.courseWrites session.setting (session.course message)

/-- What the active run has written after messages, where it has written `earlier` before them; of a
run that is over nothing is left. -/
def journal (session : Session σ) (earlier : List Write) : List Message → List Write
  | [] => earlier
  | message :: rest =>
    let later := (session.receive message).session
    later.journal (if later.isRunning then earlier ++ session.writes message else []) rest

/-- The journal of a session: the variables of the active run are those that it lists, and it is
empty where no run is active. -/
structure Journaled (session : Session σ) (earlier : List Write) : Prop where
  idle : session.run = none → earlier = []
  vars : ∀ run, session.run = some run → run.vars = run.since earlier

/-- A loop binds as the origin of its run says. -/
theorem lasting_binds (session : Session σ) : session.Lasting Run.Binds where
  start _ := by rintro _ ⟨⟩
  called _ h := h
  replied result _ h := Run.binds_replied h result
  round _ h := Run.binds_round h

theorem journaled_idle (h : session.run = none) : session.Journaled [] :=
  ⟨fun _ => rfl, fun run hrun => by cases h.symm.trans hrun⟩

/-- The journal of a transition is that of its run, if the run goes on. -/
theorem journaled_follow {transition : Transition} {writes : List Write}
    (h : transition.run.vars = transition.run.since writes) :
    let later := (session.follow transition).session
    later.Journaled (if later.isRunning then writes else []) := by
  cases hdispatch : transition.dispatch with
  | some dispatch =>
    simp only [follow, hdispatch, isRunning, Option.isSome_some, if_true]
    refine ⟨by rintro ⟨⟩, ?_⟩
    rintro _ ⟨⟩
    exact h
  | none =>
    have hidle : (session.finish transition.run).session.run = none := run_finish ..
    simp only [follow, hdispatch, Reaction.announce, isRunning, hidle, Option.isSome_none,
      Bool.false_eq_true, if_false]
    exact journaled_idle hidle

/-- A message that leaves the run under way as it is leaves its journal. -/
theorem journaled_kept {later : Session σ} {earlier : List Write}
    (h : ∀ run, later.run = some run → run.vars = run.since earlier) :
    later.Journaled (if later.isRunning then earlier ++ [] else []) := by
  cases hrun : later.run with
  | none =>
    simp only [isRunning, hrun, Option.isSome_none, Bool.false_eq_true, if_false]
    exact journaled_idle hrun
  | some run =>
    simp only [isRunning, hrun, Option.isSome_some, if_true, List.append_nil]
    refine ⟨fun hnone => ?_, h⟩
    cases hnone.symm.trans hrun

/-- A message keeps the journal. -/
theorem journaled_receive {earlier : List Write} (h : session.AtRest)
    (hbinds : session.Has Run.Binds) (hjournal : session.Journaled earlier) (message : Message) :
    let later := (session.receive message).session
    later.Journaled (if later.isRunning then earlier ++ session.writes message else []) := by
  have hmoves := moves_receive h message
  unfold writes
  generalize session.course message = course at hmoves
  generalize session.receive message = reaction at hmoves
  cases hmoves with
  | ignored => exact journaled_kept hjournal.vars
  | @called run _ _ active =>
    have hvars := hjournal.vars run active
    refine journaled_kept ?_
    rintro _ ⟨⟩
    exact hvars
  | began accepts =>
    have hstart := (lasting_binds session).start accepts
    rw [hjournal.idle accepts.idle]
    exact journaled_follow (Run.since_advance hstart rfl)
  | @ended run closed pending reply notices =>
    have hidle : (session.finish closed).session.run = none := run_finish ..
    simp only [Reaction.map, Reaction.announce, isRunning, hidle, Option.isSome_none,
      Bool.false_eq_true, if_false]
    exact journaled_idle hidle
  | @resumed run pending reply result active =>
    have hgo := Run.binds_replied (hbinds _ active) result
    exact journaled_follow (Run.since_advance hgo (Run.since_replied (hjournal.vars _ active) _))

/-- Before each round that is taken while a message is handled, the variables of the run are those
of its journal so far. -/
theorem journaled_course {earlier : List Write} (h : session.AtRest)
    (hbinds : session.Has Run.Binds) (hjournal : session.Journaled earlier) {message : Message}
    {before after : List (Run × Round)} {taken : Run × Round}
    (hcourse : session.course message = before ++ taken :: after) :
    taken.1.vars = taken.1.since (earlier ++ Run.courseWrites session.setting before) := by
  have hmoves := moves_receive h message
  generalize session.course message = course at hmoves hcourse
  generalize session.receive message = reaction at hmoves
  cases hmoves with
  | ignored => simp at hcourse
  | called => simp at hcourse
  | began accepts =>
    have hstart := (lasting_binds session).start accepts
    rw [hjournal.idle accepts.idle]
    exact Run.since_course hstart rfl hcourse
  | ended => simp at hcourse
  | @resumed run pending reply result active =>
    have hgo := Run.binds_replied (hbinds _ active) result
    exact Run.since_course hgo (Run.since_replied (hjournal.vars _ active) _) hcourse

/-- The requests that a message makes the run write are those that it asks for. -/
theorem dispatches_writes (h : session.AtRest) (message : Message) :
    (session.writes message).filterMap Write.dispatch? =
      (asked? (session.receive message).answer).toList := by
  rw [writes, Run.dispatches_courseWrites, asked_receive h message]

/-- No token is used up where no request is asked for. -/
theorem nextToken_of_quiet (h : session.AtRest) {message : Message}
    (quiet : asked? (session.receive message).answer = none) :
    (session.receive message).session.nextToken = session.nextToken := by
  have hcounts := token_receive h message
  have hnone : sentToken? (session.receive message).answer = none := by
    generalize (session.receive message).answer = answer at quiet
    rcases answer with fault | (dispatch | report | _)
    · rfl
    · cases quiet
    · rfl
    · rfl
  rw [hnone] at hcounts
  cases hcounts with
  | kept next => exact next

theorem journaled_after {earlier : List Write} (h : session.AtRest)
    (hbinds : session.Has Run.Binds) (hjournal : session.Journaled earlier)
    (messages : List Message) :
    (session.after messages).Journaled (session.journal earlier messages) := by
  induction messages generalizing session earlier with
  | nil => exact hjournal
  | cons message rest ih =>
    exact ih (atRest_receive session message h) ((lasting_binds session).receive h hbinds message)
      (journaled_receive h hbinds hjournal message)

/-- What a round does with variables. The environment of the run has those that the document
declares under its name, a blank name none. The round passes or tries the step under way; without a
request it does no more than begin an item; with a request go the values of all names, and those of
the step become variables of the run. -/
structure Flows (document : Document) (setting : Setting) (token : Nat) (taken : Run × Round) :
    Prop where
  declared : Text.isBlankText taken.1.environment = true ∧ taken.1.environmentVars = .empty ∨
    Text.isBlankText taken.1.environment = false ∧
      document.environments.get? (Text.trimmed taken.1.environment) =
        some taken.1.environmentVars
  enters : taken.1.Enters setting token taken.2
  silent : taken.2.dispatch? = none →
    taken.2.run.vars = taken.1.itemVars ∧ taken.2.run.pending = taken.1.pending
  sends : ∀ dispatch, taken.2.dispatch? = some dispatch →
    taken.1.Sends setting dispatch (taken.1.stepLayer setting dispatch.request) ∧
      taken.2.run.vars = taken.1.itemVars.overlay (taken.1.stepLayer setting dispatch.request)

theorem flows_course (h : session.AtRest) (hplanned : session.Has session.Planned)
    (hbinds : session.Has Run.Binds) {message : Message} {taken : Run × Round}
    (htaken : taken ∈ session.course message) :
    Flows session.document session.setting session.nextToken taken := by
  obtain ⟨hgood, -⟩ := (lasting_planned session).course h hplanned htaken
  obtain ⟨hbind, hround⟩ := (lasting_binds session).course h hbinds htaken
  refine ⟨environmentVariables_eq_ok_iff.1 hgood.declared, ?_, ?_, ?_⟩
  · rw [hround]
    exact Run.enters_round hbind
  · rw [hround]
    exact Run.silent_round hbind
  · rw [hround]
    exact fun dispatch sent => Run.sends_round hbind sent

/-- A workflow starts with the values of its options for variables. At any time the variables of a
run are those its workflow starts with, and over them the items that have been begun, where the run
came about by the name of a workflow, and the variables of the steps whose requests have gone out.
With each request the names have the values of the strongest layer that has them; the variables of
its step are filled in with what is in scope without them, in whatever order they are. A step whose
variables cannot be filled in fails, and nothing else comes of it. -/
theorem variables_flow (document : Document) (evaluator : Evaluator)
    (recorder : Option (Recorder σ)) (store : σ) :
    let fresh := new document evaluator recorder store
    let setting : Setting := { vars := document.vars, requests := document.requestIndex, evaluator }
    (∀ (workflow : Workflow) (name : String), workflow.initialVariables.get? name =
      if name = "" then none else workflow.options.get? ("vars." ++ name)) ∧
    (∀ messages run, (fresh.after messages).run = some run →
      run.vars = run.since (fresh.journal [] messages)) ∧
    (∀ messages message before taken after,
      (fresh.after messages).course message = before ++ taken :: after →
        taken.1.vars = taken.1.since
          (fresh.journal [] messages ++ Run.courseWrites setting before) ∧
        Flows document setting (fresh.after messages).nextToken taken) ∧
    (∀ messages message,
      ((fresh.after messages).writes message).filterMap Write.dispatch? =
          (asked? ((fresh.after messages).receive message).answer).toList ∧
        (asked? ((fresh.after messages).receive message).answer = none →
          ((fresh.after messages).receive message).session.nextToken =
            (fresh.after messages).nextToken)) ∧
    (∀ scope texts permuted layer : TextMap, permuted.entries.Perm texts.entries →
      Template.renderMap scope texts = .ok layer →
        ∃ other, Template.renderMap scope permuted = .ok other ∧
          ∀ name, other.get? name = layer.get? name) ∧
    ∀ (run : Run) (token : Nat) (request : Request) (texts loopVars : TextMap)
      (position : Position) (name text : String), texts.get? name = some text →
        (∀ value, Template.render (run.scope setting (some request) .empty loopVars) text ≠
          .ok value) →
        ∃ result, result.status = .failed ∧ result.Early run position ∧
          let attempt := run.attemptSend setting token request texts loopVars position
          let round := attempt.round Run.goOn
          round.dispatch? = none ∧ round.run.results = run.results ++ [result] ∧
            round.run.vars = run.vars ∧ round.run.pending = run.pending := by
  intro fresh setting
  have hrest (messages : List Message) : (fresh.after messages).AtRest :=
    atRest_after document evaluator recorder store messages
  have hdocument (messages : List Message) : (fresh.after messages).document = document :=
    document_after fresh messages
  have hsetting (messages : List Message) : (fresh.after messages).setting = setting :=
    setting_after fresh messages
  have hplanned (messages : List Message) :
      (fresh.after messages).Has (fresh.after messages).Planned :=
    planned_after (atRest_of_idle rfl) (by rintro _ ⟨⟩) messages
  have hbinds (messages : List Message) : (fresh.after messages).Has Run.Binds :=
    has_after lasting_binds (atRest_of_idle rfl) (by rintro _ ⟨⟩) messages
  have hjournal (messages : List Message) :
      (fresh.after messages).Journaled (fresh.journal [] messages) :=
    journaled_after (atRest_of_idle rfl) (by rintro _ ⟨⟩) (journaled_idle rfl) messages
  refine ⟨Workflow.get?_initialVariables, fun messages run hrun => ?_,
    fun messages message before taken after hcourse => ⟨?_, ?_⟩,
    fun messages message => ⟨?_, ?_⟩, ?_, ?_⟩
  · exact (hjournal messages).vars run hrun
  · have hvars := journaled_course (hrest messages) (hbinds messages) (hjournal messages) hcourse
    rwa [hsetting] at hvars
  · have htaken : taken ∈ (fresh.after messages).course message := by
      rw [hcourse]
      exact List.mem_append_right before List.mem_cons_self
    have hflows := flows_course (hrest messages) (hplanned messages) (hbinds messages) htaken
    rwa [hdocument, hsetting] at hflows
  · exact dispatches_writes (hrest messages) message
  · exact nextToken_of_quiet (hrest messages)
  · exact fun _ _ _ _ hperm hlayer => Template.renderMap_of_perm hperm hlayer
  · intro run token request texts loopVars position name text htext hunfilled
    obtain ⟨result, hattempt, hfailed, hearly⟩ : ∃ result,
        run.attemptSend setting token request texts loopVars position = .settled run result ∧
          result.status = .failed ∧ result.Early run position :=
      Run.attemptSend_of_unfilled htext hunfilled
    refine ⟨result, hfailed, hearly, ?_⟩
    intro attempt
    rw [show attempt = .settled run result from hattempt]
    exact Run.round_settled run result

/-- A step fails whose variable stands for a name that nothing defines. -/
theorem variables_flow_unfilled :
    let go : Request := { name := "go", url := "http://host/go" }
    let texts : TextMap := .ofList [("who", "{{missing}}")]
    let setting := Document.setting { requests := [go] } evaluate
    let run := Run.start { name := "check", steps := [.request { target := "go", vars := texts }] }
      .workflow "" .empty
    Template.render (run.scope setting (some go) .empty .empty) "{{missing}}" =
        .error ⟨"missing"⟩ ∧
      ∃ result, result.status = .failed ∧ result.Early run .none ∧
        let round := (run.attemptSend setting 1 go texts .empty .none).round Run.goOn
        round.dispatch? = none ∧ round.run.results = [result] ∧ round.run.vars = run.vars ∧
          round.run.pending = none := by
  intro go texts setting run
  have hmissing : Template.render (run.scope setting (some go) .empty .empty) "{{missing}}" =
    .error ⟨"missing"⟩ := by decide +kernel
  obtain ⟨-, -, -, -, -, hfails⟩ :=
    variables_flow { requests := [go] } evaluate (none : Option (Recorder Unit)) ()
  have hunfilled (value : String) :
      Template.render (run.scope setting (some go) .empty .empty) "{{missing}}" ≠ .ok value := by
    rw [hmissing]
    rintro ⟨⟩
  exact ⟨hmissing, hfails run 1 go texts .empty .none "who" "{{missing}}" rfl hunfilled⟩

end Session

end RequestFlow
