import RequestFlow.Proofs.Run.Ending
import RequestFlow.Proofs.Session.Stages

/-!
# What reports say

The report on a run is written when the run is over, from what is left of it then: the results, the
flags of a cancellation and of a stop, and the policies of the workflow. All of these agree: the
counts and the outcome are those of the results, and the summary tells how the run ended and by
which result.

* `Report.Agrees`: a report that agrees with the results it holds and with its workflow;
* `Run.agrees_report`: the report on a run that is over does;
* `Session.reports_agree`: all of this, for every session that can be reached.
-/

namespace RequestFlow

/-- What a summary says after its subject. -/
inductive Conclusion where
  | failed | finished | succeeded | canceled
deriving DecidableEq

/-- The words with which a summary goes on after its subject. -/
def Conclusion.words : Conclusion → String
  | failed => " failed at step "
  | finished => " finished with "
  | succeeded => " succeeded: "
  | canceled => " canceled at step "

/-- The number of results of a status. -/
def Counts.of (counts : Counts) : Status → Nat
  | .succeeded => counts.succeeded
  | .failed => counts.failed
  | .skipped => counts.skipped
  | .canceled => counts.canceled

namespace Report

/-- What a report calls its run. -/
def subject (report : Report) : String :=
  (match report.origin with
    | .workflow => "workflow"
    | .request => "for-each") ++ " '" ++ report.workflowName ++ "'"

/-- The summary has the form of a conclusion. -/
def Concludes (report : Report) (conclusion : Conclusion) : Prop :=
  ∃ rest, report.summary = report.subject ++ conclusion.words ++ rest

/-- The last result is a failure of a step that stops the run, and the failures before it are of
steps that do not. -/
structure StoppedBy (report : Report) (workflow : Workflow) (last : Result) : Prop where
  isLast : report.results.getLast? = some last
  status : last.status = .failed
  policy : workflow.HasPolicy last.step .stop
  earlier : ∀ result ∈ report.results.dropLast, result.status = .failed →
    workflow.HasPolicy result.step .proceed

/-- The report agrees with its results, and with the workflow that ran. -/
structure Agrees (report : Report) (workflow : Workflow) : Prop where
  count : ∀ status, report.counts.of status =
    report.results.countP fun result => result.status == status
  total : report.counts.succeeded + report.counts.failed + report.counts.skipped +
    report.counts.canceled = report.results.length
  canceled : report.outcome = .canceled ↔
    ∃ last, report.results.getLast? = some last ∧ last.status = .canceled
  once : ∀ result ∈ report.results.dropLast, result.status ≠ .canceled
  failed : report.outcome ≠ .canceled →
    (report.outcome = .failed ↔ ∃ result ∈ report.results, result.status = .failed)
  succeeded : report.outcome ≠ .canceled →
    (report.outcome = .succeeded ↔ ∀ result ∈ report.results, result.status ≠ .failed)
  tellsFailed : report.Concludes .failed ↔ ∃ last, report.StoppedBy workflow last
  failedText : ∀ last, report.StoppedBy workflow last →
    report.summary = report.subject ++ " failed at step " ++ toString (last.step + 1) ++ "/" ++
      toString workflow.steps.length ++ " (" ++ last.label ++ "): " ++ last.message
  tellsFinished : report.Concludes .finished ↔
    0 < report.counts.failed ∧ report.outcome ≠ .canceled ∧
      ∀ result ∈ report.results, result.status = .failed → workflow.HasPolicy result.step .proceed
  finishedText : report.Concludes .finished →
    report.summary = report.subject ++ " finished with " ++ toString report.counts.failed ++
      (if report.counts.failed = 1 then " failure: " else " failures: ") ++ Run.passed report.counts
  tellsSucceeded : report.Concludes .succeeded ↔
    ∀ result ∈ report.results, result.status ≠ .failed ∧ result.status ≠ .canceled
  /-- Every step of a run that was neither canceled nor stopped has a result. -/
  covered : report.outcome ≠ .canceled → (∀ last, ¬ report.StoppedBy workflow last) →
    ∀ index < workflow.steps.length, ∃ result ∈ report.results, result.step = index

/-! ## Conclusions -/

/-- A summary has the form of one conclusion only: they differ in the first letters. -/
theorem Concludes.unique {report : Report} {first second : Conclusion}
    (h : report.Concludes first) (h' : report.Concludes second) : first = second := by
  obtain ⟨rest, hrest⟩ := h
  obtain ⟨rest', hrest'⟩ := h'
  have happend : first.words.toList ++ rest.toList = second.words.toList ++ rest'.toList := by
    have hsame := congrArg String.toList (hrest.symm.trans hrest')
    simp only [String.toList_append, List.append_assoc] at hsame
    exact List.append_cancel_left hsame
  have hletters := congrArg (List.take 3) happend
  have htake (conclusion : Conclusion) (cs : List Char) :
      (conclusion.words.toList ++ cs).take 3 = conclusion.words.toList.take 3 := by
    cases conclusion <;> rfl
  rw [htake, htake] at hletters
  revert hletters
  cases first <;> cases second <;> decide

theorem Concludes.not {report : Report} {first second : Conclusion} (h : report.Concludes first)
    (hne : first ≠ second) : ¬ report.Concludes second := fun h' => hne (h.unique h')

end Report

/-! ## Counts -/

theorem Counts.of_ofResults (results : List Result) (status : Status) :
    (Counts.ofResults results).of status =
      results.countP fun result => result.status == status := by
  cases status <;> rfl

/-- Every result is counted once. -/
theorem Counts.total_ofResults (results : List Result) :
    (Counts.ofResults results).succeeded + (Counts.ofResults results).failed +
      (Counts.ofResults results).skipped + (Counts.ofResults results).canceled =
        results.length := by
  induction results with
  | nil => rfl
  | cons result rest ih =>
    simp only [Counts.ofResults, List.countP_cons, List.length_cons] at ih ⊢
    cases result.status <;> simp <;> omega

/-- There is a failure if and only if the count of failures says so. -/
theorem Counts.failed_pos_iff (results : List Result) :
    0 < (Counts.ofResults results).failed ↔ ∃ result ∈ results, result.status = .failed := by
  simp [Counts.ofResults, List.countP_pos_iff]

namespace Run

variable {run : Run} {document : Document}

theorem outcome_of_plain (h : run.cancellation = none) :
    run.outcome = if 0 < run.counts.failed then .failed else .succeeded := by
  simp [outcome, isCanceled, h]

/-- Of a run that was not canceled the outcome is a failure if a result is. -/
theorem outcome_failed_iff (h : run.cancellation = none) :
    run.outcome = .failed ↔ ∃ result ∈ run.results, result.status = .failed := by
  rw [← Counts.failed_pos_iff, outcome_of_plain h]
  show _ ↔ 0 < run.counts.failed
  split <;> simp_all

theorem outcome_succeeded_iff (h : run.cancellation = none) :
    run.outcome = .succeeded ↔ ∀ result ∈ run.results, result.status ≠ .failed := by
  have hnone : ¬ 0 < run.counts.failed ↔ ∀ result ∈ run.results, result.status ≠ .failed := by
    rw [counts, Counts.failed_pos_iff]
    simp
  rw [← hnone, outcome_of_plain h]
  split <;> simp_all

theorem outcome_ne_canceled (h : run.cancellation = none) : run.outcome ≠ .canceled := by
  rw [outcome_of_plain h]
  split <;> simp

/-! ## The report on a run that is over -/

/-- The last failure of results that end in one is that one. -/
theorem find?_reverse_failure {before : List Result} {last : Result}
    (h : last.status = .failed) :
    (before ++ [last]).reverse.find? Result.isFailure = some last := by
  rw [List.reverse_append, List.reverse_singleton, List.singleton_append, List.find?_cons_of_pos]
  simp [Result.isFailure, h]

theorem concludes_canceled {cancellation : Cancellation}
    (h : run.cancellation = some cancellation) : (run.report document).Concludes .canceled := by
  refine ⟨toString (min (cancellation.step.getD run.index) (run.stepCount - 1) + 1) ++
    ("/" ++ (toString run.stepCount ++ (" (" ++ (cancellation.reason.getD "canceled by user" ++
      ")")))), ?_⟩
  show run.summary = run.subject ++ " canceled at step " ++ _
  simp only [summary, h, canceledSummary, String.append_assoc]

theorem agrees_of_canceled {before : List Result} {last : Result} (called : run.isCanceled = true)
    (results : run.results = before ++ [last]) (status : last.status = .canceled)
    (survived : run.workflow.Survives before) : (run.report document).Agrees run.workflow := by
  obtain ⟨cancellation, hcancellation⟩ := Option.isSome_iff_exists.1 called
  have hlast : (run.report document).results.getLast? = some last := by
    show run.results.getLast? = some last
    rw [results, List.getLast?_concat]
  have hbefore : (run.report document).results.dropLast = before := by
    show run.results.dropLast = before
    rw [results, List.dropLast_concat]
  have houtcome : (run.report document).outcome = .canceled := by
    show run.outcome = .canceled
    rw [outcome, if_pos called]
  have htells : (run.report document).Concludes .canceled := concludes_canceled hcancellation
  have hnot (last' : Result) : ¬ (run.report document).StoppedBy run.workflow last' := by
    intro hstopped
    cases hlast.symm.trans hstopped.isLast
    cases status.symm.trans hstopped.status
  refine {
    count := Counts.of_ofResults run.results
    total := Counts.total_ofResults run.results
    canceled := iff_of_true houtcome ⟨last, hlast, status⟩
    once := hbefore ▸ survived.canceled
    failed := fun h => (h houtcome).elim
    succeeded := fun h => (h houtcome).elim
    tellsFailed := iff_of_false (htells.not (by decide)) fun ⟨_, h⟩ => hnot _ h
    failedText := fun _ h => (hnot _ h).elim
    tellsFinished := iff_of_false (htells.not (by decide)) fun h => h.2.1 houtcome
    finishedText := fun h => (htells.not (by decide) h).elim
    tellsSucceeded := iff_of_false (htells.not (by decide)) fun h => ?_
    covered := fun h => (h houtcome).elim }
  exact (h last (List.mem_of_getLast? hlast)).2 status

theorem agrees_of_stopped {before : List Result} {last : Result} (plain : run.cancellation = none)
    (results : run.results = before ++ [last]) (status : last.status = .failed)
    (policy : run.workflow.HasPolicy last.step .stop) (place : run.stoppedAt = some last.step)
    (survived : run.workflow.Survives before) : (run.report document).Agrees run.workflow := by
  have hlast : (run.report document).results.getLast? = some last := by
    show run.results.getLast? = some last
    rw [results, List.getLast?_concat]
  have hmem : last ∈ run.results := List.mem_of_getLast? hlast
  have hbefore : (run.report document).results.dropLast = before := by
    show run.results.dropLast = before
    rw [results, List.dropLast_concat]
  have hstopped : (run.report document).StoppedBy run.workflow last :=
    ⟨hlast, status, policy, hbefore ▸ survived.failed⟩
  have htext : run.summary = run.subject ++ " failed at step " ++ toString (last.step + 1) ++ "/" ++
      toString run.workflow.steps.length ++ " (" ++ last.label ++ "): " ++ last.message := by
    simp only [summary, plain, place, stoppedSummary, results, find?_reverse_failure status]
    rfl
  have htells : (run.report document).Concludes .failed := by
    refine ⟨toString (last.step + 1) ++ ("/" ++ (toString run.workflow.steps.length ++
      (" (" ++ (last.label ++ ("): " ++ last.message))))), ?_⟩
    show run.summary = run.subject ++ " failed at step " ++ _
    simp only [htext, String.append_assoc]
  have hstop : ¬ run.workflow.HasPolicy last.step .proceed := by
    obtain ⟨step, hstep, hpolicy⟩ := policy
    rintro ⟨step', hstep', hpolicy'⟩
    cases hstep.symm.trans hstep'
    cases hpolicy.symm.trans hpolicy'
  refine {
    count := Counts.of_ofResults run.results
    total := Counts.total_ofResults run.results
    canceled := iff_of_false (outcome_ne_canceled plain) fun ⟨last', hlast', hcanceled⟩ => ?_
    once := hbefore ▸ survived.canceled
    failed := fun _ => outcome_failed_iff plain
    succeeded := fun _ => outcome_succeeded_iff plain
    tellsFailed := iff_of_true htells ⟨last, hstopped⟩
    failedText := fun last' h => ?_
    tellsFinished := iff_of_false (htells.not (by decide)) fun h =>
      hstop (h.2.2 last hmem status)
    finishedText := fun h => (htells.not (by decide) h).elim
    tellsSucceeded := iff_of_false (htells.not (by decide)) fun h => (h last hmem).1 status
    covered := fun _ h => (h last hstopped).elim }
  · cases hlast.symm.trans hlast'
    cases status.symm.trans hcanceled
  · cases hlast.symm.trans h.isLast
    exact htext

theorem concludes_finished (h : run.summary = run.completedSummary)
    (hfailed : 0 < run.counts.failed) : (run.report document).Concludes .finished := by
  refine ⟨toString run.counts.failed ++
    ((if run.counts.failed = 1 then " failure: " else " failures: ") ++ passed run.counts), ?_⟩
  show run.summary = _
  rw [h, completedSummary, if_pos hfailed, String.append_assoc, String.append_assoc]
  rfl

theorem concludes_succeeded (h : run.summary = run.completedSummary)
    (hfailed : ¬ 0 < run.counts.failed) : (run.report document).Concludes .succeeded := by
  refine ⟨passed run.counts ++
    (if run.counts.skipped = 0 then "" else ", " ++ toString run.counts.skipped ++ " skipped"), ?_⟩
  show run.summary = _
  rw [h, completedSummary, if_neg hfailed, ← String.append_assoc]
  rfl

theorem agrees_of_completed (plain : run.cancellation = none) (free : run.stoppedAt = none)
    (survived : run.workflow.Survives run.results)
    (covered : ∀ index < run.stepCount, run.HasResult index) :
    (run.report document).Agrees run.workflow := by
  have hnot (last : Result) : ¬ (run.report document).StoppedBy run.workflow last := by
    rintro ⟨hlast, status, ⟨step, hstep, hpolicy⟩, -⟩
    obtain ⟨step', hstep', hpolicy'⟩ := survived.failed last (List.mem_of_getLast? hlast) status
    cases hstep.symm.trans hstep'
    cases hpolicy.symm.trans hpolicy'
  have hsummary : run.summary = run.completedSummary := by simp only [summary, plain, free]
  have hpositive : 0 < run.counts.failed ↔ ∃ result ∈ run.results, result.status = .failed :=
    Counts.failed_pos_iff run.results
  -- The one conclusion that the summary has decides which others it does not have.
  obtain ⟨hfailed, hfinished, hsucceeded⟩ :
      ¬ (run.report document).Concludes .failed ∧
        ((run.report document).Concludes .finished ↔ 0 < run.counts.failed) ∧
        ((run.report document).Concludes .succeeded ↔ ¬ 0 < run.counts.failed) := by
    by_cases hsome : 0 < run.counts.failed
    · have htells : (run.report document).Concludes .finished := concludes_finished hsummary hsome
      exact ⟨htells.not (by decide), iff_of_true htells hsome,
        iff_of_false (htells.not (by decide)) (not_not_intro hsome)⟩
    · have htells : (run.report document).Concludes .succeeded :=
        concludes_succeeded hsummary hsome
      exact ⟨htells.not (by decide), iff_of_false (htells.not (by decide)) hsome,
        iff_of_true htells hsome⟩
  exact {
    count := Counts.of_ofResults run.results
    total := Counts.total_ofResults run.results
    canceled := iff_of_false (outcome_ne_canceled plain) fun ⟨last, hlast, hcanceled⟩ =>
      survived.canceled last (List.mem_of_getLast? hlast) hcanceled
    once := fun result hmem => survived.canceled result (List.dropLast_subset _ hmem)
    failed := fun _ => outcome_failed_iff plain
    succeeded := fun _ => outcome_succeeded_iff plain
    tellsFailed := iff_of_false hfailed fun ⟨last, h⟩ => hnot last h
    failedText := fun last h => (hnot last h).elim
    tellsFinished := hfinished.trans
      ⟨fun h => ⟨h, outcome_ne_canceled plain, survived.failed⟩, fun h => h.1⟩
    finishedText := fun h => by
      show run.summary = _
      rw [hsummary, completedSummary, if_pos (hfinished.1 h)]
      rfl
    tellsSucceeded := by
      rw [hsucceeded, hpositive]
      exact ⟨fun h result hmem => ⟨fun hstatus => h ⟨result, hmem, hstatus⟩,
        survived.canceled result hmem⟩, fun h ⟨result, hmem, hstatus⟩ => (h result hmem).1 hstatus⟩
    covered := fun _ _ => covered }

/-- The report on a run that is over agrees with what happened. -/
theorem agrees_report (ended : run.Over) (document : Document) :
    (run.report document).Agrees run.workflow := by
  cases ended with
  | canceled called results status survived =>
    exact agrees_of_canceled called results status survived
  | stopped plain results status policy place survived =>
    exact agrees_of_stopped plain results status policy place survived
  | completed plain free survived covered => exact agrees_of_completed plain free survived covered

end Run

/-! ## The reports of a session -/

namespace Session

variable {σ : Type}

/-- Every report that a session brings is that of a workflow that ran to its end, and agrees with
what happened: its counts and its outcome are those of its results, its summary tells how the run
ended and by which result, and where the run was neither canceled nor stopped every step has a
result. -/
theorem reports_agree (document : Document) (evaluator : Evaluator)
    (recorder : Option (Recorder σ)) (store : σ) (messages : List Message) :
    let fresh := new document evaluator recorder store
    (fresh.endings messages).map Ending.report = (fresh.answers messages).filterMap reported? ∧
      ∀ ending ∈ fresh.endings messages, ending.report.Agrees ending.workflow := by
  intro fresh
  have hrest : fresh.AtRest := atRest_of_idle rfl
  have hplanned : fresh.Has fresh.Planned := by rintro _ ⟨⟩
  have haccount : fresh.Has Run.Accounted := by rintro _ ⟨⟩
  refine ⟨endings_reported hrest hplanned messages, fun ending hmem => ?_⟩
  obtain ⟨closed, hover, rfl⟩ := Stages.accounts_lead.endings hrest haccount messages ending hmem
  exact Run.agrees_report hover document

end Session

end RequestFlow
