import RequestFlow.History.Entry
import RequestFlow.Run.Dispatch
import RequestFlow.Workflow.Directives

/-!
# The report on a run

What is told about a run that is over: a line, a text with a line for each result, and the entry
that goes into the history. A run that was started by the name of a request leaves no entry. What
a clock would say stands as `<time>` or `<wall>`; an entry is dated at the epoch.

* `Run.report`: the report;
* `Run.finalize`: ends a run, at most once.
-/

namespace RequestFlow

/-- The report on a run. -/
structure Report where
  workflowName : String
  workflowId : String
  origin : Origin
  environment : String
  outcome : Outcome
  /-- The run in one line. -/
  summary : String
  text : String
  counts : Counts
  results : List Result
deriving DecidableEq

/-- Keeps an entry in a store, and says whether it could. -/
abbrev Recorder (σ : Type) := Entry → σ → σ × Bool

/-- The mark of a status in a report. -/
def Status.mark : Status → String
  | succeeded => "[ok]  "
  | failed => "[FAIL]"
  | skipped => "[skip]"
  | canceled => "[stop]"

/-- The request of a result, where it is not what the step is called. -/
def Result.requestNote (result : Result) : String :=
  match result.request with
  | none => ""
  | some request => if request = result.label then "" else " -> " ++ request

/-- The line of a result. -/
def Result.line (result : Result) : String :=
  result.status.mark ++ " " ++ toString (result.step + 1) ++ ". " ++ result.label ++
    Run.progress result.position ++
    (match result.branch with
      | none => ""
      | some branch => " <" ++ branch ++ ">") ++
    result.requestNote ++ " " ++ result.statusText ++
    (if result.status = .skipped then "" else " (" ++ result.duration.text ++ " ms)") ++
    (if result.message = "" then "" else " - " ++ result.message)

namespace Run

/-- How a run ended. -/
def outcome (run : Run) : Outcome :=
  if run.isCanceled then .canceled
  else if 0 < run.counts.failed then .failed
  else .succeeded

/-- What a report calls the run. -/
def subject (run : Run) : String :=
  (match run.origin with
    | .workflow => "workflow"
    | .request => "for-each") ++ " '" ++ run.workflow.name ++ "'"

/-- The summary of a run that was canceled. -/
def canceledSummary (run : Run) (cancellation : Cancellation) : String :=
  let step := min (cancellation.step.getD run.index) (run.stepCount - 1) + 1
  run.subject ++ " canceled at step " ++ toString step ++ "/" ++ toString run.stepCount ++
    " (" ++ cancellation.reason.getD "canceled by user" ++ ")"

/-- The summary of a run that a failure stopped: the last failure is the one. -/
def stoppedSummary (run : Run) (stoppedAt : Nat) : String :=
  let failure := run.results.reverse.find? Result.isFailure
  run.subject ++ " failed at step " ++ toString (stoppedAt + 1) ++ "/" ++
    toString run.stepCount ++ " (" ++ (failure.map Result.label).getD "" ++ "): " ++
    (failure.map Result.message).getD ""

/-- How many of the results that are not skips are successes. -/
def passed (counts : Counts) : String :=
  toString counts.succeeded ++ "/" ++ toString counts.attempted ++ " passed"

/-- The summary of a run that went through all its steps. -/
def completedSummary (run : Run) : String :=
  let counts := run.counts
  if 0 < counts.failed then
    run.subject ++ " finished with " ++ toString counts.failed ++
      (if counts.failed = 1 then " failure: " else " failures: ") ++ passed counts
  else
    run.subject ++ " succeeded: " ++ passed counts ++
      (if counts.skipped = 0 then "" else ", " ++ toString counts.skipped ++ " skipped")

/-- The run in one line. -/
def summary (run : Run) : String :=
  match run.cancellation with
  | some cancellation => run.canceledSummary cancellation
  | none =>
    match run.stoppedAt with
    | some stoppedAt => run.stoppedSummary stoppedAt
    | none => run.completedSummary

/-- The lines in front of the results. -/
def reportHeader (run : Run) : List String :=
  ["Workflow: " ++ run.workflow.name,
    "Environment: " ++ (if run.environment = "" then "(none)" else run.environment),
    "Started: <time>",
    "Duration: " ++ Duration.elapsed.text ++ " ms",
    "Outcome: " ++ run.outcome.text,
    "Summary: " ++ run.summary,
    ""]

/-- The line of totals. -/
def totals (counts : Counts) : String :=
  "Totals: " ++ toString counts.succeeded ++ " succeeded, " ++ toString counts.failed ++
    " failed, " ++ toString counts.skipped ++ " skipped, " ++ toString counts.canceled ++
    " canceled"

/-- The text of a report. -/
def reportText (run : Run) : String :=
  "\n".intercalate
    (run.reportHeader ++ run.results.map Result.line ++ ["", totals run.counts])

/-- The report on a run of a document's workflow. -/
def report (run : Run) (document : Document) : Report where
  workflowName := run.workflow.name
  workflowId := document.workflowId run.workflow.name
  origin := run.origin
  environment := run.environment
  outcome := run.outcome
  summary := run.summary
  text := run.reportText
  counts := run.counts
  results := run.results

/-- The entry that a run leaves in the history. -/
def entry (run : Run) (document : Document) : Entry where
  executedAt := .epoch
  environment := run.environment
  workflowId := document.workflowId run.workflow.name
  workflowName := run.workflow.name
  outcome := run.outcome
  summary := run.summary
  duration := 0
  report := run.reportText
  definition := run.workflow.directives document.requestIndex

/-- The run without a request or a loop, and over for good. -/
def close (run : Run) : Run := { run with finalized := true, pending := none, loop := none }

/-- The store with the entry of a run; it does not matter whether the entry could be kept. -/
def keep {σ : Type} (run : Run) (document : Document) (recorder : Option (Recorder σ))
    (store : σ) : σ :=
  match run.origin, recorder with
  | .workflow, some recorder => (recorder (run.entry document) store).1
  | _, _ => store

/-- Ends a run: its report and its entry come once. -/
def finalize {σ : Type} (run : Run) (document : Document) (recorder : Option (Recorder σ))
    (store : σ) : Run × Option Report × σ :=
  if run.finalized then (run, none, store)
  else (run.close, some (run.report document), run.keep document recorder store)

end Run

end RequestFlow
