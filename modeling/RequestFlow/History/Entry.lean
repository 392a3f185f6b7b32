import RequestFlow.Document.Record
import RequestFlow.Json.Printer
import RequestFlow.Redaction
import RequestFlow.Timestamp

/-!
# Entries of the history

What is kept of a run once it is over, as a record and as JSON. Summary, report and definition are
kept without the secrets in them.
-/

namespace RequestFlow

/-- How a run ended. -/
inductive Outcome where
  | succeeded | failed | canceled
deriving DecidableEq, Repr, Inhabited

/-- An outcome as it is written. -/
def Outcome.text : Outcome → String
  | succeeded => "succeeded"
  | failed => "failed"
  | canceled => "canceled"

/-- The outcomes by name. -/
def Outcome.words : List (String × Outcome) :=
  [("succeeded", .succeeded), ("failed", .failed), ("canceled", .canceled)]

/-- What is kept of a run. -/
structure Entry where
  executedAt : Timestamp
  environment : String
  workflowId : String
  workflowName : String
  outcome : Outcome
  summary : String
  /-- How long the run took, in milliseconds. -/
  duration : Nat
  report : String
  /-- The workflow that ran, as directives. -/
  definition : String
deriving DecidableEq, Repr, Inhabited

namespace Entry

/-- The entry without the secrets in its longer texts. -/
def sanitized (entry : Entry) : Entry :=
  { entry with
    summary := redact entry.summary
    report := redact entry.report
    definition := redact entry.definition }

/-- Summary, report and definition have lost their secrets, and all else is as it was. -/
theorem sanitized_eq_iff {entry kept : Entry} :
    entry.sanitized = kept ↔
      (kept.summary = redact entry.summary ∧ kept.report = redact entry.report ∧
        kept.definition = redact entry.definition) ∧
      { kept with
        summary := entry.summary, report := entry.report, definition := entry.definition } =
        entry := by
  cases entry
  cases kept
  simp only [sanitized, mk.injEq]
  constructor
  · rintro ⟨rfl, rfl, rfl, rfl, rfl, rfl, rfl, rfl, rfl⟩
    simp
  · rintro ⟨⟨rfl, rfl, rfl⟩, rfl, rfl, rfl, rfl, rfl, -, rfl, -⟩
    simp

/-- An entry as JSON. -/
def toJson (entry : Entry) : Json :=
  .object [("executed_at", .string entry.executedAt.text),
    ("environment", .string entry.environment), ("workflow_id", .string entry.workflowId),
    ("workflow_name", .string entry.workflowName), ("outcome", .string entry.outcome.text),
    ("summary", .string entry.summary), ("duration_ms", .nat entry.duration),
    ("report", .string entry.report), ("definition", .string entry.definition)]

/-- A moment that is written as a string. -/
def readTime (node : Node) : Content Timestamp := do
  match Timestamp.parse? (← node.text) with
  | some time => return time
  | none => .error .malformed

/-- The fields of an entry. -/
def layout : Layout Entry where
  blank := default
  fields := ["executed_at", "environment", "workflow_id", "workflow_name", "outcome", "summary",
    "duration_ms", "report", "definition"]
  required := ["executed_at", "environment", "workflow_id", "workflow_name", "outcome", "summary",
    "duration_ms", "report", "definition"]
  fill entry field node := do
    match field with
    | "executed_at" => return { entry with executedAt := ← readTime node }
    | "environment" => return { entry with environment := ← node.text }
    | "workflow_id" => return { entry with workflowId := ← node.text }
    | "workflow_name" => return { entry with workflowName := ← node.text }
    | "outcome" => return { entry with outcome := ← node.oneOf true Outcome.words }
    | "summary" => return { entry with summary := ← node.text }
    | "duration_ms" => return { entry with duration := ← node.natural }
    | "report" => return { entry with report := ← node.text }
    | "definition" => return { entry with definition := ← node.text }
    | _ => .error .malformed

/-- The entry that a parsed text describes. -/
def ofNode (node : Node) : Content Entry := layout.read true node

end Entry

end RequestFlow
