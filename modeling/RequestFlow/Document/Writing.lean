import RequestFlow.Document.Basic
import RequestFlow.Json.Printer

/-!
# Writing documents

A document as JSON, every field of every part in its order, with null for what is left out.
-/

namespace RequestFlow

/-- A map of texts as an object. -/
def TextMap.toJson (m : TextMap) : Json :=
  .object (m.entries.map fun entry => (entry.1, .string entry.2))

/-- Something that may be left out, or null. -/
def Json.orNull {α : Type} (write : α → Json) : Option α → Json
  | none => .null
  | some value => write value

/-- A policy as JSON. -/
def Policy.toJson (policy : Policy) : Json := .string policy.text

/-- A loop as JSON. -/
def LoopSpec.toJson (spec : LoopSpec) : Json :=
  .object [("items", .string spec.items), ("as", .string spec.var)]

/-- A request as JSON. -/
def Request.toJson (request : Request) : Json :=
  .object [("name", .string request.name), ("protocol", .string request.protocol.text),
    ("method", .string request.method), ("url", .string request.url),
    ("headers", request.headers.toJson), ("body", .stringOrNull request.body),
    ("vars", request.vars.toJson), ("for_each", .orNull LoopSpec.toJson request.loop)]

/-- The members of a request step. -/
def RequestStep.members (step : RequestStep) : List (String × Json) :=
  [("name", .stringOrNull step.name), ("using", .string step.target),
    ("when", .stringOrNull step.guard), ("vars", step.vars.toJson),
    ("expect", step.expect.toJson), ("on_failure", .orNull Policy.toJson step.policy)]

/-- The members of an action. -/
def Action.members (action : Action) : List (String × Json) :=
  [("run", .stringOrNull action.run), ("fail", .stringOrNull action.fail)]

/-- An action as JSON. -/
def Action.toJson (action : Action) : Json := .object action.members

/-- A branch as JSON. -/
def ConditionalBranch.toJson (branch : ConditionalBranch) : Json :=
  .object (("cond", .string branch.condition) :: branch.action.members)

/-- A case as JSON. -/
def CaseBranch.toJson (branch : CaseBranch) : Json :=
  .object (("case", .string branch.value) :: branch.action.members)

/-- The members of a conditional step. -/
def ConditionalStep.members (step : ConditionalStep) : List (String × Json) :=
  [("name", .stringOrNull step.name), ("then", .orNull ConditionalBranch.toJson step.primary),
    ("elif", .array (step.alternatives.map ConditionalBranch.toJson)),
    ("else", .orNull Action.toJson step.otherwise), ("vars", step.vars.toJson),
    ("on_failure", .orNull Policy.toJson step.policy)]

/-- The members of a switch step. -/
def SwitchStep.members (step : SwitchStep) : List (String × Json) :=
  [("name", .stringOrNull step.name), ("switch", .string step.subject),
    ("cases", .array (step.cases.map CaseBranch.toJson)),
    ("default", .orNull Action.toJson step.otherwise), ("vars", step.vars.toJson),
    ("on_failure", .orNull Policy.toJson step.policy)]

/-- A step as JSON, its kind in front. -/
def Step.toJson : Step → Json
  | request step => .object (("kind", .string "request") :: step.members)
  | conditional step => .object (("kind", .string "if") :: step.members)
  | switch step => .object (("kind", .string "switch") :: step.members)
  | forEach step loop =>
    .object (("kind", .string "for_each") :: step.members ++
      [("for_each", .orNull LoopSpec.toJson loop)])

/-- A workflow as JSON. -/
def Workflow.toJson (workflow : Workflow) : Json :=
  .object [("name", .string workflow.name), ("description", .stringOrNull workflow.description),
    ("tags", .strings workflow.tags), ("on_failure", workflow.policy.toJson),
    ("options", workflow.options.toJson), ("steps", .array (workflow.steps.map Step.toJson))]

/-- A document as JSON; the file it came from is not written. -/
def Document.toJson (document : Document) : Json :=
  .object [("vars", document.vars.toJson),
    ("environments", .object (document.environments.entries.map fun entry =>
      (entry.1, entry.2.toJson))),
    ("requests", .array (document.requests.map Request.toJson)),
    ("workflows", .array (document.workflows.map Workflow.toJson))]

end RequestFlow
