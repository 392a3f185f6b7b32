import RequestFlow.Document.Basic
import RequestFlow.Document.Record

/-!
# Reading documents

The fields of a document and of all its parts. A step is taken as a whole before its parts are
looked at: its bare words are the values that they spell, and lists may stand for its records.
-/

namespace RequestFlow

/-- The protocols by name. -/
def Protocol.words : List (String × Protocol) :=
  [("http", .http), ("graphql", .graphql), ("grpc", .grpc)]

/-- The policies by name. -/
def Policy.words : List (String × Policy) := [("stop", .stop), ("continue", .proceed)]

/-- The fields of a loop. -/
def LoopSpec.layout : Layout LoopSpec where
  blank := ⟨"", "item"⟩
  fields := ["items", "as"]
  required := ["items"]
  fill spec field node := do
    match field with
    | "items" => return { spec with items := ← node.text }
    | "as" => return { spec with var := ← node.text }
    | _ => .error .malformed

/-- The fields of a request. -/
def Request.layout (positional : Bool) : Layout Request where
  blank := { name := "", url := "" }
  fields := ["name", "protocol", "method", "url", "headers", "body", "vars", "for_each"]
  required := ["name", "url"]
  fill request field node := do
    match field with
    | "name" => return { request with name := ← node.text }
    | "protocol" => return { request with protocol := ← node.oneOf positional Protocol.words }
    | "method" => return { request with method := ← node.text }
    | "url" => return { request with url := ← node.text }
    | "headers" => return { request with headers := ← node.scalarMap }
    | "body" => return { request with body := ← node.optional Node.text }
    | "vars" => return { request with vars := ← node.scalarMap }
    | "for_each" => return { request with loop := ← node.optional (LoopSpec.layout.read positional) }
    | _ => .error .malformed

/-- The fields of a request step. -/
def RequestStep.layout : Layout RequestStep where
  blank := {}
  fields := ["name", "using", "when", "vars", "expect", "on_failure"]
  required := []
  fill step field node := do
    match field with
    | "name" => return { step with name := ← node.optional Node.text }
    | "using" => return { step with target := ← node.text }
    | "when" => return { step with guard := ← node.optional Node.text }
    | "vars" => return { step with vars := ← node.scalarMap }
    | "expect" => return { step with expect := ← node.scalarMap }
    | "on_failure" => return { step with policy := ← node.optional (Node.oneOf true Policy.words) }
    | _ => .error .malformed

/-- The fields of an action. -/
def Action.layout : Layout Action where
  blank := {}
  fields := ["run", "fail"]
  required := []
  fill action field node := do
    match field with
    | "run" => return { action with run := ← node.optional Node.text }
    | "fail" => return { action with fail := ← node.optional Node.text }
    | _ => .error .malformed

/-- A record with one field of its own whose other members make another record. -/
def Layout.besides {α β : Type} (layout : Layout β) (field : String)
    (read : Option Node → Content α) : Node → Content (α × β)
  | .object members => do
    let own := members.filter fun member => member.1 == field
    if 1 < own.length then .error .malformed
    let value ← read (own.head?.map Prod.snd)
    let rest ← layout.ofMembers (members.filter fun member => member.1 != field)
    return (value, rest)
  | _ => .error .malformed

/-- A member that may not be left out. -/
def Node.required {α : Type} (read : Node → Content α) : Option Node → Content α
  | some node => read node
  | none => .error .malformed

/-- A member that may be left out. -/
def Node.member {α : Type} (read : Node → Content α) : Option Node → Content (Option α)
  | some node => node.optional read
  | none => .ok none

/-- A branch with its condition. -/
def ConditionalBranch.read (node : Node) : Content ConditionalBranch := do
  let (condition, action) ← Action.layout.besides "cond" (Node.required Node.text) node
  return ⟨condition, action⟩

/-- A branch with its value. -/
def CaseBranch.read (node : Node) : Content CaseBranch := do
  let (value, action) ← Action.layout.besides "case" (Node.required Node.text) node
  return ⟨value, action⟩

/-- The fields of a conditional step. -/
def ConditionalStep.layout : Layout ConditionalStep where
  blank := {}
  fields := ["name", "then", "elif", "else", "vars", "on_failure"]
  required := []
  fill step field node := do
    match field with
    | "name" => return { step with name := ← node.optional Node.text }
    | "then" => return { step with primary := ← node.optional ConditionalBranch.read }
    | "elif" => return { step with alternatives := ← node.listOf ConditionalBranch.read }
    | "else" => return { step with otherwise := ← node.optional (Action.layout.read true) }
    | "vars" => return { step with vars := ← node.scalarMap }
    | "on_failure" => return { step with policy := ← node.optional (Node.oneOf true Policy.words) }
    | _ => .error .malformed

/-- The fields of a switch step. -/
def SwitchStep.layout : Layout SwitchStep where
  blank := {}
  fields := ["name", "switch", "cases", "default", "vars", "on_failure"]
  required := ["switch"]
  fill step field node := do
    match field with
    | "name" => return { step with name := ← node.optional Node.text }
    | "switch" => return { step with subject := ← node.text }
    | "cases" => return { step with cases := ← node.listOf CaseBranch.read }
    | "default" => return { step with otherwise := ← node.optional (Action.layout.read true) }
    | "vars" => return { step with vars := ← node.scalarMap }
    | "on_failure" => return { step with policy := ← node.optional (Node.oneOf true Policy.words) }
    | _ => .error .malformed

/-- A request step with its loop. -/
def Step.readForEach (node : Node) : Content Step := do
  let (loop, step) ←
    RequestStep.layout.besides "for_each" (Node.member (LoopSpec.layout.read true)) node
  return .forEach step loop

/-- A step of a kind. -/
def Step.readKind (kind : String) (node : Node) : Content Step :=
  match kind with
  | "request" => (RequestStep.layout.read true node).map .request
  | "if" => (ConditionalStep.layout.read true node).map .conditional
  | "switch" => (SwitchStep.layout.read true node).map .switch
  | "for_each" => Step.readForEach node
  | _ => .error .malformed

/-- A step: a record with its kind among its members, or a list with its kind in front. -/
def Step.read (node : Node) : Content Step :=
  let node := node.settle
  if node.complete then
    match node with
    | .object members =>
      match members.filter fun member => member.1 == "kind" with
      | [(_, .string kind)] =>
        Step.readKind kind (.object (members.filter fun member => member.1 != "kind"))
      | _ => .error .malformed
    | .array (.string kind :: items) => Step.readKind kind (.array items)
    | _ => .error .malformed
  else .error .malformed

/-- The fields of a workflow. -/
def Workflow.layout (positional : Bool) : Layout Workflow where
  blank := { name := "" }
  fields := ["name", "description", "tags", "on_failure", "options", "steps"]
  required := ["name"]
  fill workflow field node := do
    match field with
    | "name" => return { workflow with name := ← node.text }
    | "description" => return { workflow with description := ← node.optional Node.text }
    | "tags" => return { workflow with tags := ← node.listOf Node.text }
    | "on_failure" => return { workflow with policy := ← node.oneOf positional Policy.words }
    | "options" => return { workflow with options := ← node.scalarMap }
    | "steps" => return { workflow with steps := ← node.listOf Step.read }
    | _ => .error .malformed

/-- The fields of a document. -/
def Document.layout (positional : Bool) : Layout Document where
  blank := {}
  fields := ["vars", "environments", "requests", "workflows"]
  required := []
  fill document field node := do
    match field with
    | "vars" => return { document with vars := ← node.scalarMap }
    | "environments" => return { document with environments := ← node.mapOf (Node.mapOf Node.text) }
    | "requests" =>
      return { document with requests := ← node.listOf ((Request.layout positional).read positional) }
    | "workflows" =>
      return { document with workflows := ← node.listOf ((Workflow.layout positional).read positional) }
    | _ => .error .malformed

/-- The document that a parsed text describes; `positional` says that lists may stand for
records, as they may in JSON. -/
def Document.ofNode (positional : Bool) (node : Node) : Content Document :=
  (Document.layout positional).read positional node

end RequestFlow
