import RequestFlow.Workflow.Basic

/-!
# Request documents

A document holds variables, environments, named requests and workflows. Of requests with one name
the last counts; of workflows with one name the first does.
-/

namespace RequestFlow

/-- How a request is sent. -/
inductive Protocol where
  | http | graphql | grpc
deriving DecidableEq, Repr, Inhabited

/-- A protocol as it is written. -/
def Protocol.text : Protocol → String
  | http => "http"
  | graphql => "graphql"
  | grpc => "grpc"

/-- A named request; its texts may hold placeholders. -/
structure Request where
  name : String
  protocol : Protocol := .http
  method : String := "GET"
  url : String
  headers : TextMap := .empty
  body : Option String := none
  vars : TextMap := .empty
  /-- The loop that the request declares for itself. -/
  loop : Option LoopSpec := none
deriving DecidableEq

/-- A request document. -/
structure Document where
  /-- The file it came from. -/
  path : Option String := none
  vars : TextMap := .empty
  environments : OrderedMap TextMap := .empty
  requests : List Request := []
  workflows : List Workflow := []
deriving DecidableEq

/-- Requests under their names. -/
abbrev RequestIndex := OrderedMap Request

namespace Document

/-- The requests under their names, in the order in which the names first come up. -/
def requestIndex (document : Document) : RequestIndex :=
  .ofList (document.requests.map fun request => (request.name, request))

/-- The last request with a name. -/
def findRequest? (document : Document) (name : String) : Option Request :=
  document.requests.reverse.find? fun request => request.name == name

/-- The first workflow with a name. -/
def findWorkflow? (document : Document) (name : String) : Option Workflow :=
  document.workflows.find? fun workflow => workflow.name == name

/-- What identifies a workflow for good: the document's file and the workflow's name. -/
def workflowId (document : Document) (name : String) : String :=
  document.path.getD "<memory>" ++ "#" ++ name

end Document

end RequestFlow
