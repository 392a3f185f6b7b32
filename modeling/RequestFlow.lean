import RequestFlow.Main
import RequestFlow.Proofs.Run.AtRest
import RequestFlow.Proofs.Run.Course
import RequestFlow.Proofs.Session.AtRest
import RequestFlow.Proofs.Session.Cancellation
import RequestFlow.Proofs.Session.Exchange
import RequestFlow.Proofs.Session.Traceless
import RequestFlow.Proofs.Walk.Basic
import RequestFlow.Proofs.Walk.Refinement
import RequestFlow.Proofs.Walk.Replies
import RequestFlow.Proofs.Session.Replies
import RequestFlow.Session
import RequestFlow.Text.Visible
import RequestFlow.Proofs.Session.Moves
import RequestFlow.Proofs.Session.History
import RequestFlow.Proofs.Run.References
import RequestFlow.Proofs.Session.References
import RequestFlow.Proofs.Variables
import RequestFlow.Proofs.Run.Variables
import RequestFlow.Proofs.Session.Variables
import RequestFlow.Proofs.Run.Ending
import RequestFlow.Proofs.Session.Reports
import RequestFlow.Proofs.Drive.Interleaving
import RequestFlow.Proofs.Drive.Protocol
import RequestFlow.Proofs.History.Secrets
import RequestFlow.Proofs.Expression.Scan
import RequestFlow.Proofs.Expression.Shape
import RequestFlow.Proofs.Markup.Numeral
import RequestFlow.Proofs.Expression.Operand
import RequestFlow.Proofs.Expression.Tree
import RequestFlow.Proofs.Document.RoundTrip
import RequestFlow.Proofs.History.Faults
import RequestFlow.Proofs.History.Sharing
import RequestFlow.History.Calls
import RequestFlow.Proofs.Expression.Grouping
import RequestFlow.Proofs.Expression.Items
import RequestFlow.Proofs.Expression.Listing
import RequestFlow.Proofs.Text.Legible
import RequestFlow.Proofs.Workflow.Directives
import RequestFlow.Proofs.Run.Loops
import RequestFlow.Proofs.Session.Loops
import RequestFlow.Proofs.Run.OneRequest
import RequestFlow.Proofs.Session.OneRequest
import RequestFlow.Proofs.Session.Iterations
import RequestFlow.Proofs.Text.Blanks
import RequestFlow.Proofs.Run.Verdict
import RequestFlow.Proofs.Run.Stages
import RequestFlow.Proofs.Session.Stages
import RequestFlow.Proofs.Run.Shape
import RequestFlow.Proofs.Session.Shape
import RequestFlow.Proofs.Run.Notices
import RequestFlow.Proofs.Session.Notices
import RequestFlow.Proofs.Run.Branches
import RequestFlow.Proofs.Run.Branching
import RequestFlow.Proofs.Redaction.Settled
import RequestFlow.Proofs.Files.Directories
import RequestFlow.Proofs.Settings
import RequestFlow.Proofs.Http.Preparation
import RequestFlow.Proofs.Run.Frontier
import RequestFlow.Proofs.Overrides
import RequestFlow.Proofs.Expression.Recursion
