import RequestFlow.Files.Tree
import RequestFlow.History.Entry

/-!
# Histories

A history holds the entries of past runs, the newest first, and no more of them than its limit.
It lives in memory, or in a JSON file that is written anew whenever the entries change. A file
that is not there, or that does not hold a history, is a history without entries.

* `History.push`: the entries with one more;
* `History.openAt`, `History.append`, `History.truncate`: a history in a file.
-/

namespace RequestFlow

/-- Why an operation on a history fails. -/
inductive HistoryFault where
  | io (fault : IoFault)
deriving DecidableEq, Repr

/-- The wording of a fault. -/
def HistoryFault.message : HistoryFault → String
  | io fault => "history I/O error: " ++ fault.message

/-- A history in a file. -/
structure History where
  path : String
  limit : Nat
  /-- The entries, the newest first. -/
  entries : List Entry
deriving DecidableEq, Repr

namespace History

/-- How many entries a history holds unless told otherwise. -/
def defaultLimit : Nat := 200

/-- The name of the file in which the history is kept. -/
def fileName : String := "history.json"

/-- The entries with one more, which is kept without its secrets. -/
def push (limit : Nat) (entry : Entry) (entries : List Entry) : List Entry :=
  (entry.sanitized :: entries).take limit

/-- The entries of one workflow. -/
def ofWorkflow (id : String) (entries : List Entry) : List Entry :=
  entries.filter fun entry => entry.workflowId == id

/-- The content of the file that holds some entries. -/
def fileText (entries : List Entry) : String :=
  (Json.object [("entries", .array (entries.map Entry.toJson))]).indented

/-- The fields of a history. -/
def layout : Layout (List Entry) where
  blank := []
  fields := ["entries"]
  required := ["entries"]
  fill _ field node :=
    match field, node with
    | "entries", .array items => Node.each Entry.ofNode items
    | _, _ => .error .malformed

/-- The entries in the content of a file; content of any other kind holds none. -/
def ofFileText (text : String) : List Entry :=
  match Content.ofJson (layout.read true) text with
  | .ok entries => entries
  | .error _ => []

/-- Opens the history in a file. -/
def openAt (files : FileTree) (path : String) (limit : Nat) : Except HistoryFault History :=
  match files.read path with
  | .ok text => .ok ⟨path, limit, ofFileText text⟩
  | .error .notFound => .ok ⟨path, limit, []⟩
  | .error fault => .error (.io fault)

/-- Takes over some entries, and writes them to the file; they stay even where that fails. -/
def replace (history : History) (files : FileTree) (entries : List Entry) :
    Except HistoryFault Unit × History × FileTree :=
  let (result, files) := files.save history.path (fileText entries)
  (result.mapError .io, { history with entries }, files)

/-- Puts an entry in front. -/
def append (history : History) (files : FileTree) (entry : Entry) :
    Except HistoryFault Unit × History × FileTree :=
  history.replace files (push history.limit entry history.entries)

/-- Keeps the newest entries alone. -/
def truncate (history : History) (files : FileTree) (most : Nat) :
    Except HistoryFault Unit × History × FileTree :=
  history.replace files (history.entries.take most)

end History

end RequestFlow
