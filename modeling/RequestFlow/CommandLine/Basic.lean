import RequestFlow.CommandLine.Arguments
import RequestFlow.Document.Load
import RequestFlow.Http.Call
import RequestFlow.Settings

/-!
# The program

What a command line does: which lines it prints, what it has to say about a failure, with which
code it ends, and which files it leaves behind.

* `CommandLine.execute`: one call of the program.
-/

namespace RequestFlow

/-- What a call of the program leaves behind. -/
structure Exit where
  code : Nat
  /-- The lines that are printed. -/
  lines : List String := []
  /-- What is said about a failure. -/
  failure : Option String := none

/-- What the program finds around it. -/
structure Surroundings where
  places : Path.Places
  /-- Where the user wants the settings. -/
  settingsPath : Option String := none
  /-- Where the user wants the history. -/
  historyPath : Option String := none
  transport : Http.Transport := .absent

namespace CommandLine

/-- The end of a call that failed. -/
def failed (message : String) : Exit := ⟨1, [], some message⟩

/-- The code of a call that did or did not find everything right. -/
def codeOf (ok : Bool) : Nat := if ok then 0 else 1

/-- The file of the history: as told on the command line, or as for all calls. -/
def historyFile (around : Surroundings) (path : Option String) : String :=
  match path with
  | some path => Path.expandHome around.places.home path
  | none => Path.configFile around.places around.historyPath History.fileName

/-- The file of the settings. -/
def settingsFile (around : Surroundings) : String :=
  Path.expandHome around.places.home
    (Path.configFile around.places around.settingsPath Settings.fileName)

/-- The file of the document that a task is about. -/
def documentFile? : Task → Option String
  | .run file _ _ | .forEach file _ _ | .validate file | .render file _ => some file
  | .history _ _ => none

/-- The files that a call may read; the history is the one that it may write. -/
def filesOf (around : Surroundings) (words : List String) : List String :=
  match Invocation.parse? words with
  | none => []
  | some invocation =>
    settingsFile around :: historyFile around invocation.historyPath ::
      (documentFile? invocation.task).toList

/-- The content of the history file after a call, if the call changed it. -/
def changedHistory? (around : Surroundings) (words : List String) (before after : FileTree) :
    Option (String × String) := do
  let invocation ← Invocation.parse? words
  let file := historyFile around invocation.historyPath
  let content ← (after.read file).toOption
  if (before.read file).toOption = some content then none else some (file, content)

/-- Keeps entries in a history with a file. -/
def recorder : Recorder (History × FileTree) := fun entry (history, files) =>
  let (result, history, files) := history.append files entry
  ((history, files), result.isOk)

/-- Runs a target, and prints the report on it. -/
def runTarget (around : Surroundings) (settings : Settings) (historyPath : Option String)
    (files : FileTree) (file : String) (target : Target) (environment : Option String) :
    Exit × FileTree :=
  match Document.load files file with
  | .error fault => (failed fault.headline, files)
  | .ok document =>
    let environment := (environment.or settings.environment).getD ""
    match History.openAt files (historyFile around historyPath) settings.historyLimit with
    | .error _ => (failed "failed to open run history", files)
    | .ok history =>
      let session := Session.new document evaluate (some recorder) (history, files)
      let driven := Drive.toEnd session target environment (Http.executor around.transport) [] false
      let files := driven.session.store.2
      match driven.result with
      | .error fault => (failed fault.message, files)
      | .ok report =>
        (⟨codeOf (report.outcome = .succeeded), [report.text, "", report.summary], none⟩, files)

/-- A line for each workflow, whether it can be run. -/
def validateDocument (document : Document) : Exit :=
  let results := document.workflows.map fun workflow =>
    match workflow.validate document.requestIndex with
    | .ok () => (true, "ok      " ++ workflow.name)
    | .error fault => (false, "invalid " ++ fault.message)
  ⟨codeOf (results.all Prod.fst), results.map Prod.snd, none⟩

/-- A workflow as directives. -/
def renderWorkflow (document : Document) (file name : String) : Exit :=
  match document.findWorkflow? name with
  | some workflow => ⟨0, [workflow.directives document.requestIndex], none⟩
  | none => failed ("workflow '" ++ name ++ "' not found in " ++ file)

/-- A text filled up with spaces at its end. -/
def padEnd (width : Nat) (text : String) : String :=
  text ++ String.ofList (List.replicate (width - text.length) ' ')

/-- A text filled up with spaces in front. -/
def padStart (width : Nat) (text : String) : String :=
  String.ofList (List.replicate (width - text.length) ' ') ++ text

/-- The line of an entry. -/
def entryLine (entry : Entry) : String :=
  String.ofList (entry.executedAt.dateText ++ ' ' :: entry.executedAt.clockText) ++ "  " ++
    padEnd 9 entry.outcome.text ++ " " ++ padStart 6 (toString entry.duration) ++ " ms  " ++
    entry.summary

/-- The text holds another one. -/
def holds (text part : List Char) : Bool :=
  match text with
  | [] => part.isEmpty
  | c :: rest => part.isPrefixOf (c :: rest) || holds rest part

/-- The entries of a history that are asked for. -/
def selectEntries (limit : Nat) (workflow : Option String) (entries : List Entry) : List Entry :=
  (entries.filter fun entry =>
    workflow.all fun part => holds entry.workflowId.toList part.toList).take limit

/-- A line for each past run that is asked for. -/
def listHistory (around : Surroundings) (settings : Settings) (historyPath : Option String)
    (files : FileTree) (limit : Nat) (workflow : Option String) : Exit :=
  match History.openAt files (historyFile around historyPath) settings.historyLimit with
  | .error _ => failed "failed to open run history"
  | .ok history => ⟨0, (selectEntries limit workflow history.entries).map entryLine, none⟩

/-- Does something with the document in a file. -/
def withDocument (files : FileTree) (file : String) (act : Document → Exit) : Exit :=
  match Document.load files file with
  | .error fault => failed fault.headline
  | .ok document => act document

/-- Does what is asked for. -/
def perform (around : Surroundings) (settings : Settings) (files : FileTree)
    (invocation : Invocation) : Exit × FileTree :=
  match invocation.task with
  | .run file workflow environment =>
    runTarget around settings invocation.historyPath files file (.workflow workflow) environment
  | .forEach file request environment =>
    runTarget around settings invocation.historyPath files file (.loop request) environment
  | .validate file => (withDocument files file validateDocument, files)
  | .render file workflow =>
    (withDocument files file fun document => renderWorkflow document file workflow, files)
  | .history limit workflow =>
    (listHistory around settings invocation.historyPath files limit workflow, files)

/-- One call of the program; a misuse ends it with the code 2. -/
def execute (around : Surroundings) (files : FileTree) (words : List String) : Exit × FileTree :=
  match Invocation.parse? words with
  | none => (⟨2, [], none⟩, files)
  | some invocation =>
    match Settings.openAt files (settingsFile around) with
    | .error _ => (failed "failed to load user settings", files)
    | .ok settings => perform around settings files invocation

end CommandLine

end RequestFlow
