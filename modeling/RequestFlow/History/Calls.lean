import RequestFlow.History.Store

/-!
# Calls on histories

What is asked of a history and what it answers: a history in a file, which may also be opened
anew, and a history in memory, which is then without entries.

* `History.answer`, `MemoryHistory.answer`: one call;
* `History.answerAll`, `MemoryHistory.answerAll`: calls one after another.
-/

namespace RequestFlow

/-- What is asked of a history. -/
inductive HistoryCall where
  | append (entry : Entry)
  | truncate (most : Nat)
  | entries
  /-- The entries of one workflow. -/
  | ofWorkflow (id : String)
  /-- The history is opened anew. -/
  | reopen
deriving DecidableEq, Repr

/-- What a history answers. -/
inductive HistoryAnswer where
  | done
  | entries (entries : List Entry)
  | failed (fault : HistoryFault)
deriving DecidableEq, Repr

/-- The answer to a call that writes. -/
def HistoryAnswer.ofWrite : Except HistoryFault Unit → HistoryAnswer
  | .ok () => done
  | .error fault => failed fault

namespace History

/-- Answers a call, among some files. -/
def answer (history : History) (files : FileTree) :
    HistoryCall → HistoryAnswer × History × FileTree
  | .append entry =>
    let (result, history, files) := history.append files entry
    (.ofWrite result, history, files)
  | .truncate most =>
    let (result, history, files) := history.truncate files most
    (.ofWrite result, history, files)
  | .entries => (.entries history.entries, history, files)
  | .ofWorkflow id => (.entries (ofWorkflow id history.entries), history, files)
  | .reopen =>
    match openAt files history.path history.limit with
    | .ok history => (.done, history, files)
    | .error fault => (.failed fault, history, files)

/-- Answers calls one after another. -/
def answerAll (history : History) (files : FileTree) :
    List HistoryCall → List HistoryAnswer × History × FileTree
  | [] => ([], history, files)
  | call :: calls =>
    let (answer, history, files) := history.answer files call
    let (answers, history, files) := history.answerAll files calls
    (answer :: answers, history, files)

end History

/-- A history that is kept in memory alone, up to the limit that histories have unless told
otherwise. -/
structure MemoryHistory where
  /-- The entries, the newest first. -/
  entries : List Entry := []
deriving DecidableEq, Repr

namespace MemoryHistory

/-- Answers a call. -/
def answer (history : MemoryHistory) : HistoryCall → HistoryAnswer × MemoryHistory
  | .append entry => (.done, ⟨History.push History.defaultLimit entry history.entries⟩)
  | .truncate most => (.done, ⟨history.entries.take most⟩)
  | .entries => (.entries history.entries, history)
  | .ofWorkflow id => (.entries (History.ofWorkflow id history.entries), history)
  | .reopen => (.done, {})

/-- Answers calls one after another. -/
def answerAll (history : MemoryHistory) : List HistoryCall → List HistoryAnswer × MemoryHistory
  | [] => ([], history)
  | call :: calls =>
    let (answer, history) := history.answer call
    let (answers, history) := history.answerAll calls
    (answer :: answers, history)

end MemoryHistory

end RequestFlow
