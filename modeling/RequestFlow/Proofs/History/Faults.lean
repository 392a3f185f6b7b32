import Mathlib.Data.List.Forall2
import RequestFlow.Proofs.History.Coherence

/-!
# Calls that fail

A history takes an entry over before it writes its file, and keeps it where that cannot be done. So
its entries are those of a plain list to which everything was done that was asked for, also what was
answered with a fault; and the next time that the file can be written, all of it is in the file.
This holds whatever becomes of the files between the calls.

* `History.answerAmid`: calls one after another, each among files of its own;
* `History.answer_eq`: what one call leaves, whether it fails or not;
* `History.entries_despite_faults`: any calls, and what is in the file afterwards;
* `History.append_fails`: a fault that leaves an entry behind.
-/

namespace RequestFlow

namespace History

/-- Answers calls one after another, each among the files that there are by then. -/
def answerAmid (history : History) : List (FileTree × HistoryCall) → List HistoryAnswer × History
  | [] => ([], history)
  | (files, call) :: calls =>
    let (answer, history, _) := history.answer files call
    let (answers, history) := history.answerAmid calls
    (answer :: answers, history)

/-- An answer is the one that was expected, or tells of a fault in the place of a done deed. -/
def Faulted (answer expected : HistoryAnswer) : Prop :=
  answer = expected ∨ expected = .done ∧ ∃ fault, answer = .failed fault

theorem faulted_ofWrite (result : Except HistoryFault Unit) :
    Faulted (HistoryAnswer.ofWrite result) .done := by
  cases result with
  | ok _ => exact .inl rfl
  | error fault => exact .inr ⟨rfl, fault, rfl⟩

/-- A call leaves what it leaves of a plain list, whether it fails or not. -/
theorem answer_eq (history : History) (files : FileTree) {call : HistoryCall}
    (h : call ≠ .reopen) :
    (history.answer files call).2.1 =
        { history with entries := (PlainHistory.answer history.limit history.entries call).2 } ∧
      Faulted (history.answer files call).1
        (PlainHistory.answer history.limit history.entries call).1 := by
  cases call with
  | append entry => exact ⟨rfl, faulted_ofWrite _⟩
  | truncate most => exact ⟨rfl, faulted_ofWrite _⟩
  | entries => exact ⟨rfl, .inl rfl⟩
  | ofWorkflow id => exact ⟨rfl, .inl rfl⟩
  | reopen => exact absurd rfl h

/-- So do calls one after another. -/
theorem answerAmid_eq {history : History} {calls : List (FileTree × HistoryCall)}
    (h : ∀ call ∈ calls, call.2 ≠ .reopen) :
    (history.answerAmid calls).2 =
        { history with entries :=
          (PlainHistory.answerAll history.limit history.entries (calls.map Prod.snd)).2 } ∧
      List.Forall₂ Faulted (history.answerAmid calls).1
        (PlainHistory.answerAll history.limit history.entries (calls.map Prod.snd)).1 := by
  induction calls generalizing history with
  | nil => exact ⟨rfl, .nil⟩
  | cons call calls ih =>
    obtain ⟨files, call⟩ := call
    obtain ⟨hnext, hanswer⟩ := history.answer_eq files (h (files, call) (by simp))
    generalize hfirst : history.answer files call = first at hnext hanswer
    obtain ⟨answer, next, later⟩ := first
    simp only at hnext hanswer
    subst hnext
    obtain ⟨hlast, hanswers⟩ := @ih
      { history with entries := (PlainHistory.answer history.limit history.entries call).2 }
      fun other hother => h other (List.mem_cons_of_mem _ hother)
    simp only [answerAmid, hfirst, List.map_cons, PlainHistory.answerAll]
    exact ⟨hlast, .cons hanswer hanswers⟩

/-- An entry that is appended without a fault is in the file with all entries before it. -/
theorem read_of_append {history after : History} {files later : FileTree} {entry : Entry}
    (h : history.append files entry = (.ok (), after, later)) :
    later.read history.path =
      .ok (fileText ((entry.sanitized :: history.entries).take history.limit)) := by
  obtain ⟨hresult, hrest⟩ := Prod.mk.inj h
  obtain ⟨-, rfl⟩ := Prod.mk.inj hrest
  exact FileTree.read_of_save (save_of_replace hresult)

/-- After any calls, failed or not, the entries are those of a plain list after the same calls; each
answer is the list's or a fault; and the next entry that is appended without a fault is in the file
with all of them behind it, those among them whose own appending failed. -/
theorem entries_despite_faults (history : History) (calls : List (FileTree × HistoryCall))
    (hcalls : ∀ call ∈ calls, call.2 ≠ .reopen) :
    ∃ answers after kept plain, history.answerAmid calls = (answers, after) ∧
      PlainHistory.answerAll history.limit history.entries (calls.map Prod.snd) = (plain, kept) ∧
      after = { history with entries := kept } ∧ List.Forall₂ Faulted answers plain ∧
      ∀ files entry next later, after.append files entry = (.ok (), next, later) →
        later.read history.path =
          .ok (fileText ((entry.sanitized :: kept).take history.limit)) := by
  obtain ⟨hafter, hanswers⟩ := answerAmid_eq hcalls
  obtain ⟨⟨plain, kept⟩, hplain⟩ : ∃ expected,
    PlainHistory.answerAll history.limit history.entries (calls.map Prod.snd) = expected := ⟨_, rfl⟩
  obtain ⟨⟨answers, after⟩, hgiven⟩ : ∃ given, history.answerAmid calls = given := ⟨_, rfl⟩
  rw [hplain, hgiven] at hafter hanswers
  obtain rfl : after = { history with entries := kept } := hafter
  refine ⟨answers, _, kept, plain, hgiven, hplain, rfl, hanswers, ?_⟩
  intro files entry next later happend
  have hread := read_of_append happend
  exact hread

/-- A history that cannot be written, having no path: the entry whose appending failed is listed. -/
theorem entries_despite_faults_listed :
    let entry : Entry := { (default : Entry) with executedAt := .epoch }
    let history : History := ⟨"", 200, []⟩
    (∀ call ∈ [(FileTree.empty, HistoryCall.append entry), (.empty, .entries)],
      call.2 ≠ .reopen) ∧
    ∃ after, history.answerAmid [(.empty, .append entry), (.empty, .entries)] =
        ([.failed (.io .notFound), .entries [entry.sanitized]], after) ∧
      after.entries = [entry.sanitized] := by
  intro entry history
  have hcalls : ∀ call ∈ [(FileTree.empty, HistoryCall.append entry), (.empty, .entries)],
      call.2 ≠ .reopen := by simp
  obtain ⟨answers, after, kept, plain, hgiven, hplain, hafter, -, -⟩ :=
    entries_despite_faults history _ hcalls
  have hanswers : answers = [.failed (.io .notFound), .entries [entry.sanitized]] :=
    (congrArg Prod.fst hgiven).symm
  have hkept : kept = [entry.sanitized] := (congrArg Prod.snd hplain).symm
  refine ⟨hcalls, after, ?_, ?_⟩
  · rw [hgiven, hanswers]
  · rw [hafter, hkept]

/-- An append that fails, after which the history is not what it was. -/
theorem append_fails : ∃ (files : FileTree) (path : String) (limit : Nat) (history : History)
    (entry : Entry), openAt files path limit = .ok history ∧
      (history.append files entry).1 = .error (.io .notFound) ∧
      (history.append files entry).2.1.entries ≠ history.entries :=
  ⟨.empty, "", 200, ⟨"", 200, []⟩, { (default : Entry) with executedAt := .epoch }, rfl, rfl,
    List.cons_ne_nil _ _⟩

end History

end RequestFlow
