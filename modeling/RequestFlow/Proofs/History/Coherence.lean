import RequestFlow.History.Calls
import RequestFlow.Proofs.Files.Tree
import RequestFlow.Proofs.History.Entry

/-!
# A history is a list

Whoever asks something of a history in a file sees a plain list with a limit, as long as no call
fails: opening it anew gives the list that it already is, because its file holds that list whenever
there is a file. A history in memory is the same list.

* `PlainHistory.answerAll`: what a plain list answers;
* `History.Holds`: the entries at a path, which are none where there is no file;
* `History.answer_of_holds`: one call is answered as a plain list answers it, and leaves the entries
  of the history at its path;
* `History.answerAll_plain`: any calls, from the opening of the history.
-/

namespace RequestFlow

/-! ## Plain lists -/

namespace PlainHistory

/-- The answer to a call of a list with a limit, and the list after it. -/
def answer (limit : Nat) (entries : List Entry) : HistoryCall → HistoryAnswer × List Entry
  | .append entry => (.done, (entry.sanitized :: entries).take limit)
  | .truncate most => (.done, entries.take most)
  | .entries => (.entries entries, entries)
  | .ofWorkflow id => (.entries (entries.filter fun entry => entry.workflowId == id), entries)
  | .reopen => (.done, entries)

/-- The answers to calls one after another, and the list after them. -/
def answerAll (limit : Nat) (entries : List Entry) :
    List HistoryCall → List HistoryAnswer × List Entry
  | [] => ([], entries)
  | call :: calls =>
    let (answer, entries) := answer limit entries call
    let (answers, entries) := answerAll limit entries calls
    (answer :: answers, entries)

end PlainHistory

namespace HistoryCall

/-- What is appended can be kept in a file. -/
def Storable : HistoryCall → Prop
  | append entry => entry.Storable
  | _ => True

/-- The call writes the file. -/
def writes : HistoryCall → Bool
  | append _ | truncate _ => true
  | _ => false

end HistoryCall

/-! ## Histories in files -/

namespace History

/-- The file at a path holds a history with some entries. -/
def FileHolds (files : FileTree) (path : String) (entries : List Entry) : Prop :=
  ∃ text, files.read path = .ok text ∧ Content.ofJson (layout.read true) text = .ok entries

/-- A history with some entries is at a path: in a file, or without entries where there is none. -/
def Holds (files : FileTree) (path : String) (entries : List Entry) : Prop :=
  FileHolds files path entries ∨ files.read path = .error .notFound ∧ entries = []

variable {files : FileTree} {path : String} {limit : Nat} {entries : List Entry}

theorem openAt_of_holds (h : Holds files path entries) :
    openAt files path limit = .ok ⟨path, limit, entries⟩ := by
  rcases h with ⟨text, hread, htext⟩ | ⟨hread, rfl⟩
  · simp only [openAt, hread, ofFileText, htext]
  · simp only [openAt, hread]

theorem storable_of_holds (h : Holds files path entries) : ∀ entry ∈ entries, entry.Storable := by
  rcases h with ⟨text, -, htext⟩ | ⟨-, rfl⟩
  · exact storable_of_ofJson htext
  · simp

/-- A file holds only one history. -/
theorem fileHolds_unique {others : List Entry} (h : FileHolds files path entries)
    (hothers : FileHolds files path others) : entries = others := by
  obtain ⟨text, hread, hentries⟩ := h
  obtain ⟨same, hsame, hothers⟩ := hothers
  obtain rfl := Except.ok.inj (hread.symm.trans hsame)
  exact Except.ok.inj (hentries.symm.trans hothers)

/-- Saved entries are in the file. -/
theorem fileHolds_of_save {later : FileTree} (hentries : ∀ entry ∈ entries, entry.Storable)
    (h : files.save path (fileText entries) = (.ok (), later)) : FileHolds later path entries :=
  ⟨fileText entries, FileTree.read_of_save h, ofJson_fileText hentries⟩

theorem storable_push {entry : Entry} (h : ∀ kept ∈ entries, kept.Storable)
    (hentry : entry.Storable) : ∀ kept ∈ push limit entry entries, kept.Storable := by
  intro kept hkept
  rcases List.mem_cons.1 (List.mem_of_mem_take hkept) with rfl | hmem
  · exact hentry.sanitized
  · exact h kept hmem

theorem storable_take {most : Nat} (h : ∀ entry ∈ entries, entry.Storable) :
    ∀ entry ∈ entries.take most, entry.Storable :=
  fun entry hentry => h entry (List.mem_of_mem_take hentry)

/-- Entries that are taken over without a fault are saved. -/
theorem save_of_replace {history : History} (h : (history.replace files entries).1 = .ok ()) :
    files.save history.path (fileText entries) =
      (.ok (), (history.replace files entries).2.2) := by
  refine Prod.ext ?_ rfl
  have hresult : (files.save history.path (fileText entries)).1.mapError HistoryFault.io = .ok () := h
  cases hsaved : (files.save history.path (fileText entries)).1 with
  | ok _ => rfl
  | error fault =>
    rw [hsaved] at hresult
    have hfault : Except.error (HistoryFault.io fault) = .ok () := hresult
    exact absurd hfault (by simp)

/-- An entry is appended without a fault where the entries with it can be saved. -/
theorem append_of_save {history : History} {entry : Entry} {later : FileTree}
    (h : files.save history.path (fileText (push history.limit entry history.entries)) =
      (.ok (), later)) :
    history.append files entry =
      (.ok (), { history with entries := push history.limit entry history.entries }, later) := by
  rw [append, replace, h]
  rfl

theorem fileHolds_of_replace {history : History} (hentries : ∀ entry ∈ entries, entry.Storable)
    (h : (history.replace files entries).1 = .ok ()) :
    FileHolds (history.replace files entries).2.2 history.path entries :=
  fileHolds_of_save hentries (save_of_replace h)

/-- An entry that is appended without a fault is in front, in the history and in its file. -/
theorem append_ok {history next : History} {entry : Entry} {later : FileTree}
    (hentries : ∀ kept ∈ history.entries, kept.Storable) (hentry : entry.Storable)
    (h : history.append files entry = (.ok (), next, later)) :
    next = { history with entries := push history.limit entry history.entries } ∧
      FileHolds later history.path (push history.limit entry history.entries) := by
  obtain ⟨hresult, hrest⟩ := Prod.mk.inj h
  obtain ⟨rfl, rfl⟩ := Prod.mk.inj hrest
  exact ⟨rfl, fileHolds_of_replace (storable_push hentries hentry) hresult⟩

theorem ofWrite_ok {result : Except HistoryFault Unit}
    (h : ∀ fault, HistoryAnswer.ofWrite result ≠ .failed fault) : result = .ok () := by
  cases result with
  | ok _ => rfl
  | error fault => exact absurd rfl (h fault)

/-- A call that does not fail is answered as a plain list answers it, and history and file still
belong together after it. -/
theorem answer_of_holds {history after : History} {call : HistoryCall} {answer : HistoryAnswer}
    {later : FileTree} (hholds : Holds files history.path history.entries)
    (hcall : call.Storable) (h : history.answer files call = (answer, after, later))
    (hok : ∀ fault, answer ≠ .failed fault) :
    (answer, after.entries) = PlainHistory.answer history.limit history.entries call ∧
      after = { history with entries := after.entries } ∧
      Holds later history.path after.entries ∧
      (call.writes = true ∨ FileHolds files history.path history.entries →
        FileHolds later history.path after.entries) := by
  have hentries := storable_of_holds hholds
  cases call with
  | append entry =>
    obtain ⟨rfl, hrest⟩ := Prod.mk.inj h
    obtain ⟨rfl, rfl⟩ := Prod.mk.inj hrest
    have hresult := ofWrite_ok hok
    have hfile := fileHolds_of_replace (storable_push hentries hcall) hresult
    exact ⟨Prod.ext (congrArg HistoryAnswer.ofWrite hresult) rfl, rfl, .inl hfile, fun _ => hfile⟩
  | truncate most =>
    obtain ⟨rfl, hrest⟩ := Prod.mk.inj h
    obtain ⟨rfl, rfl⟩ := Prod.mk.inj hrest
    have hresult := ofWrite_ok hok
    have hfile := fileHolds_of_replace (storable_take hentries) hresult
    exact ⟨Prod.ext (congrArg HistoryAnswer.ofWrite hresult) rfl, rfl, .inl hfile, fun _ => hfile⟩
  | entries =>
    obtain ⟨rfl, hrest⟩ := Prod.mk.inj h
    obtain ⟨rfl, rfl⟩ := Prod.mk.inj hrest
    exact ⟨rfl, rfl, hholds, fun h => h.resolve_left (by decide)⟩
  | ofWorkflow id =>
    obtain ⟨rfl, hrest⟩ := Prod.mk.inj h
    obtain ⟨rfl, rfl⟩ := Prod.mk.inj hrest
    exact ⟨rfl, rfl, hholds, fun h => h.resolve_left Bool.false_ne_true⟩
  | reopen =>
    rw [History.answer, openAt_of_holds hholds] at h
    obtain ⟨rfl, hrest⟩ := Prod.mk.inj h
    obtain ⟨rfl, rfl⟩ := Prod.mk.inj hrest
    exact ⟨rfl, rfl, hholds, fun h => h.resolve_left (by decide)⟩

/-- Calls that do not fail are answered as a plain list answers them. -/
theorem answerAll_of_holds {history after : History} {calls : List HistoryCall}
    {answers : List HistoryAnswer} {later : FileTree}
    (hholds : Holds files history.path history.entries)
    (hcalls : ∀ call ∈ calls, call.Storable)
    (h : history.answerAll files calls = (answers, after, later))
    (hok : ∀ fault, .failed fault ∉ answers) :
    (answers, after.entries) = PlainHistory.answerAll history.limit history.entries calls ∧
      after = { history with entries := after.entries } ∧
      Holds later history.path after.entries ∧
      (calls.any HistoryCall.writes = true ∨ FileHolds files history.path history.entries →
        FileHolds later history.path after.entries) := by
  induction calls generalizing history files answers with
  | nil =>
    obtain ⟨rfl, hrest⟩ := Prod.mk.inj h
    obtain ⟨rfl, rfl⟩ := Prod.mk.inj hrest
    exact ⟨rfl, rfl, hholds, fun h => h.resolve_left Bool.false_ne_true⟩
  | cons call calls ih =>
    obtain ⟨⟨answer, next, between⟩, hfirst⟩ : ∃ outcome, history.answer files call = outcome :=
      ⟨_, rfl⟩
    obtain ⟨⟨others, last, end'⟩, hrest⟩ : ∃ outcome, next.answerAll between calls = outcome :=
      ⟨_, rfl⟩
    rw [answerAll, hfirst] at h
    simp only [hrest] at h
    obtain ⟨rfl, hafter⟩ := Prod.mk.inj h
    obtain ⟨rfl, rfl⟩ := Prod.mk.inj hafter
    obtain ⟨hanswer, hnext, hbetween, hwritten⟩ := answer_of_holds hholds (hcalls call (by simp))
      hfirst fun fault hfault => hok fault (by simp [hfault])
    have hpath : next.path = history.path := by rw [hnext]
    have hlimit : next.limit = history.limit := by rw [hnext]
    -- The rest starts from a history that is at the same path, with the entries it has by now.
    rw [← hpath] at hbetween
    obtain ⟨hanswers, hlast, hlater, hfile⟩ := ih hbetween
      (fun other hother => hcalls other (List.mem_cons_of_mem call hother)) hrest
      (fun fault hfault => hok fault (List.mem_cons_of_mem answer hfault))
    rw [hpath] at hlater hfile
    refine ⟨?_, ?_, hlater, fun hwrites => hfile ?_⟩
    · rw [PlainHistory.answerAll, ← hanswer, ← hlimit]
      simp only [← hanswers]
    · rw [hlast, hnext]
    · rw [List.any_cons, Bool.or_eq_true] at hwrites
      rcases hwrites with (hcall | hothers) | hheld
      · exact .inr (hwritten (.inl hcall))
      · exact .inl hothers
      · exact .inr (hwritten (.inr hheld))

end History

/-! ## Histories in memory -/

/-- A history in memory that is not opened anew answers as a plain list does. -/
theorem MemoryHistory.answerAll_eq {history : MemoryHistory} {calls : List HistoryCall}
    (h : .reopen ∉ calls) :
    history.answerAll calls =
      ((PlainHistory.answerAll History.defaultLimit history.entries calls).1,
        ⟨(PlainHistory.answerAll History.defaultLimit history.entries calls).2⟩) := by
  induction calls generalizing history with
  | nil => rfl
  | cons call calls ih =>
    have hrest : .reopen ∉ calls := fun hmem => h (List.mem_cons_of_mem call hmem)
    have hanswer : history.answer call =
        ((PlainHistory.answer History.defaultLimit history.entries call).1,
          ⟨(PlainHistory.answer History.defaultLimit history.entries call).2⟩) := by
      cases call with
      | reopen => exact absurd (List.mem_cons_self ..) h
      | _ => rfl
    simp only [answerAll, PlainHistory.answerAll, hanswer, ih hrest]

/-! ## From the opening on -/

/-- A history is opened with the entries that its file holds, or with none where there is no file.
Calls that do not fail are then answered as a plain list with these entries answers them, in memory
as in a file; opening the history again gives the entries that the list has by then, and after the
first call that writes, the file holds them. -/
theorem History.answerAll_plain {files : FileTree} {path : String} {limit : Nat}
    {initial : List Entry} {calls : List HistoryCall} (hstart : Holds files path initial)
    (hcalls : ∀ call ∈ calls, call.Storable) :
    ∃ history answers after later, openAt files path limit = .ok history ∧
      history.answerAll files calls = (answers, after, later) ∧
      ((∀ fault, .failed fault ∉ answers) →
        (answers, after.entries) = PlainHistory.answerAll limit initial calls ∧
        openAt later path limit = .ok after ∧
        (calls.any HistoryCall.writes = true → FileHolds later path after.entries) ∧
        (limit = defaultLimit ∧ initial = [] ∧ .reopen ∉ calls →
          ((⟨[]⟩ : MemoryHistory).answerAll calls).1 = answers)) := by
  let history : History := ⟨path, limit, initial⟩
  refine ⟨history, _, _, _, openAt_of_holds hstart, rfl, fun hok => ?_⟩
  have hholds : Holds files history.path history.entries := hstart
  obtain ⟨hanswers, hafter, hlater, hfile⟩ := answerAll_of_holds hholds hcalls rfl hok
  refine ⟨hanswers, ?_, fun hwrites => hfile (.inl hwrites), ?_⟩
  · rw [hafter]
    exact openAt_of_holds hlater
  · rintro ⟨rfl, rfl, hreopen⟩
    rw [MemoryHistory.answerAll_eq hreopen]
    exact (congrArg Prod.fst hanswers).symm

/-- Where there is no file yet: an entry is appended, and the history opened anew has it. -/
theorem History.answerAll_plain_append :
    let entry : Entry := { (default : Entry) with executedAt := .epoch }
    ∃ history answers after later, openAt .empty "history.json" 2 = .ok history ∧
      history.answerAll .empty [.append entry, .entries] = (answers, after, later) ∧
      answers = [.done, .entries [entry.sanitized]] ∧ openAt later "history.json" 2 = .ok after ∧
      FileHolds later "history.json" [entry.sanitized] := by
  intro entry
  have hstart : Holds .empty "history.json" [] := .inr ⟨rfl, rfl⟩
  have hcalls : ∀ call ∈ [HistoryCall.append entry, .entries], call.Storable := by
    refine List.forall_mem_cons.2 ⟨⟨by decide, by decide⟩, ?_⟩
    exact List.forall_mem_singleton.2 trivial
  obtain ⟨history, answers, after, later, hopen, hrun, hplain⟩ :=
    @answerAll_plain .empty "history.json" 2 [] [.append entry, .entries] hstart hcalls
  have hok : ∀ fault, HistoryAnswer.failed fault ∉ answers := by
    obtain rfl := Except.ok.inj ((openAt_of_holds hstart).symm.trans hopen)
    have hanswers : answers = [.done, .entries [entry.sanitized]] :=
      (congrArg Prod.fst hrun).symm
    simp [hanswers]
  obtain ⟨hlist, hagain, hfile, -⟩ := hplain hok
  obtain ⟨hanswers, hentries⟩ := Prod.mk.inj hlist
  refine ⟨history, answers, after, later, hopen, hrun, hanswers, hagain, ?_⟩
  rw [hentries] at hfile
  exact hfile rfl

end RequestFlow
