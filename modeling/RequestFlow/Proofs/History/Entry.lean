import RequestFlow.History.Store
import RequestFlow.Proofs.Document.Record
import RequestFlow.Proofs.Timestamp

/-!
# Entries survive being kept in a file

An entry can be kept in a file when its moment exists and its duration fits in 64 bits. Such an
entry is read back from what is written of it, whatever its texts are, and every entry that is read
is one; so the file of a history holds exactly the entries that were written to it.

* `Entry.Storable`: the entries that can be kept;
* `Entry.readsBack`, `Entry.storable_of_read`: a storable entry is read back, and only such are read;
* `History.ofJson_fileText`: the entries in the file of a history.
-/

namespace RequestFlow

theorem Outcome.readsBack (outcome : Outcome) :
    ReadsBack (Node.oneOf true Outcome.words) (fun outcome => .string outcome.text) outcome := by
  rw [ReadsBack, Node.ofJson_string]
  cases outcome <;> rfl

/-- The entry can be kept in a file. -/
structure Entry.Storable (entry : Entry) : Prop where
  time : entry.executedAt.isValid = true
  duration : entry.duration < Nat.pow 2 64

namespace Entry

/-- Taking out the secrets leaves an entry one that can be kept. -/
theorem Storable.sanitized {entry : Entry} (h : entry.Storable) : entry.sanitized.Storable :=
  ⟨h.time, h.duration⟩

/-- The moment of a string. -/
theorem readTime_text {time : Timestamp} (h : time.isValid = true) :
    readTime (.string time.text) = .ok time := by
  have htext : (Node.string time.text).text = .ok time.text := rfl
  simp only [readTime, htext, bind, Except.bind, Timestamp.parse?_text h, pure, Except.pure]

theorem isValid_of_readTime {node : Node} {time : Timestamp} (h : readTime node = .ok time) :
    time.isValid = true := by
  obtain ⟨text, -, h⟩ := ok_of_bind h
  split at h
  · rename_i read hread
    obtain rfl := Except.ok.inj h
    exact Timestamp.isValid_of_parse? hread
  · exact absurd h (by simp)

theorem readsBack {entry : Entry} (h : entry.Storable) :
    ReadsBack Entry.ofNode Entry.toJson entry := by
  have houtcome : Node.oneOf true Outcome.words (.ofJson (.string entry.outcome.text)) = _ :=
    Outcome.readsBack entry.outcome
  rw [Node.ofJson_string] at houtcome
  rw [ReadsBack, Entry.ofNode, Entry.toJson, Layout.read_object rfl]
  simp [Layout.fillAll, Entry.layout, Node.text, readTime_text h.time, houtcome, Json.nat,
    Node.natural_nat h.duration]
  rfl

/-- Filling in a field leaves the duration in its bounds, and the moment one that exists as soon as
it is filled in. -/
theorem fill_storable {entry result : Entry} {field : String} {node : Node} {seen : List String}
    (htime : "executed_at" ∈ seen → entry.executedAt.isValid = true)
    (hduration : entry.duration < Nat.pow 2 64) (h : layout.fill entry field node = .ok result) :
    ("executed_at" ∈ field :: seen → result.executedAt.isValid = true) ∧
      result.duration < Nat.pow 2 64 := by
  simp only [layout] at h
  split at h
  -- Two of the fields matter, the first and the seventh.
  case h_1 =>
    obtain ⟨time, hread, h⟩ := ok_of_bind h
    obtain rfl := Except.ok.inj h
    exact ⟨fun _ => isValid_of_readTime hread, hduration⟩
  case h_7 =>
    obtain ⟨duration, hread, h⟩ := ok_of_bind h
    obtain rfl := Except.ok.inj h
    exact ⟨fun hseen => htime (by simpa using hseen), Node.natural_lt hread⟩
  case h_10 => exact absurd h (by simp)
  all_goals
    obtain ⟨_, -, h⟩ := ok_of_bind h
    obtain rfl := Except.ok.inj h
    exact ⟨fun hseen => htime (by simpa using hseen), hduration⟩

/-- Every entry that is read can be kept in a file again. -/
theorem storable_of_read {node : Node} {entry : Entry} (h : Entry.ofNode node = .ok entry) :
    entry.Storable := by
  obtain ⟨seen, ⟨htime, hduration⟩, hrequired⟩ :=
    Layout.read_induction (P := fun entry seen =>
        ("executed_at" ∈ seen → entry.executedAt.isValid = true) ∧ entry.duration < Nat.pow 2 64)
      ⟨by simp, by decide⟩
      (fun _ _ _ _ _ h hfill => fill_storable h.1 h.2 hfill) (fun _ hfield => hfield) h
  exact ⟨htime (hrequired "executed_at" (by decide)), hduration⟩

theorem printed {entry : Entry} (h : entry.Storable) {depth : Nat} :
    Json.Printed (depth + 1) entry.toJson := by
  have hduration : Json.Printed depth (.nat entry.duration) := Json.printed_nat h.duration
  exact Json.printed_object (by simp [hduration])

end Entry

namespace History

variable {entries : List Entry}

/-- The entries as they are written. -/
theorem readsBack (h : ∀ entry ∈ entries, entry.Storable) :
    ReadsBack (layout.read true)
      (fun entries => .object [("entries", .array (entries.map Entry.toJson))]) entries := by
  have hentries : Node.each Entry.ofNode (entries.map fun entry => .ofJson entry.toJson) =
      .ok entries := each_ofJson fun entry hentry => Entry.readsBack (h entry hentry)
  rw [ReadsBack, Layout.read_object rfl]
  simpa [Layout.fillAll, layout, Function.comp_def] using hentries

theorem fill_storable {before : List Entry} {field : String} {node : Node}
    (h : layout.fill before field node = .ok entries) : ∀ entry ∈ entries, entry.Storable := by
  simp only [layout] at h
  split at h
  · intro entry hentry
    obtain ⟨item, hitem⟩ := mem_each h hentry
    exact Entry.storable_of_read hitem
  · exact absurd h (by simp)

/-- The file of a history holds exactly the entries that were written to it. -/
theorem ofJson_fileText (h : ∀ entry ∈ entries, entry.Storable) :
    Content.ofJson (layout.read true) (fileText entries) = .ok entries := by
  have hentries : Json.Printed 126 (.array (entries.map Entry.toJson)) := by
    refine Json.printed_array fun item hitem => ?_
    obtain ⟨entry, hentry, rfl⟩ := List.mem_map.1 hitem
    exact Entry.printed (h entry hentry)
  have hprinted : Json.Printed JsonText.maxDepth
      (.object [("entries", .array (entries.map Entry.toJson))]) :=
    Json.printed_object (by simpa using hentries)
  rw [fileText, Content.ofJson_indented _ hprinted]
  exact readsBack h

/-- The entries in a file can be kept in a file again. -/
theorem storable_of_ofJson {text : String}
    (h : Content.ofJson (layout.read true) text = .ok entries) :
    ∀ entry ∈ entries, entry.Storable := by
  obtain ⟨node, hread⟩ := Content.exists_of_ofJson _ h
  obtain ⟨seen, hall, -⟩ :=
    Layout.read_induction (P := fun entries _ => ∀ entry ∈ entries, entry.Storable)
      (fun entry hentry => absurd hentry (by simp [layout]))
      (fun _ _ _ _ _ _ hfill => fill_storable hfill) (fun _ hfield => hfield) hread
  exact hall

end History

end RequestFlow
