import RequestFlow.Proofs.Document.Record
import RequestFlow.Proofs.Files.Directories
import RequestFlow.Settings

/-!
# Settings in memory and in their file

Settings take an environment over before they write their file, and keep it where that cannot be
done. So the environment in memory is the one that was asked for last, the one in the file is the
one that was written last, and the two drift apart by a call that fails until one succeeds. All else
stays as the file had it from the beginning, on either side.

* `Preferences.ofFileText_fileText`: what is written of preferences is read as them;
* `Settings.answerAll`: calls on settings one after another;
* `Settings.Views.after`: what a call leaves in memory and in the file;
* `Settings.answerAll_views`: any calls, from the opening of the settings;
* `Settings.setEnvironment_drifts`: a call that fails and leaves memory and file apart.
-/

namespace RequestFlow

/-! ## Preferences in a file -/

namespace Preferences

/-- The preferences can be kept in a file. -/
structure Storable (preferences : Preferences) : Prop where
  historyLimit : ∀ limit, preferences.historyLimit = some limit → limit < Nat.pow 2 64
  timeout : ∀ timeout, preferences.timeout = some timeout → timeout < Nat.pow 2 64

/-- The members of the file that holds the preferences. -/
def members (preferences : Preferences) : List (String × Json) :=
  member "default_environment" .string preferences.environment ++
    member "history_limit" .nat preferences.historyLimit ++
    member "request_timeout_secs" .nat preferences.timeout

theorem printed_member {α : Type} {key : String} {write : α → Json} {value : Option α} {depth : Nat}
    (h : ∀ part, value = some part → Json.Printed depth (write part)) :
    ∀ written ∈ member key write value, Json.Printed depth written.2 := by
  intro written hwritten
  obtain ⟨part, hpart, rfl⟩ := List.mem_map.1 hwritten
  exact h part (by simpa using hpart)

/-- Members for what has been set, and no others, fill in what has been set. -/
theorem read_members {preferences : Preferences} (h : preferences.Storable) :
    layout.read true (.ofJson (.object preferences.members)) = .ok preferences := by
  obtain ⟨environment, historyLimit, timeout⟩ := preferences
  obtain ⟨hlimit, htimeout⟩ := h
  have hfits : layout.Fits ((members ⟨environment, historyLimit, timeout⟩).map Prod.fst) = true := by
    cases environment <;> cases historyLimit <;> cases timeout <;> rfl
  have hnatural (n : Nat) (hn : n < Nat.pow 2 64) :
      (Node.number (.integer n)).optional Node.natural = .ok (some n) := by
    rw [Node.optional, Node.natural_nat hn]
    rfl
  have htext (text : String) : (Node.string text).optional Node.text = .ok (some text) := rfl
  rw [Layout.read_object hfits]
  cases environment <;> cases historyLimit <;> cases timeout <;>
    simp [members, member, Layout.fillAll, layout, htext, hnatural, hlimit, htimeout, Json.nat] <;>
    rfl

/-- What is written of preferences is read as them. -/
theorem ofFileText_fileText {preferences : Preferences} (h : preferences.Storable) :
    ofFileText preferences.fileText = preferences := by
  have hprinted : Json.Printed JsonText.maxDepth (.object preferences.members) := by
    refine Json.printed_object fun part hpart => ?_
    simp only [members, List.mem_append] at hpart
    rcases hpart with (hpart | hpart) | hpart
    · exact printed_member (fun text _ => Json.printed_string text) part hpart
    · exact printed_member (fun n hn => Json.printed_nat (h.historyLimit n hn)) part hpart
    · exact printed_member (fun n hn => Json.printed_nat (h.timeout n hn)) part hpart
  have hread : Content.ofJson (layout.read true) preferences.fileText = .ok preferences :=
    (Content.ofJson_indented _ hprinted).trans (read_members h)
  rw [ofFileText, hread]

theorem storable_of_optional {node : Node} {value : Option Nat}
    (h : node.optional Node.natural = .ok value) : ∀ n, value = some n → n < Nat.pow 2 64 := by
  rintro n rfl
  unfold Node.optional at h
  split at h
  · exact absurd h (by simp)
  · cases hread : node.natural with
    | error fault => simp [hread, Except.map] at h
    | ok m =>
      simp only [hread, Except.map, Except.ok.injEq, Option.some.injEq] at h
      exact h ▸ Node.natural_lt hread

/-- What is read can be kept in a file again. -/
theorem storable_of_read {node : Node} {preferences : Preferences}
    (h : layout.read true node = .ok preferences) : preferences.Storable := by
  obtain ⟨-, hstorable, -⟩ :=
    Layout.read_induction (P := fun preferences _ => preferences.Storable)
      ⟨nofun, nofun⟩ (fun before seen field node after hbefore hfill => by
        simp only [layout] at hfill
        split at hfill
        · obtain ⟨environment, -, hfill⟩ := ok_of_bind hfill
          obtain rfl := Except.ok.inj hfill
          exact ⟨hbefore.historyLimit, hbefore.timeout⟩
        · obtain ⟨limit, hread, hfill⟩ := ok_of_bind hfill
          obtain rfl := Except.ok.inj hfill
          exact ⟨storable_of_optional hread, hbefore.timeout⟩
        · obtain ⟨timeout, hread, hfill⟩ := ok_of_bind hfill
          obtain rfl := Except.ok.inj hfill
          exact ⟨hbefore.historyLimit, storable_of_optional hread⟩
        · exact absurd hfill (by simp)) (fun field hfield => absurd hfield (by simp [layout])) h
  exact hstorable

theorem storable_ofFileText (text : String) : (ofFileText text).Storable := by
  unfold ofFileText
  split
  · rename_i hread
    obtain ⟨node, hnode⟩ := Content.exists_of_ofJson _ hread
    exact storable_of_read hnode
  · exact ⟨nofun, nofun⟩

end Preferences

/-! ## Calls -/

/-- What is asked of settings. -/
inductive SettingsCall where
  /-- Another environment is named, or none. -/
  | set (environment : Option String)
  /-- The settings are opened anew. -/
  | reopen
deriving DecidableEq, Repr

/-- What settings answer. -/
inductive SettingsAnswer where
  | done
  | failed (fault : SettingsFault)
deriving DecidableEq, Repr

/-- The answer to a call that writes. -/
def SettingsAnswer.ofWrite : Except SettingsFault Unit → SettingsAnswer
  | .ok () => done
  | .error fault => failed fault

namespace Settings

/-- Answers a call, among some files. -/
def answer (settings : Settings) (files : FileTree) :
    SettingsCall → SettingsAnswer × Settings × FileTree
  | .set environment =>
    let (result, settings, files) := settings.setEnvironment files environment
    (.ofWrite result, settings, files)
  | .reopen =>
    match settings.path with
    | none => (.done, .ephemeral, files)
    | some path =>
      match openAt files path with
      | .ok settings => (.done, settings, files)
      | .error fault => (.failed fault, settings, files)

/-- Answers calls one after another. -/
def answerAll (settings : Settings) (files : FileTree) :
    List SettingsCall → List SettingsAnswer × Settings × FileTree
  | [] => ([], settings, files)
  | call :: calls =>
    let (answer, settings, files) := settings.answer files call
    let (answers, settings, files) := settings.answerAll files calls
    (answer :: answers, settings, files)

/-- The environment in memory, and the one that is found in the file. -/
structure Views where
  memory : Option String
  file : Option String
deriving DecidableEq, Repr

/-- Settings whose file has the environment that they have in memory. -/
def views (settings : Settings) : Views := ⟨settings.environment, settings.environment⟩

/-- What a call leaves of them: the file has what has been written, memory what was asked for. -/
def Views.after (views : Views) : SettingsCall × SettingsAnswer → Views
  | (.set environment, .done) => ⟨Text.nonBlank? environment, Text.nonBlank? environment⟩
  | (.set environment, .failed _) => ⟨Text.nonBlank? environment, views.file⟩
  | (.reopen, .done) => ⟨views.file, views.file⟩
  | (.reopen, .failed _) => views

/-- What calls one after another leave of them, by the answers. -/
def Views.afterAll (views : Views) (calls : List SettingsCall) (answers : List SettingsAnswer) :
    Views :=
  (calls.zip answers).foldl Views.after views

/-- The settings at a path that are as a file had them, but for the environment. -/
def naming (path : String) (base : Preferences) (environment : Option String) : Settings :=
  ⟨some path, { base with environment }⟩

/-- The settings in memory, and those that are found in the file when they can be opened. -/
structure Tracks (settings : Settings) (files : FileTree) (path : String) (base : Preferences)
    (views : Views) : Prop where
  storable : base.Storable
  memory : settings = naming path base views.memory
  file : ∀ fresh, openAt files path = .ok fresh → fresh = naming path base views.file

variable {files later : FileTree} {path : String} {base : Preferences} {views : Views}
  {settings : Settings}

theorem storable_naming (h : base.Storable) (environment : Option String) :
    Preferences.Storable { base with environment } := ⟨h.historyLimit, h.timeout⟩

/-- Settings as they are opened. -/
theorem tracks_openAt (h : openAt files path = .ok settings) :
    settings.Tracks files path settings.preferences settings.views := by
  have hopened : settings.preferences.Storable ∧ settings.path = some path := by
    unfold openAt at h
    split at h
    · obtain rfl := Except.ok.inj h
      exact ⟨Preferences.storable_ofFileText _, rfl⟩
    · obtain rfl := Except.ok.inj h
      exact ⟨⟨nofun, nofun⟩, rfl⟩
    · exact absurd h (by simp)
  have hsame : settings = naming path settings.preferences settings.environment := by
    obtain ⟨kept, preferences⟩ := settings
    obtain rfl : kept = some path := hopened.2
    rfl
  refine ⟨hopened.1, hsame, fun fresh hfresh => ?_⟩
  obtain rfl := Except.ok.inj (h.symm.trans hfresh)
  exact hsame

/-- What can be opened after preferences were saved. -/
theorem openAt_of_save {preferences : Preferences} (h : preferences.Storable)
    (hsaved : files.save path preferences.fileText = (.ok (), later)) :
    openAt later path = .ok ⟨some path, preferences⟩ := by
  rw [openAt, FileTree.read_of_save hsaved]
  dsimp only
  rw [Preferences.ofFileText_fileText h]

/-- What can be opened after something was not saved could be opened before. -/
theorem openAt_of_save_error {content : String} {fault : IoFault} {fresh : Settings}
    (hfailed : files.save path content = (.error fault, later))
    (h : openAt later path = .ok fresh) : openAt files path = .ok fresh := by
  obtain ⟨hnot, hmissing⟩ := FileTree.read_of_save_error hfailed
  unfold openAt at h ⊢
  split at h
  · rename_i text hread
    exact absurd hread (hnot text)
  · rename_i hread
    rw [hmissing hread]
    exact h
  · exact absurd h (by simp)

theorem answer_set {before environment : Option String} {result : Except IoFault Unit}
    (hsaved : files.save path
      (Preferences.fileText { base with environment := Text.nonBlank? environment }) =
        (result, later)) :
    (naming path base before).answer files (.set environment) =
      (.ofWrite (result.mapError .io), naming path base (Text.nonBlank? environment), later) := by
  simp only [answer, setEnvironment, naming, hsaved]

/-- A call leaves memory and file as `Views.after` says; they are the same if it succeeds. -/
theorem answer_tracks {call : SettingsCall} {answer : SettingsAnswer} {next : Settings}
    (h : settings.Tracks files path base views)
    (hanswer : settings.answer files call = (answer, next, later)) :
    next.Tracks later path base (views.after (call, answer)) ∧
      (answer = .done → openAt later path = .ok next) := by
  obtain ⟨hstorable, rfl, hfile⟩ := h
  cases call with
  | set environment =>
    cases hsave : files.save path
        (Preferences.fileText { base with environment := Text.nonBlank? environment }) with
    | mk result saved =>
      rw [answer_set hsave] at hanswer
      obtain ⟨rfl, hrest⟩ := Prod.mk.inj hanswer
      obtain ⟨rfl, rfl⟩ := Prod.mk.inj hrest
      cases result with
      | ok _ =>
        have hopen : openAt saved path = .ok (naming path base (Text.nonBlank? environment)) :=
          openAt_of_save (storable_naming hstorable _) hsave
        refine ⟨⟨hstorable, rfl, fun fresh hfresh => ?_⟩, fun _ => hopen⟩
        exact (Except.ok.inj (hopen.symm.trans hfresh)).symm
      | error fault =>
        refine ⟨⟨hstorable, rfl, fun fresh hfresh => ?_⟩, nofun⟩
        exact hfile fresh (openAt_of_save_error hsave hfresh)
  | reopen =>
    simp only [Settings.answer, naming] at hanswer
    cases hopen : openAt files path with
    | error fault =>
      rw [hopen] at hanswer
      cases hanswer
      exact ⟨⟨hstorable, rfl, hfile⟩, nofun⟩
    | ok fresh =>
      rw [hopen] at hanswer
      cases hanswer
      exact ⟨⟨hstorable, hfile _ hopen, hfile⟩, fun _ => hopen⟩

/-- So do calls one after another. -/
theorem answerAll_tracks {calls : List SettingsCall} {answers : List SettingsAnswer}
    {after : Settings} (h : settings.Tracks files path base views)
    (hanswers : settings.answerAll files calls = (answers, after, later)) :
    answers.length = calls.length ∧
      after.Tracks later path base (views.afterAll calls answers) ∧
      (answers.getLast? = some .done → openAt later path = .ok after) := by
  induction calls generalizing settings files views answers with
  | nil =>
    cases hanswers
    exact ⟨rfl, h, nofun⟩
  | cons call calls ih =>
    obtain ⟨⟨answer, next, between⟩, hfirst⟩ : ∃ outcome, settings.answer files call = outcome :=
      ⟨_, rfl⟩
    obtain ⟨⟨others, last, final⟩, hrest⟩ : ∃ outcome, next.answerAll between calls = outcome :=
      ⟨_, rfl⟩
    rw [answerAll, hfirst] at hanswers
    simp only [hrest] at hanswers
    cases hanswers
    obtain ⟨htracks, hopen⟩ := answer_tracks h hfirst
    obtain ⟨hlength, hlater, hdone⟩ := ih htracks hrest
    refine ⟨by rw [List.length_cons, List.length_cons, hlength], hlater, fun hlast => ?_⟩
    cases others with
    | nil =>
      -- The first call is the last one.
      obtain rfl : calls = [] := List.length_eq_zero_iff.1 hlength.symm
      cases hrest
      exact hopen (by simpa using hlast)
    | cons other others => exact hdone (by simpa using hlast)

/-- Settings that are opened and then called upon, in any way and whatever the calls come to, have
the environment that was asked for last, or that was found when they were opened again; those that
can be opened at the same path have the one that was written last. The limit of histories and the
time of requests stay on either side, and the two sides are the same unless the last call failed. -/
theorem answerAll_views (calls : List SettingsCall) (h : openAt files path = .ok settings) :
    ∃ answers after later, settings.answerAll files calls = (answers, after, later) ∧
      answers.length = calls.length ∧
      after.environment = (settings.views.afterAll calls answers).memory ∧
      after.historyLimit = settings.historyLimit ∧ after.timeout = settings.timeout ∧
      (∀ fresh, openAt later path = .ok fresh →
        fresh.environment = (settings.views.afterAll calls answers).file ∧
          fresh.historyLimit = settings.historyLimit ∧ fresh.timeout = settings.timeout) ∧
      ((∀ fault, answers.getLast? ≠ some (.failed fault)) → openAt later path = .ok after) := by
  obtain ⟨⟨answers, after, later⟩, hanswers⟩ : ∃ outcome,
    settings.answerAll files calls = outcome := ⟨_, rfl⟩
  obtain ⟨hlength, ⟨-, hmemory, hfile⟩, hdone⟩ := answerAll_tracks (tracks_openAt h) hanswers
  refine ⟨answers, after, later, hanswers, hlength, ?_, ?_, ?_, fun fresh hfresh => ?_, ?_⟩
  · rw [hmemory]
    rfl
  · rw [hmemory]
    rfl
  · rw [hmemory]
    rfl
  · rw [hfile fresh hfresh]
    exact ⟨rfl, rfl, rfl⟩
  · intro hlast
    cases hanswer : answers.getLast? with
    | none =>
      obtain rfl := List.getLast?_eq_none_iff.1 hanswer
      obtain rfl : calls = [] := List.length_eq_zero_iff.1 hlength.symm
      cases hanswers
      exact h
    | some answer =>
      cases answer with
      | done => exact hdone hanswer
      | failed fault => exact absurd hanswer (hlast fault)

/-- In a tree without files an environment is named, and found when the settings are opened anew. -/
theorem answerAll_views_named :
    ∃ settings answers after later, openAt .empty "settings.json" = .ok settings ∧
      settings.answerAll .empty [.set (some "dev")] = (answers, after, later) ∧
      answers = [.done] ∧ after.environment = some "dev" ∧
      openAt later "settings.json" = .ok after := by
  let settings : Settings := ⟨some "settings.json", {}⟩
  have hopen : openAt .empty "settings.json" = .ok settings := rfl
  obtain ⟨answers, after, later, hrun, -, hmemory, -, -, -, hagain⟩ :=
    answerAll_views [.set (some "dev")] hopen
  have hanswers : answers = [.done] := (congrArg Prod.fst hrun).symm
  refine ⟨settings, answers, after, later, hopen, hrun, hanswers, ?_, hagain ?_⟩
  · rw [hmemory, hanswers]
    rfl
  · rw [hanswers]
    nofun

/-- Where the path leads nowhere, settings are opened without a file, and an environment that cannot
be written stays in memory alone. -/
theorem setEnvironment_drifts :
    ∃ settings after later fresh, openAt .empty "" = .ok settings ∧
      settings.setEnvironment .empty (some "staging") =
        (.error (.io .notFound), after, later) ∧
      openAt later "" = .ok fresh ∧ settings.environment = none ∧
      after.environment = some "staging" ∧ fresh.environment = none :=
  ⟨⟨some "", {}⟩, ⟨some "", { environment := some "staging" }⟩, .empty, ⟨some "", {}⟩, rfl, rfl, rfl,
    rfl, rfl, rfl⟩

end Settings

end RequestFlow
