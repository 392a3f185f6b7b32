import RequestFlow.History.Store

/-!
# Settings

What a user can set for all runs: the environment that is used when none is named, how many
entries the history holds, and how long a request may take. Settings live in a JSON file; a file
that is not there, or that does not hold settings, leaves everything as it is by default.

* `Settings.openAt`: the settings in a file;
* `Settings.setEnvironment`: names another environment, or none.
-/

namespace RequestFlow

/-- Why an operation on settings fails. -/
inductive SettingsFault where
  | io (fault : IoFault)
deriving DecidableEq, Repr

/-- The wording of a fault. -/
def SettingsFault.message : SettingsFault → String
  | io fault => "settings I/O error: " ++ fault.message

/-- What the user has set. -/
structure Preferences where
  environment : Option String := none
  historyLimit : Option Nat := none
  /-- How long a request may take, in seconds. -/
  timeout : Option Nat := none
deriving DecidableEq, Repr, Inhabited

/-- What the user has set, and the file in which it is kept, if it is kept at all. -/
structure Settings where
  path : Option String
  preferences : Preferences
deriving DecidableEq, Repr

namespace Preferences

/-- The fields of a settings file. -/
def layout : Layout Preferences where
  blank := {}
  fields := ["default_environment", "history_limit", "request_timeout_secs"]
  required := []
  fill preferences field node := do
    match field with
    | "default_environment" => return { preferences with environment := ← node.optional Node.text }
    | "history_limit" => return { preferences with historyLimit := ← node.optional Node.natural }
    | "request_timeout_secs" => return { preferences with timeout := ← node.optional Node.natural }
    | _ => .error .malformed

/-- A member for something that has been set. -/
def member {α : Type} (key : String) (write : α → Json) (value : Option α) :
    List (String × Json) :=
  value.toList.map fun value => (key, write value)

/-- The content of the file that holds some preferences. -/
def fileText (preferences : Preferences) : String :=
  (Json.object (member "default_environment" .string preferences.environment ++
    member "history_limit" .nat preferences.historyLimit ++
    member "request_timeout_secs" .nat preferences.timeout)).indented

/-- The preferences in the content of a file; content of any other kind sets nothing. -/
def ofFileText (text : String) : Preferences :=
  match Content.ofJson (layout.read true) text with
  | .ok preferences => preferences
  | .error _ => {}

end Preferences

namespace Settings

/-- The name of the file in which settings are kept. -/
def fileName : String := "settings.json"

/-- How long a request may take unless told otherwise, in seconds. -/
def defaultTimeout : Nat := 30

/-- Settings that are not kept in a file. -/
def ephemeral : Settings := ⟨none, {}⟩

/-- The settings in a file. -/
def openAt (files : FileTree) (path : String) : Except SettingsFault Settings :=
  match files.read path with
  | .ok text => .ok ⟨some path, .ofFileText text⟩
  | .error .notFound => .ok ⟨some path, {}⟩
  | .error fault => .error (.io fault)

/-- The environment for runs that name none. -/
def environment (settings : Settings) : Option String := settings.preferences.environment

/-- How many entries the history holds. -/
def historyLimit (settings : Settings) : Nat :=
  settings.preferences.historyLimit.getD History.defaultLimit

/-- How long a request may take, in seconds; no time at all stands for the default. -/
def timeout (settings : Settings) : Nat :=
  (settings.preferences.timeout.filter (0 < ·)).getD defaultTimeout

/-- Names another environment for runs that name none; a blank name clears it. The change stays
even where it cannot be written to the file. -/
def setEnvironment (settings : Settings) (files : FileTree) (environment : Option String) :
    Except SettingsFault Unit × Settings × FileTree :=
  let preferences :=
    { settings.preferences with environment := Text.nonBlank? environment }
  let settings := { settings with preferences }
  match settings.path with
  | none => (.ok (), settings, files)
  | some path =>
    let (result, files) := files.save path preferences.fileText
    (result.mapError .io, settings, files)

end Settings

end RequestFlow
