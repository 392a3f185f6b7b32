import RequestFlow.Text.Blank

/-!
# Paths

A path is a text with slashes between names. An empty name and a single dot mean nothing in a path,
two dots mean the directory above.

* `Path.join`: a path below another;
* `Path.expandHome`: a path with the tilde in front replaced;
* `Path.configFile`: where a file of this program is kept.
-/

namespace RequestFlow.Path

/-- The texts between the slashes. -/
def pieces (cs : List Char) : List (List Char) :=
  match cs with
  | [] => [[]]
  | c :: rest =>
    if c = '/' then [] :: pieces rest
    else match pieces rest with
      | [] => [[c]]
      | piece :: others => (c :: piece) :: others

/-- The names in a path that mean something, two dots among them. -/
def names (path : String) : List String :=
  ((pieces path.toList).map String.ofList).filter fun name => name != "" && name != "."

/-- The path starts at the root. -/
def isAbsolute (path : String) : Bool := path.toList.head? == some '/'

/-- The path says that it is one of a directory: it ends in a slash, or in a dot of its own. -/
def namesDirectory (path : String) : Bool :=
  match (pieces path.toList).getLast? with
  | some ['.'] | some [] => path != ""
  | _ => false

/-- The last name of a path, if it is the name of something. -/
def fileName? (path : String) : Option String :=
  (names path).getLast?.filter (· != "..")

/-- What follows the last dot of a name, if the dot is not at its start. -/
def extension? (path : String) : Option String := do
  let name ← fileName? path
  let back := name.toList.reverse
  let ending := back.takeWhile (· != '.')
  if ending.length + 1 < back.length then some (String.ofList ending.reverse) else none

/-- What stands in front of the last slash, if that is anything. -/
def parent? (path : String) : Option String :=
  match path.toList.reverse.dropWhile (· != '/') with
  | [] | [_] => none
  | _ :: above => some (String.ofList above.reverse)

/-- A path below another; one that starts at the root stands for itself. -/
def join (base path : String) : String :=
  if isAbsolute path || base = "" then path
  else if base.toList.getLast? = some '/' then base ++ path
  else base ++ "/" ++ path

/-- The path without the blanks around it, and with the home directory for a tilde in front. -/
def expandHome (home path : String) : String :=
  match Text.trim path.toList with
  | ['~'] => home
  | '~' :: '/' :: rest | '~' :: '\\' :: rest => join home (String.ofList rest)
  | cs => String.ofList cs

/-- What the paths of this program depend on. -/
structure Places where
  /-- The home directory. -/
  home : String
  /-- The directory for configuration, as far as the user names one. -/
  config : Option String := none

/-- The directory for configuration: the one the user names, if it starts at the root. -/
def Places.configDirectory (places : Places) : String :=
  (places.config.filter isAbsolute).getD (join places.home ".config")

/-- The directory for this program's files below the one for configuration. -/
def programDirectory : String := "reqterm"

/-- Where a file of this program is: where the user says, or else with its configuration. -/
def configFile (places : Places) (override : Option String) (file : String) : String :=
  match Text.nonBlank? override with
  | some path => expandHome places.home path
  | none => join (join places.configDirectory programDirectory) file

end RequestFlow.Path
