import RequestFlow.CommandLine.Basic

/-!
# The command line

The outer layer of the program: it looks up what a call may read, has the call executed on that,
prints its lines, and writes the history back where the call changed it.
-/

namespace RequestFlow.CommandLine

/-- The tree with what is at a path. Something that is there but cannot be read as a text stands
as a directory, which cannot be read either. -/
def observe (files : FileTree) (path : String) : IO FileTree := do
  try return (files.save path (← IO.FS.readFile path)).2
  catch
    | .noFileOrDirectory _ _ _ => return files
    | _ => return (files.makeAll path).2

/-- What the program finds around it. -/
def surroundings : IO Surroundings := do
  let home := (← IO.getEnv "HOME").getD "~"
  return {
    places := ⟨home, ← IO.getEnv "XDG_CONFIG_HOME"⟩
    settingsPath := ← IO.getEnv "REQTERM_SETTINGS_PATH"
    historyPath := ← IO.getEnv "REQTERM_HISTORY_PATH" }

/-- Writes a file and the directories above it. A history that cannot be written does not change
how a call ends. -/
def store (path content : String) : IO Unit := do
  try
    if let some directory := Path.parent? path then IO.FS.createDirAll directory
    IO.FS.writeFile path content
  catch _ => return ()

end RequestFlow.CommandLine

open RequestFlow in
/-- One call of the program. -/
def main (words : List String) : IO UInt32 := do
  let around ← CommandLine.surroundings
  let working := Path.names (← IO.currentDir).toString
  let here := (FileTree.empty.makeUp [] working.reverse).2
  let files ← (CommandLine.filesOf around words).foldlM CommandLine.observe { here with working }
  let (result, after) := CommandLine.execute around files words
  for line in result.lines do
    IO.println line
  if let some message := result.failure then
    IO.eprintln ("Error: " ++ message)
  if let some (path, content) := CommandLine.changedHistory? around words files after then
    CommandLine.store path content
  return result.code.toUInt32
