import RequestFlow.Document.Source
import RequestFlow.Files.Tree

/-!
# Documents in files

A file whose name ends in `.json`, in any case, holds JSON; any other file holds YAML. A document
remembers the path of its file.
-/

namespace RequestFlow

/-- Why a document cannot be loaded. -/
inductive LoadFault where
  | unreadable (path : String)
  | invalid (format : Format) (path : String) (fault : ContentFault)
deriving DecidableEq, Repr

/-- The name of a notation. -/
def Format.text : Format → String
  | json => "JSON"
  | yaml => "YAML"

/-- The outermost part of the wording of a fault. -/
def LoadFault.headline : LoadFault → String
  | unreadable path => "failed to read request document: " ++ path
  | invalid format path _ => "invalid " ++ format.text ++ " request document: " ++ path

/-- The wording of a fault. -/
def LoadFault.message (fault : LoadFault) : String :=
  fault.headline ++
    match fault with
    | invalid _ _ content => (content.detail.map (": " ++ ·)).getD ""
    | unreadable _ => ""

/-- The notation of a file. -/
def Format.ofPath (path : String) : Format :=
  if (Path.extension? path).map (fun ending => ending.toList.map Char.toLower) =
      some ['j', 's', 'o', 'n'] then .json
  else .yaml

/-- The document in a file. -/
def Document.load (files : FileTree) (path : String) : Except LoadFault Document :=
  match files.read path with
  | .error _ => .error (.unreadable path)
  | .ok text =>
    let format := Format.ofPath path
    match Document.parse format text with
    | .ok document => .ok { document with path := some path }
    | .error fault => .error (.invalid format path fault)

end RequestFlow
