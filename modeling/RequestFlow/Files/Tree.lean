import RequestFlow.Files.Path

/-!
# Trees of files

The files that the program sees, as a value: directories hold files and directories by name, and
paths that do not start at the root start at the working directory. Reading, writing and making
directories fail as they do on Linux, as far as paths go: a medium that is full or breaks is not
part of a tree.

* `FileTree.read`: the content of a file;
* `FileTree.write`: the tree with another content of a file;
* `FileTree.makeAll`: a directory and all directories above it;
* `FileTree.save`: a file with the directories above it.
-/

namespace RequestFlow

/-- Why an operation on files fails. Each of these is found out before a file is opened, so that a
write that fails leaves the file as it was. A write that is interrupted midway, after the file has
been emptied, leaves something else behind; no operation here fails in that way. -/
inductive IoFault where
  | notFound | alreadyThere | notDirectory | isDirectory | nameTooLong | nulInName
deriving DecidableEq, Repr

/-- The wording of a fault. -/
def IoFault.message : IoFault → String
  | notFound => "No such file or directory (os error 2)"
  | alreadyThere => "File exists (os error 17)"
  | notDirectory => "Not a directory (os error 20)"
  | isDirectory => "Is a directory (os error 21)"
  | nameTooLong => "File name too long (os error 36)"
  | nulInName => "file name contained an unexpected NUL byte"

/-- A file or a directory. -/
inductive FileNode where
  | file (content : String)
  | directory (members : List (String × FileNode))

namespace FileNode

/-- The member with a name. -/
def member? (name : String) : List (String × FileNode) → Option FileNode
  | [] => none
  | (n, node) :: rest => if n = name then some node else member? name rest

/-- Puts a member in the place of the one with its name, or at the end. -/
def putMember (name : String) (node : FileNode) : List (String × FileNode) → List (String × FileNode)
  | [] => [(name, node)]
  | (n, old) :: rest =>
    if n = name then (n, node) :: rest else (n, old) :: putMember name node rest

/-- What a list of names leads to. -/
def find? : FileNode → List String → Option FileNode
  | node, [] => some node
  | directory members, name :: rest => (member? name members).bind fun node => node.find? rest
  | file _, _ :: _ => none

/-- The node with another one at the end of a list of names. Nothing changes where the names
before the last do not lead to a directory. -/
def put (node : FileNode) : List String → FileNode → FileNode
  | [], new => new
  | name :: rest, new =>
    match node with
    | file content => file content
    | directory members =>
      match member? name members, rest with
      | some old, rest => directory (putMember name (old.put rest new) members)
      | none, [] => directory (putMember name new members)
      | none, _ :: _ => directory members

end FileNode

/-- The files that the program sees. -/
structure FileTree where
  root : FileNode
  /-- The names that lead to the working directory. -/
  working : List String

namespace FileTree

/-- A tree without files. -/
def empty : FileTree := ⟨.directory [], []⟩

/-- A name that can be looked up. -/
def checkName (name : String) : Except IoFault Unit :=
  if 255 < name.utf8ByteSize then .error .nameTooLong else .ok ()

/-- Follows names from a directory; each must lead to something. The names that lead there, from
the root. -/
def walk (files : FileTree) : List String → List String → Except IoFault (List String)
  | here, [] => .ok here
  | here, name :: rest =>
    match files.root.find? here with
    | some (.directory members) =>
      if name = ".." then files.walk here.dropLast rest
      else do
        checkName name
        match FileNode.member? name members with
        | some _ => files.walk (here ++ [name]) rest
        | none => .error .notFound
    | _ => .error .notDirectory

/-- A path that can be looked up at all. -/
def checkPath (path : String) : Except IoFault Unit :=
  if path.toList.contains '\x00' then .error .nulInName
  else if 4095 < path.utf8ByteSize then .error .nameTooLong
  else if path = "" then .error .notFound
  else .ok ()

/-- The names that a path starts from. -/
def start (files : FileTree) (path : String) : List String :=
  if Path.isAbsolute path then [] else files.working

/-- The names that lead to the place of a path, from the root; its directory must be there. -/
def place (files : FileTree) (here : List String) (names : List String) :
    Except IoFault (List String) :=
  match names.getLast? with
  | none => .ok here
  | some last => do
    let directory ← files.walk here names.dropLast
    match files.root.find? directory with
    | some (.directory _) =>
      if last = ".." then return directory.dropLast
      checkName last
      return directory ++ [last]
    | _ => .error .notDirectory

/-- What is at a path. -/
def get (files : FileTree) (path : String) : Except IoFault FileNode := do
  checkPath path
  let place ← files.place (files.start path) (Path.names path)
  match files.root.find? place with
  | some node => return node
  | none => .error .notFound

/-- The content of a file. -/
def read (files : FileTree) (path : String) : Except IoFault String := do
  match ← files.get path with
  | .directory _ => .error .isDirectory
  | .file content =>
    if Path.namesDirectory path then .error .notDirectory else .ok content

/-- The tree with another content of a file. -/
def write (files : FileTree) (path content : String) : Except IoFault FileTree := do
  checkPath path
  let place ← files.place (files.start path) (Path.names path)
  match files.root.find? place with
  | some (.directory _) => .error .isDirectory
  | some (.file _) =>
    if Path.namesDirectory path then .error .notDirectory
    else return { files with root := files.root.put place (.file content) }
  | none =>
    if Path.namesDirectory path then .error .isDirectory
    else return { files with root := files.root.put place (.file content) }

/-- The tree with one more directory; names are followed from `here`. -/
def make (files : FileTree) (here names : List String) : Except IoFault FileTree := do
  let place ← files.place here names
  match files.root.find? place with
  | some _ => .error .alreadyThere
  | none => return { files with root := files.root.put place (.directory []) }

/-- The names lead to a directory. -/
def isDirectory (files : FileTree) (here names : List String) : Bool :=
  match files.place here names with
  | .ok place =>
    match files.root.find? place with
    | some (.directory _) => true
    | _ => false
  | .error _ => false

/-- Makes the directory of some names, the last name first, and all directories above it; those
that are made stay even where one below them cannot be. -/
def makeUp (files : FileTree) (here : List String) : List String → Except IoFault Unit × FileTree
  | [] => (.ok (), files)
  | name :: up =>
    let names := (name :: up).reverse
    match files.make here names with
    | .ok made => (.ok (), made)
    | .error .notFound =>
      match files.makeUp here up with
      | (.error fault, files) => (.error fault, files)
      | (.ok (), files) =>
        match files.make here names with
        | .ok made => (.ok (), made)
        | .error fault => (if files.isDirectory here names then .ok () else .error fault, files)
    | .error fault => (if files.isDirectory here names then .ok () else .error fault, files)

/-- Makes the directory at a path and all directories above it. -/
def makeAll (files : FileTree) (path : String) : Except IoFault Unit × FileTree :=
  if path.toList.contains '\x00' then (.error .nulInName, files)
  else files.makeUp (files.start path) (Path.names path).reverse

/-- Makes the directory that a path lies in and all directories above it. -/
def makeParent (files : FileTree) (path : String) : Except IoFault Unit × FileTree :=
  if path.toList.contains '\x00' then (.error .nulInName, files)
  else files.makeUp (files.start path) (Path.names path).dropLast.reverse

/-- Writes a file, with the directories above it; these stay even where the file cannot be
written, which is then as it was. -/
def save (files : FileTree) (path content : String) : Except IoFault Unit × FileTree :=
  match files.makeParent path with
  | (.error fault, files) => (.error fault, files)
  | (.ok (), files) =>
    match files.write path content with
    | .error fault => (.error fault, files)
    | .ok files => (.ok (), files)

end FileTree

end RequestFlow
