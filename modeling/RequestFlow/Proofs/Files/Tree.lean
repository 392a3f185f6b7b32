import RequestFlow.Files.Tree
import RequestFlow.Proofs.Faults

/-!
# A file that was written is read

Writing a file changes the tree in one place, which holds no directory. Every directory stays where
it was with everything in it, so each path leads where it led before, and the path of the file leads
to its new content.

* `FileNode.find?_put_self`, `FileNode.find?_put_directory`: the place that changes, and all
  directories;
* `FileTree.Keeps`: the trees that a tree may become so that names still lead where they led;
* `FileTree.write_ok`: what a tree is like in which a file can be written;
* `FileTree.read_of_save`: reading what was written.
-/

namespace RequestFlow

/-! ## Paths -/

namespace Path

theorem pieces_ne_nil (cs : List Char) : pieces cs ≠ [] := by
  cases cs with
  | nil => simp [pieces]
  | cons c rest =>
    rw [pieces]
    split
    · simp
    · split <;> simp

/-- A path in which nothing has a name is one of a directory. -/
theorem namesDirectory_of_names {path : String} (h : names path = []) (hpath : path ≠ "") :
    namesDirectory path = true := by
  obtain ⟨piece, hpiece⟩ := Option.isSome_iff_exists.1
    (List.getLast?_isSome.2 (pieces_ne_nil path.toList))
  have hnone := List.filter_eq_nil_iff.1 h (String.ofList piece)
    (List.mem_map_of_mem (List.mem_of_getLast? hpiece))
  have hempty : piece = [] ∨ piece = ['.'] := by
    simp only [Bool.and_eq_true, bne_iff_ne, ne_eq, not_and, Decidable.not_not] at hnone
    by_cases hblank : String.ofList piece = ""
    · exact .inl (by simpa using congrArg String.toList hblank)
    · exact .inr (by simpa using congrArg String.toList (hnone hblank))
  rcases hempty with rfl | rfl <;> simpa [namesDirectory, hpiece] using hpath

end Path

/-! ## Nodes -/

namespace FileNode

section

variable {name other : String} {node : FileNode} {members : List (String × FileNode)}

@[simp] theorem member?_putMember_self : member? name (putMember name node members) = some node := by
  induction members with
  | nil => simp [putMember, member?]
  | cons member rest ih =>
    by_cases h : member.1 = name
    · simp [putMember, member?, h]
    · simp [putMember, member?, h, ih]

theorem member?_putMember_of_ne (h : name ≠ other) :
    member? other (putMember name node members) = member? other members := by
  induction members with
  | nil => simp [putMember, member?, h]
  | cons member rest ih =>
    by_cases hname : member.1 = name
    · have hother : member.1 ≠ other := by rw [hname]; exact h
      simp [putMember, member?, hname, h]
    · simp [putMember, member?, hname, ih]

/-- No member goes when one is put among them. -/
theorem isSome_member?_putMember (h : (member? other members).isSome = true) :
    (member? other (putMember name node members)).isSome = true := by
  by_cases hname : name = other
  · rw [← hname, member?_putMember_self, Option.isSome_some]
  · rw [member?_putMember_of_ne hname]
    exact h

end

variable {root new : FileNode} {here place : List String}

@[simp] theorem find?_nil (node : FileNode) : node.find? [] = some node := by
  cases node <;> rw [find?]

theorem find?_cons (members : List (String × FileNode)) (name : String) (rest : List String) :
    (directory members).find? (name :: rest) =
      (member? name members).bind fun node => node.find? rest := by
  rw [find?]

theorem put_nil (node : FileNode) : node.put [] new = new := by
  cases node <;> rw [put]

theorem put_old {name : String} {rest : List String} {members : List (String × FileNode)}
    {old : FileNode} (h : member? name members = some old) :
    (directory members).put (name :: rest) new =
      directory (putMember name (old.put rest new) members) := by
  rw [put]
  exact h

theorem put_new {name : String} {members : List (String × FileNode)}
    (h : member? name members = none) :
    (directory members).put [name] new = directory (putMember name new members) := by
  simp only [put, h]

/-- Nothing changes where the names lead nowhere. -/
theorem put_lost {name next : String} {rest : List String} {members : List (String × FileNode)}
    (h : member? name members = none) :
    (directory members).put (name :: next :: rest) new = directory members := by
  simp only [put, h]

theorem find?_append (front back : List String) :
    root.find? (front ++ back) = (root.find? front).bind fun node => node.find? back := by
  induction front generalizing root with
  | nil => rw [List.nil_append, find?_nil, Option.bind_some]
  | cons name rest ih =>
    cases root with
    | file content => rw [List.cons_append, find?, find?, Option.bind_none]
    | directory members =>
      rw [List.cons_append, find?_cons, find?_cons]
      cases member? name members with
      | none => rfl
      | some node => exact ih

/-- What leads to something leads through directories. -/
theorem find?_dropLast {node : FileNode} (h : root.find? place = some node) (hne : place ≠ []) :
    ∃ members, root.find? place.dropLast = some (directory members) := by
  rw [← List.dropLast_concat_getLast hne, find?_append] at h
  obtain ⟨above, habove, hlast⟩ := Option.bind_eq_some_iff.1 h
  cases above with
  | file content => exact absurd hlast (by rw [find?]; simp)
  | directory members => exact ⟨members, habove⟩

/-- What is put in a directory is found there. -/
theorem find?_put_self {members : List (String × FileNode)} {last : String}
    (h : root.find? here = some (directory members)) :
    (root.put (here ++ [last]) new).find? (here ++ [last]) = some new := by
  induction here generalizing root with
  | nil =>
    rw [find?_nil] at h
    obtain rfl := Option.some.inj h
    rw [List.nil_append]
    cases hlast : member? last members with
    | none => rw [put_new hlast, find?_cons, member?_putMember_self, Option.bind_some, find?_nil]
    | some old =>
      rw [put_old hlast, put_nil, find?_cons, member?_putMember_self, Option.bind_some, find?_nil]
  | cons name rest ih =>
    cases root with
    | file content => exact absurd h (by rw [find?]; simp)
    | directory others =>
      rw [find?_cons] at h
      obtain ⟨node, hnode, hrest⟩ := Option.bind_eq_some_iff.1 h
      rw [List.cons_append, put_old hnode, find?_cons, member?_putMember_self, Option.bind_some]
      exact ih hrest

/-- A directory stays, with everything in it, when something is put where no directory is. -/
theorem find?_put_directory {members : List (String × FileNode)}
    (hplace : ∀ others, root.find? place ≠ some (directory others))
    (h : root.find? here = some (directory members)) :
    ∃ after, (root.put place new).find? here = some (directory after) ∧
      ∀ name, (member? name members).isSome = true → (member? name after).isSome = true := by
  induction place generalizing root here with
  | nil =>
    cases root with
    | directory others => exact absurd (find?_nil _) (hplace others)
    | file content =>
      cases here with
      | nil => simp at h
      | cons name rest => exact absurd h (by rw [find?]; simp)
  | cons name rest ih =>
    cases root with
    | file content => exact ⟨members, by rw [put]; exact h, fun _ hsome => hsome⟩
    | directory others =>
      -- Three cases as in `put`: the name is there, it is new and last, or it leads nowhere.
      cases hold : member? name others with
      | some old =>
        rw [find?_cons, hold] at hplace
        rw [put_old hold]
        cases here with
        | nil =>
          rw [find?_nil] at h
          obtain rfl := directory.inj (Option.some.inj h)
          exact ⟨_, find?_nil _, fun _ => isSome_member?_putMember⟩
        | cons first tail =>
          rw [find?_cons] at h ⊢
          by_cases hfirst : name = first
          · rw [← hfirst, hold] at h
            rw [← hfirst, member?_putMember_self]
            exact ih hplace h
          · rw [member?_putMember_of_ne hfirst]
            exact ⟨members, h, fun _ hsome => hsome⟩
      | none =>
        cases rest with
        | cons next rest =>
          rw [put_lost hold]
          exact ⟨members, h, fun _ hsome => hsome⟩
        | nil =>
          rw [put_new hold]
          cases here with
          | nil =>
            rw [find?_nil] at h
            obtain rfl := directory.inj (Option.some.inj h)
            exact ⟨_, find?_nil _, fun _ => isSome_member?_putMember⟩
          | cons first tail =>
            rw [find?_cons] at h ⊢
            have hfirst : name ≠ first := by
              rintro rfl
              rw [hold] at h
              exact absurd h (by simp)
            rw [member?_putMember_of_ne hfirst]
            exact ⟨members, h, fun _ hsome => hsome⟩

end FileNode

/-! ## Trees -/

namespace FileTree

variable {files after : FileTree} {path content : String} {here names : List String}

/-- The tree with another node at the end of some names. -/
def withNode (files : FileTree) (place : List String) (node : FileNode) : FileTree :=
  { files with root := files.root.put place node }

/-- The tree with a file at the end of some names. -/
def withFile (files : FileTree) (place : List String) (content : String) : FileTree :=
  files.withNode place (.file content)

/-- All directories of a tree are in a later one, and in each there is something of every name that
it had. -/
structure Keeps (files later : FileTree) : Prop where
  working : later.working = files.working
  directory : ∀ {here : List String} {members : List (String × FileNode)},
    files.root.find? here = some (.directory members) →
      ∃ after, later.root.find? here = some (.directory after) ∧
        ∀ name, (FileNode.member? name members).isSome = true →
          (FileNode.member? name after).isSome = true

/-- Putting something where no directory is keeps all directories. -/
theorem keeps_withNode {place : List String} (node : FileNode)
    (hplace : ∀ others, files.root.find? place ≠ some (.directory others)) :
    files.Keeps (files.withNode place node) :=
  ⟨rfl, FileNode.find?_put_directory hplace⟩

@[simp] theorem walk_nil : files.walk here [] = .ok here := by rw [walk]

theorem walk_up {members : List (String × FileNode)}
    (hhere : files.root.find? here = some (.directory members)) :
    files.walk here (".." :: names) = files.walk here.dropLast names := by
  rw [walk, hhere]
  simp

theorem walk_into {members : List (String × FileNode)} {name : String}
    (hhere : files.root.find? here = some (.directory members)) (hname : name ≠ "..")
    (hshort : checkName name = .ok ()) (hthere : (FileNode.member? name members).isSome = true) :
    files.walk here (name :: names) = files.walk (here ++ [name]) names := by
  obtain ⟨node, hnode⟩ := Option.isSome_iff_exists.1 hthere
  rw [walk, hhere]
  simp only [hname, if_false, hshort, hnode]
  rfl

/-- What a step along names takes. -/
theorem walk_cons_ok {name : String} {target : List String}
    (h : files.walk here (name :: names) = .ok target) :
    ∃ members, files.root.find? here = some (.directory members) ∧
      (name = ".." ∨ checkName name = .ok () ∧ (FileNode.member? name members).isSome = true) := by
  rw [walk] at h
  split at h
  · rename_i members hhere
    refine ⟨members, hhere, ?_⟩
    by_cases hname : name = ".."
    · exact .inl hname
    rw [if_neg hname] at h
    obtain ⟨_, hshort, h⟩ := ok_of_bind h
    refine .inr ⟨hshort, ?_⟩
    cases hthere : FileNode.member? name members with
    | none =>
      rw [hthere] at h
      exact absurd h (by simp)
    | some node => rfl
  · exact absurd h (by simp)

/-- Names lead where they led before. -/
theorem Keeps.walk {later : FileTree} {target : List String} (keeps : files.Keeps later)
    (h : files.walk here names = .ok target) : later.walk here names = .ok target := by
  induction names generalizing here with
  | nil =>
    rw [walk_nil] at h ⊢
    exact h
  | cons name rest ih =>
    obtain ⟨members, hhere, hstep⟩ := walk_cons_ok h
    obtain ⟨still, hstill, hmembers⟩ := keeps.directory hhere
    -- Two dots lead up, whatever the directory holds; any other name is still in it.
    rcases hstep with rfl | ⟨hshort, hthere⟩
    · rw [walk_up hhere] at h
      rw [walk_up hstill]
      exact ih h
    · by_cases hname : name = ".."
      · subst hname
        rw [walk_up hhere] at h
        rw [walk_up hstill]
        exact ih h
      · rw [walk_into hhere hname hshort hthere] at h
        rw [walk_into hstill hname hshort (hmembers name hthere)]
        exact ih h

/-- So does a place, the directory of which is there. -/
theorem Keeps.place {later : FileTree} {target : List String} (keeps : files.Keeps later)
    (h : files.place here names = .ok target) : later.place here names = .ok target := by
  rw [FileTree.place] at h ⊢
  cases hlast : names.getLast? with
  | none =>
    rw [hlast] at h
    exact h
  | some last =>
    rw [hlast] at h
    obtain ⟨directory, hwalk, h⟩ := ok_of_bind h
    simp only [keeps.walk hwalk, bind, Except.bind]
    split at h
    · rename_i members hmembers
      obtain ⟨still, hstill, -⟩ := keeps.directory hmembers
      rw [hstill]
      exact h
    · exact absurd h (by simp)

/-- Where names lead when they lead anywhere: nowhere new, up from a directory, or into one. -/
theorem place_ok {target : List String} (h : files.place here names = .ok target) :
    names = [] ∨ ∃ directory members, files.root.find? directory = some (.directory members) ∧
      (target = directory.dropLast ∨ ∃ last, target = directory ++ [last]) := by
  rw [FileTree.place] at h
  cases hlast : names.getLast? with
  | none => exact .inl (List.getLast?_eq_none_iff.1 hlast)
  | some last =>
    rw [hlast] at h
    obtain ⟨directory, -, h⟩ := ok_of_bind h
    split at h
    · rename_i members hmembers
      refine .inr ⟨directory, members, hmembers, ?_⟩
      split at h
      · exact .inl (Except.ok.inj h).symm
      · obtain ⟨_, -, h⟩ := ok_of_bind h
        exact .inr ⟨last, (Except.ok.inj h).symm⟩
    · exact absurd h (by simp)

/-- Where a file is put when it is written: where the path leads, which is to no directory. -/
theorem write_target (h : files.write path content = .ok after) :
    checkPath path = .ok () ∧ Path.namesDirectory path = false ∧
      ∃ target, files.place (files.start path) (Path.names path) = .ok target ∧
        (∀ others, files.root.find? target ≠ some (.directory others)) ∧
        after = files.withFile target content := by
  rw [write] at h
  obtain ⟨_, hcheck, h⟩ := ok_of_bind h
  obtain ⟨target, hplace, h⟩ := ok_of_bind h
  have hdirectory : Path.namesDirectory path = false := by
    cases hnames : Path.namesDirectory path with
    | false => rfl
    | true =>
      rw [hnames] at h
      split at h <;> exact absurd h (by simp)
  rw [hdirectory] at h
  refine ⟨hcheck, hdirectory, target, hplace, ?_⟩
  split at h
  · exact absurd h (by simp)
  · rename_i old hold
    exact ⟨fun others => by rw [hold]; simp, (Except.ok.inj h).symm⟩
  · rename_i hold
    exact ⟨fun others => by rw [hold]; simp, (Except.ok.inj h).symm⟩

/-- What a tree is like in which a file can be written: the path leads into a directory. -/
theorem write_ok (h : files.write path content = .ok after) :
    checkPath path = .ok () ∧ Path.namesDirectory path = false ∧
      ∃ directory last members,
        files.place (files.start path) (Path.names path) = .ok (directory ++ [last]) ∧
        files.root.find? directory = some (.directory members) ∧
        (∀ others, files.root.find? (directory ++ [last]) ≠ some (.directory others)) ∧
        after = files.withFile (directory ++ [last]) content := by
  obtain ⟨hcheck, hnames, target, hplace, hnone, hafter⟩ := write_target h
  refine ⟨hcheck, hnames, ?_⟩
  rcases place_ok hplace with hempty | ⟨directory, members, hmembers, hup | ⟨last, hlast⟩⟩
  · -- A path without names is one of a directory.
    have hpath : path ≠ "" := by
      rintro rfl
      exact absurd hcheck (by simp [checkPath])
    rw [Path.namesDirectory_of_names hempty hpath] at hnames
    exact absurd hnames (by decide)
  · -- Above a directory is a directory.
    by_cases htop : directory = []
    · rw [hup, htop] at hnone
      rw [htop] at hmembers
      exact absurd hmembers (hnone members)
    · obtain ⟨others, hothers⟩ := FileNode.find?_dropLast hmembers htop
      rw [hup] at hnone
      exact absurd hothers (hnone others)
  · subst hlast
    exact ⟨directory, last, members, hplace, hmembers, hnone, hafter⟩

theorem get_of_place {target : List String} {node : FileNode} (hcheck : checkPath path = .ok ())
    (hplace : files.place (files.start path) (Path.names path) = .ok target)
    (hnode : files.root.find? target = some node) : files.get path = .ok node := by
  simp only [FileTree.get, hcheck, hplace, hnode, bind, Except.bind, pure, Except.pure]

theorem read_of_write (h : files.write path content = .ok after) :
    after.read path = .ok content := by
  obtain ⟨hcheck, hnames, directory, last, members, hplace, hmembers, hnone, rfl⟩ := write_ok h
  have hagain : (files.withFile (directory ++ [last]) content).place (files.start path) _ = _ :=
    (keeps_withNode (.file content) hnone).place hplace
  have hfind : (files.withFile (directory ++ [last]) content).root.find? (directory ++ [last]) =
      some (.file content) := FileNode.find?_put_self hmembers
  have hget := get_of_place hcheck hagain hfind
  simp only [FileTree.read, hget, hnames, bind, Except.bind, Bool.false_eq_true, if_false]

/-- What was saved is read. -/
theorem read_of_save (h : files.save path content = (.ok (), after)) :
    after.read path = .ok content := by
  rw [save] at h
  split at h
  · exact absurd (Prod.mk.inj h).1 (by simp)
  · split at h
    · exact absurd (Prod.mk.inj h).1 (by simp)
    · rename_i hwrite
      rw [← (Prod.mk.inj h).2]
      exact read_of_write hwrite

end FileTree

end RequestFlow
