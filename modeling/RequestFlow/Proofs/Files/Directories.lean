import RequestFlow.Proofs.Files.Tree

/-!
# What is left of a file that was not saved

Saving a file makes the directories above it first, and these stay where the file cannot be written.
Making a directory takes nothing away and puts it where nothing was, so whatever was there is found
as before. So a file that could not be saved is not there to be read, neither after that nor before.

* `FileTree.Grows`: the trees that a tree may become by making directories;
* `FileTree.Grows.read_notFound`: nothing that could be looked up is missed in them;
* `FileTree.makeUp_error`: directories that could not be made are not there;
* `FileTree.read_of_save_error`: what can be read where a file was not saved.
-/

namespace RequestFlow

open FileNode

/-- A file stays when something is put where nothing is. -/
theorem FileNode.find?_put_file {root new : FileNode} {here place : List String} {content : String}
    (hplace : root.find? place = none) (h : root.find? here = some (.file content)) :
    (root.put place new).find? here = some (.file content) := by
  induction place generalizing root here with
  | nil => simp at hplace
  | cons name rest ih =>
    cases root with
    | file other => rw [put]; exact h
    | directory members =>
      cases here with
      | nil => simp at h
      | cons first tail =>
        rw [find?_cons] at hplace h
        -- Three cases as in `put`: the name is there, it is new and last, or it leads nowhere.
        cases hold : member? name members with
        | some old =>
          rw [hold, Option.bind_some] at hplace
          rw [put_old hold, find?_cons]
          by_cases hfirst : name = first
          · rw [← hfirst, hold, Option.bind_some] at h
            rw [← hfirst, member?_putMember_self, Option.bind_some]
            exact ih hplace h
          · rw [member?_putMember_of_ne hfirst]
            exact h
        | none =>
          cases rest with
          | cons next rest =>
            rw [put_lost hold, find?_cons]
            exact h
          | nil =>
            have hfirst : name ≠ first := by
              rintro rfl
              rw [hold] at h
              exact absurd h (by simp)
            rw [put_new hold, find?_cons, member?_putMember_of_ne hfirst]
            exact h

namespace FileTree

variable {files later : FileTree} {path content : String} {here names up : List String}
  {fault : IoFault}

/-! ## Trees with more directories -/

/-- All directories and all files of a tree are in a later one. -/
structure Grows (files later : FileTree) : Prop extends files.Keeps later where
  file : ∀ {here : List String} {content : String},
    files.root.find? here = some (.file content) → later.root.find? here = some (.file content)

theorem Grows.refl (files : FileTree) : files.Grows files where
  working := rfl
  directory h := ⟨_, h, fun _ => id⟩
  file := id

theorem Grows.trans {between : FileTree} (first : files.Grows between)
    (second : between.Grows later) : files.Grows later where
  working := second.working.trans first.working
  directory h := by
    obtain ⟨after, hafter, hmembers⟩ := first.directory h
    obtain ⟨last, hlast, hothers⟩ := second.directory hafter
    exact ⟨last, hlast, fun name hname => hothers name (hmembers name hname)⟩
  file h := second.file (first.file h)

theorem grows_make (h : files.make here names = .ok later) : files.Grows later := by
  obtain ⟨place, -, h⟩ := ok_of_bind h
  split at h
  · exact absurd h (by simp)
  · rename_i hvacant
    obtain rfl := Except.ok.inj h
    have hkeeps : files.Keeps (files.withNode place (.directory [])) :=
      keeps_withNode _ fun others => by simp [hvacant]
    exact ⟨hkeeps, find?_put_file hvacant⟩

theorem grows_makeUp (files : FileTree) (here up : List String) :
    files.Grows (files.makeUp here up).2 := by
  induction up with
  | nil => exact .refl files
  | cons name up ih =>
    rw [makeUp]
    split
    · rename_i hmade
      exact grows_make hmade
    · split
      · rename_i hup
        rw [hup] at ih
        exact ih
      · rename_i hup
        rw [hup] at ih
        split
        · rename_i hmade
          exact ih.trans (grows_make hmade)
        · exact ih
    · exact .refl files

/-! ## Looking up -/

/-- Above something that is there something is there. -/
theorem isSome_dropLast (h : (files.root.find? here).isSome) :
    (files.root.find? here.dropLast).isSome := by
  obtain ⟨node, hnode⟩ := Option.isSome_iff_exists.1 h
  cases here with
  | nil => exact h
  | cons first rest =>
    obtain ⟨members, hmembers⟩ := find?_dropLast hnode (List.cons_ne_nil first rest)
    rw [hmembers, Option.isSome_some]

theorem find?_child {members : List (String × FileNode)} {name : String}
    (hhere : files.root.find? here = some (.directory members)) :
    files.root.find? (here ++ [name]) = member? name members := by
  rw [find?_append, hhere, Option.bind_some, find?_cons]
  cases member? name members with
  | none => rfl
  | some node => exact find?_nil node

/-- What names lead to from something that is there is there. -/
theorem isSome_of_walk {target : List String} (hhere : (files.root.find? here).isSome)
    (h : files.walk here names = .ok target) : (files.root.find? target).isSome := by
  induction names generalizing here with
  | nil =>
    rw [walk_nil] at h
    rw [← Except.ok.inj h]
    exact hhere
  | cons name rest ih =>
    obtain ⟨members, hmembers, hstep⟩ := walk_cons_ok h
    by_cases hname : name = ".."
    · rw [hname, walk_up hmembers] at h
      exact ih (isSome_dropLast hhere) h
    · obtain ⟨hshort, hthere⟩ := hstep.resolve_left hname
      rw [walk_into hmembers hname hshort hthere] at h
      rw [← find?_child hmembers] at hthere
      exact ih hthere h

/-- Names that lead nowhere, for another reason than that nothing is there, still do. -/
theorem Grows.walk_error (grows : files.Grows later) (hhere : (files.root.find? here).isSome)
    (hfault : fault ≠ .notFound) (h : files.walk here names = .error fault) :
    later.walk here names = .error fault := by
  induction names generalizing here with
  | nil => exact absurd h (by simp)
  | cons name rest ih =>
    obtain ⟨node, hnode⟩ := Option.isSome_iff_exists.1 hhere
    cases node with
    | file content =>
      rw [walk, hnode] at h
      rw [walk, grows.file hnode]
      exact h
    | directory members =>
      obtain ⟨after, hafter, hmembers⟩ := grows.directory hnode
      by_cases hname : name = ".."
      · rw [hname, walk_up hnode] at h
        rw [hname, walk_up hafter]
        exact ih (isSome_dropLast hhere) h
      · cases hshort : checkName name with
        | error long =>
          simp only [walk, hnode, hname, if_false, hshort] at h
          simp only [walk, hafter, hname, if_false, hshort]
          exact h
        | ok _ =>
          cases hthere : member? name members with
          | none =>
            simp only [walk, hnode, hname, if_false, hshort, hthere, bind, Except.bind] at h
            exact absurd (Except.error.inj h).symm hfault
          | some child =>
            have hsome : (member? name members).isSome := by rw [hthere, Option.isSome_some]
            rw [walk_into hnode hname hshort hsome] at h
            rw [walk_into hafter hname hshort (hmembers name hsome)]
            rw [← find?_child hnode] at hsome
            exact ih hsome h

/-- So does a place. -/
theorem Grows.place_error (grows : files.Grows later) (hhere : (files.root.find? here).isSome)
    (hfault : fault ≠ .notFound) (h : files.place here names = .error fault) :
    later.place here names = .error fault := by
  rw [FileTree.place] at h ⊢
  cases hlast : names.getLast? with
  | none =>
    rw [hlast] at h
    exact absurd h (by simp)
  | some last =>
    rw [hlast] at h
    cases hwalk : files.walk here names.dropLast with
    | error other =>
      rw [hwalk] at h
      have hother : other = fault := Except.error.inj h
      subst hother
      simp only [grows.walk_error hhere hfault hwalk, bind, Except.bind]
    | ok directory =>
      obtain ⟨node, hnode⟩ := Option.isSome_iff_exists.1 (isSome_of_walk hhere hwalk)
      simp only [hwalk, hnode, bind, Except.bind] at h
      simp only [grows.walk hwalk, bind, Except.bind]
      cases node with
      | file content =>
        rw [grows.file hnode]
        exact h
      | directory members =>
        obtain ⟨after, hafter, -⟩ := grows.directory hnode
        rw [hafter]
        exact h

/-- What is not found in a tree with more directories was not found before. -/
theorem Grows.read_notFound (grows : files.Grows later)
    (hstart : (files.root.find? (files.start path)).isSome)
    (h : later.read path = .error .notFound) : files.read path = .error .notFound := by
  have hsame : later.start path = files.start path := by rw [start, start, grows.working]
  simp only [FileTree.read, FileTree.get, hsame] at h ⊢
  cases hcheck : checkPath path with
  | error other =>
    simp only [hcheck, bind, Except.bind] at h ⊢
    exact h
  | ok _ =>
    simp only [hcheck, bind, Except.bind] at h ⊢
    cases hplace : files.place (files.start path) (Path.names path) with
    | error fault =>
      by_cases hfault : fault = .notFound
      · rw [hfault]
      · rw [grows.place_error hstart hfault hplace] at h
        exact absurd (Except.error.inj h) hfault
    | ok place =>
      rw [grows.place hplace] at h
      dsimp only at h ⊢
      cases hnode : files.root.find? place with
      | none => rfl
      | some node =>
        -- Something is there, so that something is there later, too.
        cases node with
        | file content =>
          rw [grows.file hnode] at h
          exact h
        | directory members =>
          obtain ⟨after, hafter, -⟩ := grows.directory hnode
          rw [hafter] at h
          exact h

/-! ## Directories that cannot be made -/

/-- Where nothing is at the start, no directory is made. -/
theorem makeUp_of_missing (hhere : files.root.find? here = none) :
    (files.makeUp here up).2 = files := by
  cases up with
  | nil => rfl
  | cons name up =>
    have hplace : files.place here (name :: up).reverse = .error .notDirectory := by
      rw [FileTree.place, List.reverse_cons, List.getLast?_concat, List.dropLast_concat]
      cases hup : up.reverse with
      | nil => simp [hhere, bind, Except.bind]
      | cons first rest => simp [walk, hhere, bind, Except.bind]
    have hmake : files.make here (name :: up).reverse = .error .notDirectory := by
      simp only [make, hplace, bind, Except.bind]
    rw [makeUp]
    simp only [hmake]

/-- The names lead to a directory. -/
def Leads (files : FileTree) (here names : List String) : Prop :=
  ∃ target members, files.walk here names = .ok target ∧
    files.root.find? target = some (.directory members)

theorem walk_append (files : FileTree) (here front back : List String) :
    files.walk here (front ++ back) =
      (files.walk here front).bind fun target => files.walk target back := by
  induction front generalizing here with
  | nil => rw [List.nil_append, walk_nil, Except.bind]
  | cons name rest ih =>
    rw [List.cons_append, walk, walk]
    split
    · split
      · exact ih _
      · cases checkName name with
        | error fault => rfl
        | ok _ =>
          simp only [bind, Except.bind]
          split
          · exact ih _
          · rfl
    · rfl

/-- On the way to a directory there are directories. -/
theorem Leads.front {name : String} (h : files.Leads here (names ++ [name])) :
    files.Leads here names := by
  obtain ⟨target, members, hwalk, -⟩ := h
  rw [walk_append] at hwalk
  obtain ⟨above, habove, hlast⟩ := ok_of_bind hwalk
  obtain ⟨others, hothers, -⟩ := walk_cons_ok hlast
  exact ⟨above, others, habove, hothers⟩

theorem isDirectory_of_leads (h : files.Leads here names) : files.isDirectory here names = true := by
  obtain ⟨target, members, hwalk, hmembers⟩ := h
  have hplace : files.place here names = .ok target := by
    rcases List.eq_nil_or_concat names with rfl | ⟨front, last, rfl⟩
    · rw [walk_nil] at hwalk
      exact hwalk
    · rw [List.concat_eq_append, walk_append] at hwalk
      obtain ⟨above, habove, hlast⟩ := ok_of_bind hwalk
      obtain ⟨others, hothers, hstep⟩ := walk_cons_ok hlast
      rw [FileTree.place, List.concat_eq_append, List.getLast?_concat, List.dropLast_concat, habove]
      by_cases hup : last = ".."
      · rw [hup, walk_up hothers, walk_nil] at hlast
        simpa [hothers, hup, bind, Except.bind, pure, Except.pure] using hlast
      · obtain ⟨hshort, hthere⟩ := hstep.resolve_left hup
        rw [walk_into hothers hup hshort hthere, walk_nil] at hlast
        simpa [hothers, hup, hshort, bind, Except.bind, pure, Except.pure] using hlast
  simp only [isDirectory, hplace, hmembers]

/-- A directory that could not be made is not there. -/
theorem makeUp_error (h : files.makeUp here up = (.error fault, later)) :
    ¬ later.Leads here up.reverse := by
  have hnot {tree : FileTree} {names : List String} {fault other : IoFault}
      (h : (if tree.isDirectory here names then .ok () else .error other) =
        (.error fault : Except IoFault Unit)) : ¬ tree.Leads here names := by
    intro hleads
    rw [if_pos (isDirectory_of_leads hleads)] at h
    exact absurd h (by simp)
  induction up generalizing later with
  | nil => exact absurd (Prod.mk.inj h).1 (by simp)
  | cons name up ih =>
    rw [makeUp] at h
    split at h
    · exact absurd (Prod.mk.inj h).1 (by simp)
    · split at h
      · rename_i hup
        obtain ⟨hfault, rfl⟩ := Prod.mk.inj h
        rw [List.reverse_cons]
        exact fun hleads => ih (hfault ▸ hup) hleads.front
      · split at h
        · exact absurd (Prod.mk.inj h).1 (by simp)
        · obtain ⟨hfault, rfl⟩ := Prod.mk.inj h
          exact hnot hfault
    · obtain ⟨hfault, rfl⟩ := Prod.mk.inj h
      exact hnot hfault

/-! ## Saving -/

/-- Where the file is that is read. -/
theorem read_ok (h : files.read path = .ok content) :
    checkPath path = .ok () ∧ Path.namesDirectory path = false ∧
      ∃ place, files.place (files.start path) (Path.names path) = .ok place ∧
        files.root.find? place = some (.file content) := by
  obtain ⟨node, hget, h⟩ := ok_of_bind h
  obtain ⟨_, hcheck, hget⟩ := ok_of_bind hget
  obtain ⟨place, hplace, hget⟩ := ok_of_bind hget
  cases hnode : files.root.find? place with
  | none =>
    rw [hnode] at hget
    exact absurd hget (by simp)
  | some found =>
    rw [hnode] at hget
    obtain rfl : found = node := Except.ok.inj hget
    cases found with
    | directory members => exact absurd h (by simp)
    | file text =>
      dsimp only at h
      split at h
      · exact absurd h (by simp)
      · rename_i hnames
        obtain rfl := Except.ok.inj h
        exact ⟨hcheck, by simpa using hnames, place, hplace, hnode⟩

/-- The directory of a file that is read is there. -/
theorem leads_of_read (h : files.read path = .ok content) :
    files.Leads (files.start path) (Path.names path).dropLast := by
  obtain ⟨hcheck, hdirectory, place, hplace, -⟩ := read_ok h
  rcases List.eq_nil_or_concat (Path.names path) with hnames | ⟨front, last, hnames⟩
  · have hpath : path ≠ "" := by
      rintro rfl
      exact absurd hcheck (by simp [checkPath])
    exact absurd (Path.namesDirectory_of_names hnames hpath) (by simp [hdirectory])
  · rw [FileTree.place, hnames, List.concat_eq_append, List.getLast?_concat,
      List.dropLast_concat] at hplace
    obtain ⟨directory, hwalk, hlast⟩ := ok_of_bind hplace
    split at hlast
    · rename_i members hmembers
      rw [hnames, List.concat_eq_append, List.dropLast_concat]
      exact ⟨directory, members, hwalk, hmembers⟩
    · exact absurd hlast (by simp)

/-- A file that is read can be written. -/
theorem write_of_read {text : String} (h : files.read path = .ok text) (content : String) :
    ∃ after, files.write path content = .ok after := by
  obtain ⟨hcheck, hdirectory, place, hplace, hfile⟩ := read_ok h
  refine ⟨files.withFile place content, ?_⟩
  simp only [write, hcheck, hplace, hfile, hdirectory, bind, Except.bind]
  rfl

theorem working_makeParent (files : FileTree) (path : String) :
    (files.makeParent path).2.start path = files.start path := by
  rw [makeParent]
  split
  · rfl
  · rw [start, start, (grows_makeUp files _ _).working]

/-- What the directories above a file leave to be read of it, if nothing is. -/
theorem read_notFound_of_makeParent (h : (files.makeParent path).2.read path = .error .notFound) :
    files.read path = .error .notFound := by
  rw [makeParent] at h
  split at h
  · exact h
  · cases hstart : files.root.find? (files.start path) with
    | none =>
      rw [makeUp_of_missing hstart] at h
      exact h
    | some node =>
      exact (grows_makeUp files _ _).read_notFound (by rw [hstart, Option.isSome_some]) h

/-- A file that is read lies in a directory that could be made. -/
theorem makeParent_of_read {text : String} (h : (files.makeParent path).2.read path = .ok text) :
    (files.makeParent path).1 = .ok () := by
  have hleads := leads_of_read h
  obtain ⟨hcheck, -⟩ := read_ok h
  rw [working_makeParent] at hleads
  rw [makeParent] at hleads ⊢
  split
  · rename_i hnul
    rw [checkPath, if_pos hnul] at hcheck
    exact absurd hcheck (by simp)
  · rename_i hnul
    rw [if_neg hnul] at hleads
    cases hmade : files.makeUp (files.start path) (Path.names path).dropLast.reverse with
    | mk result later =>
      cases result with
      | ok _ => rfl
      | error fault =>
        rw [hmade] at hleads
        have hnot := makeUp_error hmade
        rw [List.reverse_reverse] at hnot
        exact absurd hleads hnot

/-- A file that was not saved is not there, and was not there before. -/
theorem read_of_save_error (h : files.save path content = (.error fault, later)) :
    (∀ text, later.read path ≠ .ok text) ∧
      (later.read path = .error .notFound → files.read path = .error .notFound) := by
  cases hmade : files.makeParent path with
  | mk result parent =>
    have hparent : parent = (files.makeParent path).2 := by rw [hmade]
    have hread (text : String) (hread : parent.read path = .ok text) : result = .ok () := by
      have hresult := makeParent_of_read (hparent ▸ hread)
      rw [hmade] at hresult
      exact hresult
    cases result with
    | error other =>
      rw [save, hmade] at h
      obtain ⟨-, rfl⟩ := Prod.mk.inj h
      exact ⟨fun text htext => absurd (hread text htext) (by simp), fun hnone =>
        read_notFound_of_makeParent (hparent ▸ hnone)⟩
    | ok _ =>
      rw [save, hmade] at h
      cases hwrite : parent.write path content with
      | ok written =>
        simp only [hwrite] at h
        exact absurd (Prod.mk.inj h).1 (by simp)
      | error other =>
        simp only [hwrite] at h
        obtain ⟨-, rfl⟩ := Prod.mk.inj h
        refine ⟨fun text htext => ?_, fun hnone => read_notFound_of_makeParent (hparent ▸ hnone)⟩
        obtain ⟨after, hafter⟩ := write_of_read htext content
        exact absurd (hafter.symm.trans hwrite) (by simp)

end FileTree

end RequestFlow
