import Mathlib.Logic.Function.Basic
import RequestFlow.Proofs.History.Coherence

/-!
# Histories that share a file

Each holder of a history in a file has a list of its own, which it finds in the file when it opens
the history, and with which it replaces the file when it appends an entry; opening and appending
are single turns. So the file holds the list of whoever appended last: what they found when they
last opened the history, and what they have appended since. What one holder appends is lost when
another one appends afterwards that had opened the history before; it is kept as long as that does
not happen.

* `History.Found`: what whoever opens a history finds;
* `Sharing.run`: turns one after another;
* `Lists.after`: what they come to, as lists alone;
* `Sharing.agrees_run`: turns that do not fail come to the same in the file;
* `Sharing.held_by_last`: what the file holds in the end;
* `Sharing.kept_unless_overtaken`: which entries are in it;
* `Sharing.overtaken`: an entry that is lost.
-/

namespace RequestFlow

/-! ## What is found in a file -/

namespace History

variable {files : FileTree} {path : String} {entries : List Entry}

/-- Whoever opens the history at a path finds some entries. -/
def Found (files : FileTree) (path : String) (entries : List Entry) : Prop :=
  ∀ limit, openAt files path limit = .ok ⟨path, limit, entries⟩

theorem found_of_fileHolds (h : FileHolds files path entries) : Found files path entries :=
  fun _ => openAt_of_holds (.inl h)

/-- What is found can be kept, whatever is in the file. -/
theorem storable_of_found (h : Found files path entries) : ∀ entry ∈ entries, entry.Storable := by
  have hopen := h 0
  rw [openAt] at hopen
  split at hopen
  · rename_i text hread
    obtain rfl : ofFileText text = entries := congrArg History.entries (Except.ok.inj hopen)
    rw [ofFileText]
    split
    · rename_i entries htext
      exact storable_of_ofJson htext
    · simp
  · obtain rfl : [] = entries := congrArg History.entries (Except.ok.inj hopen)
    simp
  · exact absurd hopen (by simp)

end History

/-! ## Turns -/

/-- What a holder of a history does with it. -/
inductive Turn (Holder : Type) where
  | opens (who : Holder)
  | appends (who : Holder) (entry : Entry)

/-- The turn appends an entry. -/
def Turn.isAppend {Holder : Type} : Turn Holder → Bool
  | opens _ => false
  | appends _ _ => true

/-- What is appended can be kept in a file. -/
def Turn.Storable {Holder : Type} : Turn Holder → Prop
  | opens _ => True
  | appends _ entry => entry.Storable

/-- Histories that share a file. -/
structure Sharing (Holder : Type) where
  files : FileTree
  /-- The history that each holder has opened. -/
  opened : Holder → Option History

namespace Sharing

variable {Holder : Type}

/-- Nobody has opened the history yet. -/
def start (files : FileTree) : Sharing Holder := ⟨files, fun _ => none⟩

section

variable [DecidableEq Holder]

/-- A holder has another history, and the files are others. -/
def give (sharing : Sharing Holder) (who : Holder) (history : History) (files : FileTree) :
    Sharing Holder where
  files
  opened other := if other = who then some history else sharing.opened other

variable (path : String) (limit : Holder → Nat)

/-- A turn; there is nothing after one that fails, or that appends to a history not opened. -/
def turn (sharing : Sharing Holder) : Turn Holder → Option (Sharing Holder)
  | .opens who =>
    match History.openAt sharing.files path (limit who) with
    | .ok history => some (sharing.give who history sharing.files)
    | .error _ => none
  | .appends who entry =>
    match sharing.opened who with
    | none => none
    | some history =>
      match history.append sharing.files entry with
      | (.ok (), history, files) => some (sharing.give who history files)
      | (.error _, _) => none

/-- Turns one after another. -/
def run (sharing : Sharing Holder) : List (Turn Holder) → Option (Sharing Holder)
  | [] => some sharing
  | first :: turns =>
    match sharing.turn path limit first with
    | none => none
    | some sharing => sharing.run turns

end

end Sharing

/-! ## What the turns come to -/

/-- The list that is in the file, and the list of each holder. -/
structure Lists (Holder : Type) where
  file : List Entry
  own : Holder → List Entry

/-- What a holder appends in a turn. -/
def Turn.entryOf? {Holder : Type} [DecidableEq Holder] (who : Holder) : Turn Holder → Option Entry
  | opens _ => none
  | appends other entry => if other = who then some entry else none

namespace Lists

variable {Holder : Type}

/-- Nobody has taken anything over from the file. -/
def start (initial : List Entry) : Lists Holder := ⟨initial, fun _ => []⟩

/-- No list has more than some number of entries. -/
structure Within (size : Nat) (lists : Lists Holder) : Prop where
  file : lists.file.length ≤ size
  own : ∀ who, (lists.own who).length ≤ size

theorem within_start (initial : List Entry) :
    Within initial.length (start initial : Lists Holder) :=
  ⟨Nat.le_refl _, fun _ => Nat.zero_le _⟩

/-- An entry is in the file, and in the lists of everybody who is named. -/
structure Keeps (kept : Entry) (aware : List Holder) (lists : Lists Holder) : Prop where
  file : kept ∈ lists.file
  own : ∀ who ∈ aware, kept ∈ lists.own who

variable [DecidableEq Holder]

section

variable (limit : Holder → Nat)

/-- Who opens the history takes over the list of the file. Who appends an entry puts it in front of
their own list, which the file takes over. -/
def turn (lists : Lists Holder) : Turn Holder → Lists Holder
  | .opens who => { lists with own := Function.update lists.own who lists.file }
  | .appends who entry =>
    let entries := History.push (limit who) entry (lists.own who)
    ⟨entries, Function.update lists.own who entries⟩

/-- Turns one after another. -/
def after (lists : Lists Holder) (turns : List (Turn Holder)) : Lists Holder :=
  turns.foldl (turn limit) lists

end

variable {limit : Holder → Nat} {lists : Lists Holder}

theorem after_append (before turns : List (Turn Holder)) :
    lists.after limit (before ++ turns) = (lists.after limit before).after limit turns :=
  List.foldl_append

/-- Nobody but who appends replaces the file. -/
theorem file_after {turns : List (Turn Holder)} (silent : ∀ turn ∈ turns, turn.isAppend = false) :
    (lists.after limit turns).file = lists.file := by
  induction turns generalizing lists with
  | nil => rfl
  | cons first turns ih =>
    obtain ⟨hfirst, hlater⟩ := List.forall_mem_cons.1 silent
    cases first with
    | opens who => exact ih hlater
    | appends who entry => cases hfirst

/-- The list of a holder, as long as they do not open the history again, only grows by what they
append themselves. -/
theorem own_after {who : Holder} {turns : List (Turn Holder)} (stays : .opens who ∉ turns) :
    (lists.after limit turns).own who =
      (turns.filterMap (Turn.entryOf? who)).foldl
        (fun entries entry => History.push (limit who) entry entries) (lists.own who) := by
  induction turns generalizing lists with
  | nil => rfl
  | cons first turns ih =>
    obtain ⟨hfirst, hlater⟩ := not_or.1 (mt List.mem_cons.2 stays)
    show ((lists.turn limit first).after limit turns).own who = _
    rw [ih hlater]
    cases first with
    | opens other =>
      have hother : who ≠ other := fun heq => hfirst (heq ▸ rfl)
      have hown : (lists.turn limit (.opens other)).own who = lists.own who :=
        Function.update_of_ne hother ..
      rw [hown, List.filterMap_cons_none rfl]
    | appends other entry =>
      by_cases hother : other = who
      · subst hother
        have hown : (lists.turn limit (.appends other entry)).own other =
          History.push (limit other) entry (lists.own other) := Function.update_self ..
        have hentry : Turn.entryOf? other (.appends other entry) = some entry := if_pos rfl
        rw [hown, List.filterMap_cons_some hentry, List.foldl_cons]
      · have hown : (lists.turn limit (.appends other entry)).own who = lists.own who :=
          Function.update_of_ne (Ne.symm hother) ..
        have hentry : Turn.entryOf? who (.appends other entry) = none := if_neg hother
        rw [hown, List.filterMap_cons_none hentry]

/-- The file has the list of whoever appended last: what they found when they last opened the
history, and over it what they have appended since. -/
theorem file_of_last {who : Holder} {entry : Entry} {before between turns : List (Turn Holder)}
    (stays : .opens who ∉ between) (silent : ∀ turn ∈ turns, turn.isAppend = false) :
    (lists.after limit (before ++ .opens who :: (between ++ .appends who entry :: turns))).file =
      History.push (limit who) entry ((between.filterMap (Turn.entryOf? who)).foldl
        (fun entries entry => History.push (limit who) entry entries)
        (lists.after limit before).file) := by
  let opened := (lists.after limit before).turn limit (.opens who)
  have hfound : opened.own who = (lists.after limit before).file := Function.update_self ..
  have hlast :
      lists.after limit (before ++ .opens who :: (between ++ .appends who entry :: turns)) =
        ((opened.after limit between).turn limit (.appends who entry)).after limit turns := by
    rw [after_append]
    show opened.after limit (between ++ .appends who entry :: turns) = _
    rw [after_append]
    rfl
  rw [hlast, file_after silent, ← hfound, ← own_after stays]
  rfl

/-! ## Room for all -/

/-- A turn adds at most one entry to a list, and only where it appends one. -/
theorem Within.turn {size : Nat} (h : Within size lists) (first : Turn Holder) :
    Within (size + first.isAppend.toNat) (lists.turn limit first) := by
  cases first with
  | opens who =>
    refine ⟨h.file, fun other => ?_⟩
    show (Function.update lists.own who lists.file other).length ≤ size
    rw [Function.update_apply]
    split
    · exact h.file
    · exact h.own other
  | appends who entry =>
    have hlength : (History.push (limit who) entry (lists.own who)).length ≤ size + 1 := by
      have hown := h.own who
      rw [History.push, List.length_take, List.length_cons]
      omega
    refine ⟨hlength, fun other => ?_⟩
    show (Function.update lists.own who _ other).length ≤ size + 1
    rw [Function.update_apply]
    split
    · exact hlength
    · exact Nat.le_succ_of_le (h.own other)

theorem Within.after {size : Nat} (h : Within size lists) (turns : List (Turn Holder)) :
    Within (size + turns.countP Turn.isAppend) (lists.after limit turns) := by
  induction turns generalizing lists size with
  | nil => exact h
  | cons first turns ih =>
    have hcount : (first :: turns).countP Turn.isAppend =
        first.isAppend.toNat + turns.countP Turn.isAppend := by
      rw [List.countP_cons, Nat.add_comm]
      cases first <;> rfl
    rw [hcount, ← Nat.add_assoc]
    exact ih (h.turn first)

theorem push_of_room {most : Nat} {entry : Entry} {entries : List Entry}
    (h : entries.length < most) : History.push most entry entries = entry.sanitized :: entries :=
  List.take_of_length_le (by rw [List.length_cons]; omega)

/-- Where there is room, what is appended stands in front, the last one first. -/
theorem foldl_push {most : Nat} {more entries : List Entry}
    (h : entries.length + more.length ≤ most) :
    more.foldl (fun entries entry => History.push most entry entries) entries =
      (more.map Entry.sanitized).reverse ++ entries := by
  induction more generalizing entries with
  | nil => rfl
  | cons entry more ih =>
    rw [List.length_cons] at h
    rw [List.foldl_cons, push_of_room (by omega), ih (by rw [List.length_cons]; omega),
      List.map_cons, List.reverse_cons, List.append_assoc, List.singleton_append]

theorem length_entryOf?_le (who : Holder) (turns : List (Turn Holder)) :
    (turns.filterMap (Turn.entryOf? who)).length ≤ turns.countP Turn.isAppend := by
  rw [List.length_filterMap_eq_countP]
  refine List.countP_mono_left fun turn _ hentry => ?_
  cases turn with
  | opens => cases hentry
  | appends => rfl

/-! ## What is kept -/

variable {kept : Entry} {aware : List Holder}

/-- Who opens the history has the entry from then on. -/
theorem Keeps.opens (h : Keeps kept aware lists) (who : Holder) :
    Keeps kept (who :: aware) (lists.turn limit (.opens who)) := by
  refine ⟨h.file, fun other hother => ?_⟩
  show kept ∈ Function.update lists.own who lists.file other
  rw [Function.update_apply]
  split
  · exact h.file
  · rename_i hwho
    exact h.own other ((List.mem_cons.1 hother).resolve_left hwho)

/-- An entry is kept when somebody who has it appends another one. -/
theorem Keeps.appends {who : Holder} (h : Keeps kept aware lists) (hwho : who ∈ aware)
    (hroom : (lists.own who).length < limit who) (entry : Entry) :
    Keeps kept aware (lists.turn limit (.appends who entry)) := by
  have hmem : kept ∈ History.push (limit who) entry (lists.own who) := by
    rw [push_of_room hroom]
    exact List.mem_cons_of_mem _ (h.own who hwho)
  refine ⟨hmem, fun other hother => ?_⟩
  show kept ∈ Function.update lists.own who _ other
  rw [Function.update_apply]
  split
  · exact hmem
  · exact h.own other hother

/-- An entry that has just been appended is in the file, and who appended it has it. -/
theorem keeps_appended {who : Holder} (hroom : (lists.own who).length < limit who)
    (entry : Entry) : Keeps entry.sanitized [who] (lists.turn limit (.appends who entry)) := by
  have hmem : entry.sanitized ∈ History.push (limit who) entry (lists.own who) := by
    rw [push_of_room hroom]
    exact List.mem_cons_self
  refine ⟨hmem, fun other hother => ?_⟩
  obtain rfl := List.mem_singleton.1 hother
  show _ ∈ Function.update lists.own other _ other
  rwa [Function.update_self]

/-- An entry is kept along turns in which nobody appends who has not got it. -/
theorem Keeps.after {size : Nat} {turns : List (Turn Holder)} (h : Keeps kept aware lists)
    (hsize : Within size lists) (hroom : ∀ who, size + turns.countP Turn.isAppend ≤ limit who)
    (haware : ∀ middle who entry rest, turns = middle ++ .appends who entry :: rest →
      who ∈ aware ∨ .opens who ∈ middle) : kept ∈ (lists.after limit turns).file := by
  induction turns generalizing lists size aware with
  | nil => exact h.file
  | cons first turns ih =>
    have hlater : Within (size + first.isAppend.toNat) (lists.turn limit first) := hsize.turn first
    -- Who opens joins those who have the entry; who appends is one of them.
    cases first with
    | opens who =>
      refine ih (h.opens who) hlater (fun other => ?_) ?_
      · have hlimit := hroom other
        rw [List.countP_cons_of_neg (by simp [Turn.isAppend])] at hlimit
        exact hlimit
      · rintro middle other entry rest rfl
        rcases haware (.opens who :: middle) other entry rest rfl with hmem | hmem
        · exact .inl (List.mem_cons_of_mem who hmem)
        · rcases List.mem_cons.1 hmem with hwho | hmiddle
          · obtain rfl := Turn.opens.inj hwho
            exact .inl (List.mem_cons_self ..)
          · exact .inr hmiddle
    | appends who entry =>
      have hcount : ∀ other, size + 1 + turns.countP Turn.isAppend ≤ limit other := by
        intro other
        have hlimit := hroom other
        rw [List.countP_cons_of_pos rfl] at hlimit
        omega
      have hwho : who ∈ aware := (haware [] who entry turns rfl).resolve_right (by simp)
      have hthere : (lists.own who).length < limit who := by
        have hlimit := hcount who
        have hown := hsize.own who
        omega
      refine ih (h.appends hwho hthere entry) hlater hcount ?_
      rintro middle other more rest rfl
      refine (haware (.appends who entry :: middle) other more rest rfl).imp_right fun hmem => ?_
      exact (List.mem_cons.1 hmem).resolve_left (by simp)

end Lists

namespace Sharing

variable {Holder : Type}

/-! ## Turns that do not fail -/

section

variable (path : String) (limit : Holder → Nat)

/-- The file, which has been written or not, and the histories that were opened from it are as the
lists say. -/
structure Agrees (written : Bool) (lists : Lists Holder) (sharing : Sharing Holder) : Prop where
  found : History.Found sharing.files path lists.file
  holds : written = true → History.FileHolds sharing.files path lists.file
  opened : ∀ who history, sharing.opened who = some history →
    history = ⟨path, limit who, lists.own who⟩
  storable : ∀ who, ∀ entry ∈ lists.own who, entry.Storable

variable {path limit}

theorem agrees_start {files : FileTree} {initial : List Entry}
    (h : History.Found files path initial) :
    Agrees path limit false (.start initial) (start files : Sharing Holder) where
  found := h
  holds hwritten := by cases hwritten
  opened _ _ hopened := by cases hopened
  storable _ _ hmem := by cases hmem

variable [DecidableEq Holder] {sharing last : Sharing Holder} {written : Bool}
  {lists : Lists Holder}

/-- Who has opened what once a holder has another history. -/
theorem opened_give {who other : Holder} {history mine : History} {files : FileTree}
    (h : (sharing.give who history files).opened other = some mine) :
    other = who ∧ mine = history ∨ other ≠ who ∧ sharing.opened other = some mine := by
  have hopened : (if other = who then some history else sharing.opened other) = some mine := h
  by_cases hwho : other = who
  · rw [if_pos hwho] at hopened
    exact .inl ⟨hwho, (Option.some.inj hopened).symm⟩
  · rw [if_neg hwho] at hopened
    exact .inr ⟨hwho, hopened⟩

/-- Where a holder has another list in both, the histories still are as the lists say. -/
theorem Agrees.give {who : Holder} {files : FileTree} {file entries : List Entry} {later : Bool}
    (h : Agrees path limit written lists sharing) (hfound : History.Found files path file)
    (hholds : later = true → History.FileHolds files path file)
    (hentries : ∀ entry ∈ entries, entry.Storable) :
    Agrees path limit later ⟨file, Function.update lists.own who entries⟩
      (sharing.give who ⟨path, limit who, entries⟩ files) := by
  refine ⟨hfound, hholds, fun other history hopened => ?_, fun other => ?_⟩
  · rcases opened_give hopened with ⟨rfl, rfl⟩ | ⟨hother, hbefore⟩
    · have hown : Function.update lists.own other entries other = entries :=
        Function.update_self ..
      exact congrArg (History.mk path (limit other)) hown.symm
    · have hown : Function.update lists.own who entries other = lists.own other :=
        Function.update_of_ne hother ..
      exact (h.opened other history hbefore).trans (congrArg _ hown.symm)
  · show ∀ entry ∈ Function.update lists.own who entries other, entry.Storable
    rw [Function.update_apply]
    split
    · exact hentries
    · exact h.storable other

/-- A turn that does not fail does to the file and the histories what it does to the lists. -/
theorem Agrees.turn {first : Turn Holder} (h : Agrees path limit written lists sharing)
    (hstorable : first.Storable) (hturn : sharing.turn path limit first = some last) :
    Agrees path limit (written || first.isAppend) (lists.turn limit first) last := by
  cases first with
  | opens who =>
    rw [Sharing.turn, h.found (limit who)] at hturn
    obtain rfl := Option.some.inj hturn
    have hholds : (written || false) = true → History.FileHolds sharing.files path lists.file :=
      fun hwritten => h.holds (Bool.or_false written ▸ hwritten)
    exact h.give h.found hholds (History.storable_of_found h.found)
  | appends who entry =>
    rw [Sharing.turn] at hturn
    cases hopened : sharing.opened who with
    | none =>
      rw [hopened] at hturn
      cases hturn
    | some history =>
      obtain rfl := h.opened who history hopened
      obtain ⟨⟨result, next, files⟩, happend⟩ : ∃ outcome,
        History.append ⟨path, limit who, lists.own who⟩ sharing.files entry = outcome := ⟨_, rfl⟩
      simp only [hopened, happend] at hturn
      cases result with
      | error fault => cases hturn
      | ok _ =>
        obtain ⟨rfl, hfile⟩ := History.append_ok (h.storable who) hstorable happend
        obtain rfl := Option.some.inj hturn
        exact h.give (History.found_of_fileHolds hfile) (fun _ => hfile)
          (History.storable_push (h.storable who) hstorable)

theorem run_cons {first : Turn Holder} {turns : List (Turn Holder)}
    (h : sharing.run path limit (first :: turns) = some last) :
    ∃ next, sharing.turn path limit first = some next ∧ next.run path limit turns = some last := by
  rw [run] at h
  split at h
  · cases h
  · rename_i next hnext
    exact ⟨next, hnext, h⟩

theorem run_append {before turns : List (Turn Holder)}
    (h : sharing.run path limit (before ++ turns) = some last) :
    ∃ middle, sharing.run path limit before = some middle ∧
      middle.run path limit turns = some last := by
  induction before generalizing sharing with
  | nil => exact ⟨sharing, rfl, h⟩
  | cons first before ih =>
    obtain ⟨next, hnext, hrest⟩ := run_cons h
    obtain ⟨middle, hmiddle, hlast⟩ := ih hrest
    exact ⟨middle, by rw [run, hnext]; exact hmiddle, hlast⟩

/-- So do turns one after another. -/
theorem agrees_run {turns : List (Turn Holder)} (h : Agrees path limit written lists sharing)
    (hstorable : ∀ turn ∈ turns, turn.Storable)
    (hrun : sharing.run path limit turns = some last) :
    Agrees path limit (written || turns.any Turn.isAppend) (lists.after limit turns) last := by
  induction turns generalizing sharing written lists with
  | nil =>
    obtain rfl := Option.some.inj hrun
    exact (Bool.or_false written).symm ▸ h
  | cons first turns ih =>
    obtain ⟨next, hnext, hrest⟩ := run_cons hrun
    obtain ⟨hfirst, hlater⟩ := List.forall_mem_cons.1 hstorable
    rw [List.any_cons, ← Bool.or_assoc]
    exact ih (h.turn hfirst hnext) hlater hrest

/-- Once an entry has been appended, the file holds what the turns come to. -/
theorem fileHolds_run {files : FileTree} {initial : List Entry} {turns : List (Turn Holder)}
    (hstart : History.Found files path initial) (hstorable : ∀ turn ∈ turns, turn.Storable)
    (hrun : (start files).run path limit turns = some last)
    (hwritten : turns.any Turn.isAppend = true) :
    History.FileHolds last.files path ((Lists.start initial).after limit turns).file :=
  (agrees_run (agrees_start hstart) hstorable hrun).holds hwritten

/-! ## What is in the file in the end -/

/-- Where no turn fails and there is room for all entries, the file holds in the end what whoever
appended last found when they last opened the history, and in front of it what they have appended
since, the last one first. -/
theorem held_by_last {files : FileTree} {initial : List Entry}
    {before between after : List (Turn Holder)} {who : Holder} {entry : Entry}
    (hstart : History.Found files path initial)
    (hstorable : ∀ turn ∈ before ++ .opens who :: (between ++ .appends who entry :: after),
      turn.Storable)
    (hroom : ∀ holder, initial.length + (before ++ .opens who :: (between ++
      .appends who entry :: after)).countP Turn.isAppend ≤ limit holder)
    (hrun : (start files).run path limit
      (before ++ .opens who :: (between ++ .appends who entry :: after)) = some last)
    (stays : .opens who ∉ between) (silent : ∀ turn ∈ after, turn.isAppend = false) :
    ∃ middle found, (start files).run path limit before = some middle ∧
      History.Found middle.files path found ∧
      History.FileHolds last.files path
        (entry.sanitized :: (((between.filterMap (Turn.entryOf? who)).map Entry.sanitized).reverse ++
          found)) := by
  obtain ⟨middle, hmiddle, -⟩ := run_append hrun
  have hfound := (agrees_run (agrees_start hstart) (List.forall_mem_append.1 hstorable).1
    hmiddle).found
  refine ⟨middle, _, hmiddle, hfound, ?_⟩
  have hholds := fileHolds_run hstart hstorable hrun (by simp [Turn.isAppend])
  have hsize : Lists.Within (initial.length + before.countP Turn.isAppend)
      ((Lists.start initial).after limit before) := (Lists.within_start initial).after before
  have hfile := hsize.file
  have hmine := Lists.length_entryOf?_le who between
  have hlimit := hroom who
  simp only [List.countP_append, List.countP_cons, Turn.isAppend, Bool.false_eq_true, if_false,
    if_true] at hlimit
  rw [Lists.file_of_last stays silent, Lists.foldl_push (by omega), Lists.push_of_room] at hholds
  · exact hholds
  · rw [List.length_append, List.length_reverse, List.length_map]
    omega

/-- Where no turn fails and there is room for all entries, an entry is in the file in the end unless
after it somebody else appends one who had opened the history before it, and not again since. -/
theorem kept_unless_overtaken {files : FileTree} {initial : List Entry}
    {before after : List (Turn Holder)} {who : Holder} {entry : Entry} {last : Sharing Holder}
    (hstart : History.Found files path initial)
    (hstorable : ∀ turn ∈ before ++ .appends who entry :: after, turn.Storable)
    (hroom : ∀ holder, initial.length +
      (before ++ .appends who entry :: after).countP Turn.isAppend ≤ limit holder)
    (hrun : (start files).run path limit (before ++ .appends who entry :: after) = some last)
    (hovertaken : ∀ middle other more rest, after = middle ++ .appends other more :: rest →
      other = who ∨ .opens other ∈ middle) :
    ∃ entries, History.FileHolds last.files path entries ∧ entry.sanitized ∈ entries := by
  refine ⟨_, fileHolds_run hstart hstorable hrun (by simp [Turn.isAppend]), ?_⟩
  let found := (Lists.start initial).after limit before
  have hsize : Lists.Within (initial.length + before.countP Turn.isAppend) found :=
    (Lists.within_start initial).after before
  have hcount : ∀ holder, initial.length + before.countP Turn.isAppend + 1 +
      after.countP Turn.isAppend ≤ limit holder := by
    intro holder
    have hlimit := hroom holder
    rw [List.countP_append, List.countP_cons_of_pos rfl] at hlimit
    omega
  have hthere : (found.own who).length < limit who := by
    have hlimit := hcount who
    have hown := hsize.own who
    omega
  rw [Lists.after_append]
  refine (Lists.keeps_appended hthere entry).after (hsize.turn (.appends who entry)) hcount ?_
  intro middle other more rest hsplit
  exact (hovertaken middle other more rest hsplit).imp_left List.mem_singleton.2

end

/-- The files where there is nothing but a history. -/
def alone (content : String) : FileTree := ⟨.directory [("history.json", .file content)], []⟩

theorem save_empty (content : String) :
    FileTree.empty.save "history.json" content = (.ok (), alone content) := rfl

theorem save_alone (before content : String) :
    (alone before).save "history.json" content = (.ok (), alone content) := rfl

theorem append_empty (entries : List Entry) (entry : Entry) :
    (⟨"history.json", 200, entries⟩ : History).append .empty entry =
      (.ok (), ⟨"history.json", 200, History.push 200 entry entries⟩,
        alone (History.fileText (History.push 200 entry entries))) :=
  History.append_of_save (save_empty _)

theorem append_alone (before : String) (entries : List Entry) (entry : Entry) :
    (⟨"history.json", 200, entries⟩ : History).append (alone before) entry =
      (.ok (), ⟨"history.json", 200, History.push 200 entry entries⟩,
        alone (History.fileText (History.push 200 entry entries))) :=
  History.append_of_save (save_alone before _)

/-- Two holders have opened the history where there is no file; one appends an entry, and then the
second one does. -/
theorem run_pair (who : Bool) (first second : Entry) : ∃ last,
    (start .empty).run "history.json" (fun _ => 200)
        [.opens false, .opens true, .appends who first, .appends true second] = some last ∧
      last.files = alone (History.fileText
        (History.push 200 second (if who then History.push 200 first [] else []))) := by
  have hopen : History.openAt .empty "history.json" 200 = .ok ⟨"history.json", 200, []⟩ := rfl
  cases who <;> simp [run, turn, start, give, hopen, append_empty, append_alone]

/-- Two holders have opened the history, and one of them appends two entries: both are there. -/
theorem kept_unless_overtaken_twice :
    let first : Entry := { (default : Entry) with executedAt := .epoch, workflowId := "first" }
    let second : Entry := { (default : Entry) with executedAt := .epoch, workflowId := "second" }
    ∃ last, (start .empty).run "history.json" (fun _ => 200)
        ([.opens false, .opens true] ++ .appends true first :: [.appends true second]) =
          some last ∧
      ∃ entries, History.FileHolds last.files "history.json" entries ∧
        first.sanitized ∈ entries := by
  intro first second
  have hstart : History.Found .empty "history.json" [] := fun _ => rfl
  have hentries : first.Storable ∧ second.Storable :=
    ⟨⟨by decide, by decide⟩, ⟨by decide, by decide⟩⟩
  have hstorable : ∀ turn ∈ [Turn.opens false, .opens true] ++ .appends true first ::
      [.appends true second], turn.Storable := by
    simpa [Turn.Storable] using hentries
  obtain ⟨last, hrun, -⟩ := run_pair true first second
  refine ⟨last, hrun, kept_unless_overtaken hstart hstorable (fun _ => by decide) hrun ?_⟩
  intro middle other more rest hsplit
  have hmem : Turn.appends other more ∈ [Turn.appends true second] := by rw [hsplit]; simp
  exact .inl (Turn.appends.inj (List.mem_singleton.1 hmem)).1

/-- Two holders have opened the history, and each appends an entry: the first one is lost. -/
theorem overtaken : ∃ (first second : Entry) (last : Sharing Bool),
    (start .empty).run "history.json" (fun _ => 200)
        [.opens false, .opens true, .appends false first, .appends true second] = some last ∧
      ∀ entries, History.FileHolds last.files "history.json" entries →
        first.sanitized ∉ entries := by
  let first : Entry := { (default : Entry) with executedAt := .epoch, workflowId := "first" }
  let second : Entry := { (default : Entry) with executedAt := .epoch, workflowId := "second" }
  obtain ⟨last, hrun, hfiles⟩ := run_pair false first second
  refine ⟨first, second, last, hrun, fun entries hentries hmem => ?_⟩
  have hlast : History.FileHolds last.files "history.json" [second.sanitized] := by
    refine ⟨_, by rw [hfiles]; rfl, History.ofJson_fileText ?_⟩
    exact List.forall_mem_singleton.2 ⟨by decide, by decide⟩
  rw [History.fileHolds_unique hentries hlast] at hmem
  have hsame : first.sanitized = second.sanitized := List.mem_singleton.1 hmem
  exact absurd (congrArg Entry.workflowId hsame) (by decide)

end Sharing

end RequestFlow
