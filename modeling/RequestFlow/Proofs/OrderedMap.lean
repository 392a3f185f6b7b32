import Mathlib.Data.List.Nodup
import RequestFlow.OrderedMap

/-!
# What insertions leave

Inserting pairs in turn leaves each key with its last value, in the place where it first came up.
That is all there is to a map, so that it makes no difference whether pairs are inserted as they
come or collected in a map of their own before.

* `OrderedMap.get?_insertAll`, `OrderedMap.get?_ofList`, `OrderedMap.get?_overlay`: look-ups after
  insertions;
* `OrderedMap.get?_eq_some_iff`: a look-up finds the entries, in whatever order they are;
* `OrderedMap.keys_insertAll`, `OrderedMap.keys_ofList`: the keys after insertions;
* `OrderedMap.ext_get?`: a map is its keys and what is found under them;
* `OrderedMap.overlay_ofList`: to lay pairs over a map as a map is to insert them.
-/

namespace RequestFlow

/-! ## The first of each -/

theorem eraseDups_of_nodup {xs : List String} (h : xs.Nodup) : xs.eraseDups = xs := by
  induction xs with
  | nil => rfl
  | cons x xs ih =>
    obtain ⟨hx, hxs⟩ := List.nodup_cons.1 h
    have hothers : xs.filter (fun y => !y == x) = xs := by
      refine List.filter_eq_self.2 fun y hy => ?_
      have hne : y ≠ x := fun heq => hx (heq ▸ hy)
      simpa using hne
    rw [List.eraseDups_cons, hothers, ih hxs]

/-- What has come up before adds nothing. -/
theorem eraseDups_append_cons {seen : List String} {x : String} (h : x ∈ seen)
    (rest : List String) :
    (seen ++ x :: rest).eraseDups = (seen ++ rest).eraseDups := by
  have hremoved : (x :: rest).removeAll seen = rest.removeAll seen := by
    simp [List.removeAll, h]
  rw [List.eraseDups_append, List.eraseDups_append, hremoved]

theorem eraseDups_filter (p : String → Bool) (xs : List String) :
    (xs.filter p).eraseDups = xs.eraseDups.filter p := by
  match xs with
  | [] => rfl
  | x :: xs =>
    have hfewer : (xs.filter fun y => !y == x).length < (x :: xs).length :=
      Nat.lt_succ_of_le (List.length_filter_le ..)
    rw [List.eraseDups_cons, List.filter_cons, List.filter_cons, ← eraseDups_filter p]
    split
    · rw [List.eraseDups_cons, List.filter_filter, List.filter_filter]
      simp only [Bool.and_comm]
    · rename_i hx
      have hothers : (xs.filter fun y => !y == x).filter p = xs.filter p := by
        rw [List.filter_filter]
        refine List.filter_congr fun y _ => ?_
        by_cases heq : y = x
        · simp [heq, hx]
        · simp [heq]
      rw [hothers]
termination_by xs.length
decreasing_by exact hfewer

namespace OrderedMap

variable {α : Type}

/-! ## Look-ups -/

/-- The last pair with a key counts; a key without one keeps what it had. -/
theorem get?_insertAll (m : OrderedMap α) (pairs : List (String × α)) (key : String) :
    (m.insertAll pairs).get? key =
      ((pairs.reverse.find? fun pair => pair.1 == key).map Prod.snd).or (m.get? key) := by
  induction pairs generalizing m with
  | nil => rfl
  | cons pair rest ih =>
    show ((m.insert pair.1 pair.2).insertAll rest).get? key = _
    rw [ih, get?_insert, List.reverse_cons, List.find?_append]
    cases rest.reverse.find? fun pair => pair.1 == key with
    | some found => simp
    | none =>
      by_cases h : pair.1 = key
      · simp [h]
      · simp [h, Ne.symm h]

theorem get?_ofList (pairs : List (String × α)) (key : String) :
    (ofList pairs).get? key = (pairs.reverse.find? fun pair => pair.1 == key).map Prod.snd := by
  rw [ofList, get?_insertAll, get?_empty, Option.or_none]

/-- A layer counts before what it is laid over. -/
theorem get?_overlay (m layer : OrderedMap α) (key : String) :
    (m.overlay layer).get? key = (layer.get? key).or (m.get? key) := by
  have hlayer : layer.get? key =
      (layer.entries.reverse.find? fun pair => pair.1 == key).map Prod.snd := by
    rw [← get?_ofList, ofList_entries]
  rw [overlay, get?_insertAll, hlayer]

theorem insertAll_append (m : OrderedMap α) (first second : List (String × α)) :
    m.insertAll (first ++ second) = (m.insertAll first).insertAll second := List.foldl_append

theorem find?_eq_some_iff {entries : List (String × α)} (h : (entries.map Prod.fst).Nodup)
    {key : String} {value : α} : find? key entries = some value ↔ (key, value) ∈ entries := by
  induction entries with
  | nil => simp [find?]
  | cons entry rest ih =>
    obtain ⟨k, v⟩ := entry
    obtain ⟨hk, hrest⟩ := List.nodup_cons.1 h
    rw [find?, List.mem_cons]
    split
    · rename_i hkey
      subst hkey
      have hnot : (k, value) ∉ rest := fun hmem => hk (List.mem_map.2 ⟨_, hmem, rfl⟩)
      simp [hnot, eq_comm]
    · rename_i hkey
      rw [ih hrest]
      simp [Ne.symm hkey]

theorem get?_eq_some_iff {m : OrderedMap α} {key : String} {value : α} :
    m.get? key = some value ↔ (key, value) ∈ m.entries := find?_eq_some_iff m.nodup

/-- Look-ups do not depend on the order of the entries. -/
theorem get?_of_perm {m n : OrderedMap α} (h : m.entries.Perm n.entries) (key : String) :
    m.get? key = n.get? key := by
  ext value
  rw [get?_eq_some_iff, get?_eq_some_iff, h.mem_iff]

/-! ## Keys -/

/-- Keys that come up for the first time are added, in the order in which they do. -/
theorem keys_insertAll (m : OrderedMap α) (pairs : List (String × α)) :
    (m.insertAll pairs).keys = (m.keys ++ pairs.map Prod.fst).eraseDups := by
  induction pairs generalizing m with
  | nil =>
    rw [List.map_nil, List.append_nil]
    exact (eraseDups_of_nodup m.nodup).symm
  | cons pair rest ih =>
    show ((m.insert pair.1 pair.2).insertAll rest).keys = _
    rw [ih, keys_insert, List.map_cons]
    split
    · rename_i hseen
      exact (eraseDups_append_cons hseen _).symm
    · rw [List.append_assoc, List.singleton_append]

theorem keys_ofList (pairs : List (String × α)) :
    (ofList pairs).keys = (pairs.map Prod.fst).eraseDups := keys_insertAll empty pairs

theorem entries_eq_map (m : OrderedMap α) :
    m.entries.map (fun entry => (entry.1, some entry.2)) =
      m.keys.map fun key => (key, m.get? key) := by
  rw [keys, List.map_map]
  refine List.map_congr_left fun entry hentry => ?_
  exact congrArg (Prod.mk entry.1) (get?_eq_some_iff.2 hentry).symm

/-- A map is its keys, in order, and what is found under each. -/
theorem ext_get? {m n : OrderedMap α} (hkeys : m.keys = n.keys)
    (hget : ∀ key, m.get? key = n.get? key) : m = n := by
  have hentries : m.entries.map (fun entry => (entry.1, some entry.2)) =
      n.entries.map fun entry => (entry.1, some entry.2) := by
    rw [entries_eq_map, entries_eq_map, hkeys, funext hget]
  have hinjective (entry other : String × α) :
      (entry.1, some entry.2) = (other.1, some other.2) → entry = other := by
    simp [Prod.ext_iff]
  exact ext ((List.map_inj_right hinjective).1 hentries)

/-- Entries under other names, no two of them under the same, are found by these. -/
theorem get?_renamed {rename : String → Option String}
    (apart : ∀ key other name, rename key = some name → rename other = some name → key = other)
    (m : OrderedMap α) {name : String} {value : α} :
    (ofList (m.entries.filterMap fun entry =>
        (rename entry.1).map fun name => (name, entry.2))).get? name = some value ↔
      ∃ key, rename key = some name ∧ m.get? key = some value := by
  have hkeys : (m.entries.filterMap fun entry =>
      (rename entry.1).map fun name => (name, entry.2)).map Prod.fst = m.keys.filterMap rename := by
    rw [List.map_filterMap, keys, List.filterMap_map]
    refine List.filterMap_congr fun entry _ => ?_
    rw [Option.map_map]
    exact Option.map_id'
  have hnodup : (m.keys.filterMap rename).Nodup := m.nodup.filterMap apart
  have hentries := @entries_insertAll _ (m.entries.filterMap fun entry =>
    (rename entry.1).map fun name => (name, entry.2)) empty (by simpa [empty, hkeys] using hnodup)
  rw [get?_eq_some_iff, ofList, hentries, empty, List.nil_append, List.mem_filterMap]
  constructor
  · rintro ⟨⟨key, _⟩, hmem, hrenamed⟩
    obtain ⟨_, hname, heq⟩ := Option.map_eq_some_iff.1 hrenamed
    cases heq
    exact ⟨key, hname, get?_eq_some_iff.2 hmem⟩
  · rintro ⟨key, hname, hvalue⟩
    exact ⟨(key, value), get?_eq_some_iff.1 hvalue, by rw [hname]; rfl⟩

/-! ## Layers -/

/-- To lay pairs over a map as a map of their own is to insert them one after the other. -/
theorem overlay_ofList (m : OrderedMap α) (pairs : List (String × α)) :
    m.overlay (ofList pairs) = m.insertAll pairs := by
  refine ext_get? ?_ fun key => ?_
  · have hkeys : (ofList pairs).keys = (pairs.map Prod.fst).eraseDups := keys_ofList pairs
    have hnodup : ((pairs.map Prod.fst).eraseDups).Nodup := hkeys ▸ (ofList pairs).nodup
    have hnew : ((pairs.map Prod.fst).eraseDups.removeAll m.keys).eraseDups =
        ((pairs.map Prod.fst).removeAll m.keys).eraseDups := by
      rw [List.removeAll, List.removeAll, eraseDups_filter, eraseDups_filter,
        eraseDups_of_nodup hnodup]
    have hlaid : (m.overlay (ofList pairs)).keys = (m.keys ++ (ofList pairs).keys).eraseDups :=
      keys_insertAll ..
    rw [hlaid, hkeys, keys_insertAll, List.eraseDups_append, List.eraseDups_append, hnew]
  · rw [get?_overlay, get?_ofList, get?_insertAll]

/-- Layers that are laid over a map one after the other, as one row of pairs. -/
theorem foldl_overlay (m : OrderedMap α) (layers : List (OrderedMap α)) :
    layers.foldl overlay m = m.insertAll (layers.flatMap entries) := by
  rw [insertAll, List.foldl_flatMap]
  rfl

/-- The last of the layers that has a key gives its value. -/
theorem get?_foldl_overlay (m : OrderedMap α) (layers : List (OrderedMap α)) (key : String) :
    (layers.foldl overlay m).get? key =
      (layers.reverse.findSome? fun layer => layer.get? key).or (m.get? key) := by
  induction layers generalizing m with
  | nil => rfl
  | cons layer rest ih =>
    rw [List.foldl_cons, ih, get?_overlay, List.reverse_cons, List.findSome?_append]
    cases rest.reverse.findSome? fun layer => layer.get? key with
    | some found => simp
    | none => cases hlayer : layer.get? key <;> simp [hlayer]

end OrderedMap

end RequestFlow
