/-!
# Maps that remember their order

Variables, headers, options and expectations are written by an author in some order, and that
order shows in every listing of them. An `OrderedMap` is a list of pairs in which no key occurs
twice. A key keeps the place where it was first put; putting it again only changes its value.

* `keys_insert`: the keys after an insertion;
* `get?_insert`: what a look-up finds after an insertion;
* `ofList_entries`: a map is rebuilt from its own entries.
-/

namespace RequestFlow

/-- Pairs of a key and a value, no key twice, in the order in which the keys came. -/
structure OrderedMap (α : Type) where
  /-- The pairs, in order. -/
  entries : List (String × α)
  /-- No key occurs twice. -/
  nodup : (entries.map Prod.fst).Nodup

/-- Text values under text names. -/
abbrev TextMap := OrderedMap String

namespace OrderedMap

variable {α : Type}

@[ext] theorem ext {m n : OrderedMap α} (h : m.entries = n.entries) : m = n := by
  cases m; cases n; cases h; rfl

instance [DecidableEq α] : DecidableEq (OrderedMap α) := fun m n =>
  decidable_of_iff (m.entries = n.entries) ⟨ext, fun h => h ▸ rfl⟩

/-- The map without entries. -/
def empty : OrderedMap α := ⟨[], .nil⟩

instance : Inhabited (OrderedMap α) := ⟨empty⟩

/-- The keys, in order. -/
def keys (m : OrderedMap α) : List String := m.entries.map Prod.fst

/-- The values, in the order of their keys. -/
def values (m : OrderedMap α) : List α := m.entries.map Prod.snd

/-- The map has no entries. -/
def isEmpty (m : OrderedMap α) : Bool := m.entries.isEmpty

/-- The value of the first pair with this key. -/
def find? (key : String) : List (String × α) → Option α
  | [] => none
  | (k, v) :: rest => if k = key then some v else find? key rest

/-- The value under a key. -/
def get? (m : OrderedMap α) (key : String) : Option α := find? key m.entries

/-- The key has a value. -/
def contains (m : OrderedMap α) (key : String) : Bool := (m.get? key).isSome

/-- Puts the value in the place of the first pair with this key, or at the end. -/
def put (key : String) (value : α) : List (String × α) → List (String × α)
  | [] => [(key, value)]
  | (k, v) :: rest => if k = key then (k, value) :: rest else (k, v) :: put key value rest

theorem map_fst_put (key : String) (value : α) (entries : List (String × α)) :
    (put key value entries).map Prod.fst =
      if key ∈ entries.map Prod.fst then entries.map Prod.fst
      else entries.map Prod.fst ++ [key] := by
  induction entries with
  | nil => simp [put]
  | cons entry rest ih =>
    obtain ⟨k, v⟩ := entry
    by_cases h : k = key
    · simp [put, h]
    · have h' : ¬ key = k := fun e => h e.symm
      simp only [put, h, if_false, List.map_cons, ih, List.mem_cons, h', false_or]
      split <;> simp

theorem nodup_put {entries : List (String × α)} (h : (entries.map Prod.fst).Nodup)
    (key : String) (value : α) : ((put key value entries).map Prod.fst).Nodup := by
  rw [map_fst_put]
  split
  · exact h
  · rename_i hk
    refine List.nodup_append.2 ⟨h, by simp, ?_⟩
    intro a ha b hb
    simp only [List.mem_singleton] at hb
    subst hb
    exact fun e => hk (e ▸ ha)

/-- The map with this value under this key: in the key's place if it has one, else at the end. -/
def insert (m : OrderedMap α) (key : String) (value : α) : OrderedMap α :=
  ⟨put key value m.entries, nodup_put m.nodup key value⟩

/-- Inserts the pairs in turn. -/
def insertAll (m : OrderedMap α) (pairs : List (String × α)) : OrderedMap α :=
  pairs.foldl (fun acc pair => acc.insert pair.1 pair.2) m

/-- The map of a list of pairs: a repeated key keeps its first place and takes its last value. -/
def ofList (pairs : List (String × α)) : OrderedMap α := empty.insertAll pairs

/-- `m` with every entry of `layer` inserted. -/
def overlay (m layer : OrderedMap α) : OrderedMap α := m.insertAll layer.entries

theorem find?_put (key : String) (value : α) (entries : List (String × α)) (k : String) :
    find? k (put key value entries) = if k = key then some value else find? k entries := by
  induction entries with
  | nil =>
    by_cases h : key = k
    · simp [put, find?, h]
    · simp [put, find?, h, Ne.symm h]
  | cons entry rest ih =>
    obtain ⟨k', v'⟩ := entry
    by_cases h : k' = key
    · by_cases hk : key = k
      · simp [put, find?, h, hk]
      · simp [put, find?, h, hk, Ne.symm hk]
    · by_cases hk : k' = k
      · subst hk; simp [put, find?, h]
      · simp [put, find?, h, hk, ih]

@[simp] theorem get?_empty (k : String) : (empty : OrderedMap α).get? k = none := rfl

theorem get?_insert (m : OrderedMap α) (key : String) (value : α) (k : String) :
    (m.insert key value).get? k = if k = key then some value else m.get? k :=
  find?_put ..

theorem keys_insert (m : OrderedMap α) (key : String) (value : α) :
    (m.insert key value).keys = if key ∈ m.keys then m.keys else m.keys ++ [key] :=
  map_fst_put ..

theorem put_of_not_mem {key : String} {entries : List (String × α)}
    (h : key ∉ entries.map Prod.fst) (value : α) :
    put key value entries = entries ++ [(key, value)] := by
  induction entries with
  | nil => rfl
  | cons entry rest ih =>
    obtain ⟨k, v⟩ := entry
    simp only [List.map_cons, List.mem_cons, not_or] at h
    simp [put, Ne.symm h.1, ih h.2]

theorem entries_insertAll {pairs : List (String × α)} {m : OrderedMap α}
    (h : ((m.entries ++ pairs).map Prod.fst).Nodup) :
    (m.insertAll pairs).entries = m.entries ++ pairs := by
  induction pairs generalizing m with
  | nil => simp [insertAll]
  | cons pair rest ih =>
    have hp : pair.1 ∉ m.entries.map Prod.fst := by
      intro hmem
      rw [List.map_append, List.nodup_append] at h
      exact h.2.2 _ hmem _ (by simp) rfl
    have he : (m.insert pair.1 pair.2).entries = m.entries ++ [pair] := put_of_not_mem hp _
    show ((m.insert pair.1 pair.2).insertAll rest).entries = _
    rw [ih (by rw [he]; simpa using h), he]
    simp

/-- A map is rebuilt from its own entries. -/
theorem ofList_entries (m : OrderedMap α) : ofList m.entries = m := by
  apply ext
  have := @entries_insertAll _ m.entries empty (by simpa [empty] using m.nodup)
  simpa [ofList, empty] using this

end OrderedMap

end RequestFlow
